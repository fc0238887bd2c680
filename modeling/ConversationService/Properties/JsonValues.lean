import Mathlib.Data.List.Induction
import ConversationService.Model.JsonInput

/-!
# JSON values

Induction over them, the values that a JSON text can stand for, and the order of the members
of an object.
-/

namespace ConversationService
namespace Fingerprint

open Python

@[elab_as_elim]
theorem json_induction {P : Json -> Prop} (null : P .null) (bool : forall b, P (.bool b))
    (int : forall n, P (.int n)) (float : forall repr, P (.float repr)) (str : forall s, P (.str s))
    (arr : forall items, (forall item, item ∈ items -> P item) -> P (.arr items))
    (obj : forall fields, (forall field, field ∈ fields -> P field.2) -> P (.obj fields))
    (v : Json) : P v :=
  match v with
  | .null => null
  | .bool b => bool b
  | .int n => int n
  | .float repr => float repr
  | .str s => str s
  | .arr items =>
      arr items (fun item _ => json_induction null bool int float str arr obj item)
  | .obj fields =>
      obj fields (fun field _ => json_induction null bool int float str arr obj field.2)
termination_by sizeOf v
decreasing_by
  · have hlt := List.sizeOf_lt_of_mem ‹item ∈ items›
    rw [Json.arr.sizeOf_spec]
    omega
  · have hlt := List.sizeOf_lt_of_mem ‹field ∈ fields›
    rw [Json.obj.sizeOf_spec]
    cases field
    rw [Prod.mk.sizeOf_spec] at hlt
    dsimp only
    omega

/-!
# Numbers
-/

/-- `(0|[1-9][0-9]*)` -/
inductive IsInteger : Text -> Prop where
  | zero : IsInteger [0x30]
  | digits {c : CodePoint} {more : Text} : c ≠ 0x30 -> (forall d, d ∈ c :: more -> isDigit d = true) ->
      IsInteger (c :: more)

/-- `(\.[0-9]+)?` -/
inductive IsFraction : Text -> Prop where
  | none : IsFraction []
  | some {digits : Text} : digits ≠ [] -> (forall d, d ∈ digits -> isDigit d = true) ->
      IsFraction (0x2E :: digits)

/-- `[-+]?` -/
def IsSign (s : Text) : Prop := s = [] ∨ s = [0x2D] ∨ s = [0x2B]

/-- `([eE][-+]?[0-9]+)?` -/
inductive IsExponent : Text -> Prop where
  | none : IsExponent []
  | some {e : CodePoint} {sign digits : Text} : e = 0x65 ∨ e = 0x45 -> IsSign sign ->
      digits ≠ [] -> (forall d, d ∈ digits -> isDigit d = true) ->
      IsExponent (e :: (sign ++ digits))

inductive IsFloatText : Text -> Prop where
  | number {minus digits fraction exponent : Text} : minus = [] ∨ minus = [0x2D] ->
      IsInteger digits -> IsFraction fraction -> IsExponent exponent ->
      ¬(fraction = [] ∧ exponent = []) ->
      IsFloatText (minus ++ digits ++ fraction ++ exponent)

/-- The `repr` of a float: `float` gives it back. -/
inductive IsFloat (float : Text -> Text) : Text -> Prop where
  | nan : IsFloat float (text "nan")
  | infinity : IsFloat float (text "inf")
  | minusInfinity : IsFloat float (text "-inf")
  | finite {repr : Text} : IsFloatText repr -> float repr = repr -> IsFloat float repr

/-- A value that is read from a JSON text. -/
inductive IsJson (float : Text -> Text) : Json -> Prop where
  | null : IsJson float .null
  | bool (b : Bool) : IsJson float (.bool b)
  | int {n : Int} : (intText n.natAbs).length ≤ 4300 -> IsJson float (.int n)
  | float {repr : Text} : IsFloat float repr -> IsJson float (.float repr)
  | str (s : Text) : IsJson float (.str s)
  | arr {items : List Json} : (forall item, item ∈ items -> IsJson float item) ->
      IsJson float (.arr items)
  | obj {fields : List (Text × Json)} : (fields.map Prod.fst).Nodup ->
      (forall field, field ∈ fields -> IsJson float field.2) -> IsJson float (.obj fields)

/-!
# Sorted members
-/

section Sorting

variable {α β : Type}

theorem mem_sortFields {fields : List (Text × α)} {field : Text × α} :
    field ∈ sortFields fields <-> field ∈ fields :=
  (List.perm_insertionSort _ fields).mem_iff

theorem sortFields_perm (fields : List (Text × α)) : (sortFields fields).Perm fields :=
  List.perm_insertionSort _ fields

theorem sortFields_pairwise (fields : List (Text × α)) :
    (sortFields fields).Pairwise (fun a b => a.1 ≤ b.1) := by
  have htotal : Std.Total (fun a b : Text × α => a.1 ≤ b.1) :=
    ⟨fun a b => le_total a.1 b.1⟩
  have htrans : IsTrans (Text × α) (fun a b => a.1 ≤ b.1) :=
    ⟨fun _ _ _ hab hbc => le_trans hab hbc⟩
  exact List.pairwise_insertionSort _ fields

theorem sortFields_eq_self {fields : List (Text × α)}
    (h : fields.Pairwise (fun a b => a.1 ≤ b.1)) : sortFields fields = fields :=
  h.insertionSort_eq

theorem sortFields_sortFields (fields : List (Text × α)) :
    sortFields (sortFields fields) = sortFields fields :=
  sortFields_eq_self (sortFields_pairwise fields)

theorem sortFields_map (g : α -> β) (fields : List (Text × α)) :
    sortFields (fields.map (fun field => (field.1, g field.2))) =
      (sortFields fields).map (fun field => (field.1, g field.2)) := by
  symm
  apply List.map_insertionSort
  intro a _ b _
  rfl

theorem sortFields_eq_of_perm {fields fields' : List (Text × α)} (h : fields.Perm fields')
    (hkeys : (fields.map Prod.fst).Nodup) : sortFields fields = sortFields fields' := by
  have hperm : (sortFields fields).Perm (sortFields fields') :=
    (sortFields_perm fields).trans (h.trans (sortFields_perm fields').symm)
  refine hperm.eq_of_pairwise ?_ (sortFields_pairwise fields) (sortFields_pairwise fields')
  intro a b ha hb hab hba
  have hkey : a.1 = b.1 := le_antisymm hab hba
  have ha' : a ∈ fields := mem_sortFields.mp ha
  have hb' : b ∈ fields := h.mem_iff.mpr (mem_sortFields.mp hb)
  exact List.inj_on_of_nodup_map hkeys ha' hb' hkey

end Sorting

/-!
# Dictionaries
-/

section Dictionaries

variable {α : Type}

/-- One member more, in the place of the one with its key if there is one. -/
def dictPut (dict : List (Text × α)) (field : Text × α) : List (Text × α) :=
  if dict.any (fun f => f.1 = field.1) then
    dict.map (fun f => if f.1 = field.1 then field else f)
  else dict ++ [field]

theorem dictOf_eq (fields : List (Text × α)) : dictOf fields = fields.foldl dictPut [] := rfl

theorem dictPut_keys (dict : List (Text × α)) (field : Text × α) :
    (dictPut dict field).map Prod.fst =
      if field.1 ∈ dict.map Prod.fst then dict.map Prod.fst else dict.map Prod.fst ++ [field.1] := by
  have hany : dict.any (fun f => f.1 = field.1) = true <-> field.1 ∈ dict.map Prod.fst := by
    simp
  unfold dictPut
  by_cases hmem : field.1 ∈ dict.map Prod.fst
  · rw [if_pos (hany.mpr hmem), if_pos hmem, List.map_map]
    apply List.map_congr_left
    intro f _
    rw [Function.comp_apply]
    split
    · rename_i hkey
      exact hkey.symm
    · rfl
  · rw [if_neg (fun h => hmem (hany.mp h)), if_neg hmem, List.map_append]
    rfl

theorem dictPut_new {dict : List (Text × α)} {field : Text × α}
    (h : field.1 ∉ dict.map Prod.fst) : dictPut dict field = dict ++ [field] := by
  unfold dictPut
  apply if_neg
  intro hany
  rcases List.any_eq_true.mp hany with ⟨f, hf, hkey⟩
  exact h (List.mem_map.mpr ⟨f, hf, of_decide_eq_true hkey⟩)

theorem mem_of_mem_dictPut {dict : List (Text × α)} {field f : Text × α}
    (h : f ∈ dictPut dict field) : f ∈ dict ∨ f = field := by
  unfold dictPut at h
  split at h
  · rcases List.mem_map.mp h with ⟨g, hg, rfl⟩
    split
    · exact Or.inr rfl
    · exact Or.inl hg
  · rcases List.mem_append.mp h with hf | hf
    · exact Or.inl hf
    · exact Or.inr (List.mem_singleton.mp hf)

theorem dictOf_nodup (fields : List (Text × α)) : ((dictOf fields).map Prod.fst).Nodup := by
  rw [dictOf_eq]
  apply List.foldlRecOn fields dictPut (motive := fun dict => (dict.map Prod.fst).Nodup)
    List.nodup_nil
  intro dict hdict field _
  rw [dictPut_keys]
  split
  · exact hdict
  · rename_i hnew
    rw [List.nodup_append]
    refine ⟨hdict, List.nodup_singleton _, ?_⟩
    rintro a ha b hb rfl
    rw [List.mem_singleton] at hb
    exact hnew (hb ▸ ha)

theorem mem_of_mem_dictOf {fields : List (Text × α)} {f : Text × α} (h : f ∈ dictOf fields) :
    f ∈ fields := by
  revert h
  rw [dictOf_eq]
  apply List.foldlRecOn fields dictPut (motive := fun dict => f ∈ dict -> f ∈ fields)
  · intro h
    cases h
  · intro dict hdict field hfield h
    rcases mem_of_mem_dictPut h with hold | rfl
    · exact hdict hold
    · exact hfield

theorem dictOf_eq_self {fields : List (Text × α)} (h : (fields.map Prod.fst).Nodup) :
    dictOf fields = fields := by
  rw [dictOf_eq]
  induction fields using List.reverseRecOn with
  | nil => rfl
  | append_singleton front field ih =>
      rw [List.map_append, List.nodup_append] at h
      rw [List.foldl_append, ih h.left]
      apply dictPut_new
      intro hmem
      exact h.right.right _ hmem _ List.mem_cons_self rfl

end Dictionaries

/-!
# Values with sorted members
-/

mutual
/-- The value with the members sorted at every depth. -/
def sortKeys : Json -> Json
  | .null => .null
  | .bool b => .bool b
  | .int n => .int n
  | .float repr => .float repr
  | .str s => .str s
  | .arr items => .arr (sortKeysItems items)
  | .obj fields => .obj (sortFields (sortKeysFields fields))

def sortKeysItems : List Json -> List Json
  | [] => []
  | item :: rest => sortKeys item :: sortKeysItems rest

def sortKeysFields : List (Text × Json) -> List (Text × Json)
  | [] => []
  | (key, value) :: rest => (key, sortKeys value) :: sortKeysFields rest
end

theorem sortKeysItems_eq (items : List Json) : sortKeysItems items = items.map sortKeys := by
  induction items with
  | nil => rfl
  | cons item rest ih => rw [sortKeysItems, ih, List.map_cons]

theorem sortKeysFields_eq (fields : List (Text × Json)) :
    sortKeysFields fields = fields.map (fun field => (field.1, sortKeys field.2)) := by
  induction fields with
  | nil => rfl
  | cons field rest ih => rw [sortKeysFields, ih, List.map_cons]

theorem dumpsItems_eq (items : List Json) : dumpsItems items = items.map dumps := by
  induction items with
  | nil => rfl
  | cons item rest ih => rw [dumpsItems, ih, List.map_cons]

theorem dumpsFields_eq (fields : List (Text × Json)) :
    dumpsFields fields = fields.map (fun field => (field.1, dumps field.2)) := by
  induction fields with
  | nil => rfl
  | cons field rest ih => rw [dumpsFields, ih, List.map_cons]

theorem sortKeys_arr (items : List Json) :
    sortKeys (.arr items) = .arr (items.map sortKeys) := by
  rw [sortKeys, sortKeysItems_eq]

theorem sortKeys_obj (fields : List (Text × Json)) :
    sortKeys (.obj fields) =
      .obj ((sortFields fields).map (fun field => (field.1, sortKeys field.2))) := by
  rw [sortKeys, sortKeysFields_eq, sortFields_map]

def dumpsMember (field : Text × Json) : Text :=
  dumpsText field.1 ++ text ":" ++ dumps field.2

theorem dumps_arr (items : List Json) :
    dumps (.arr items) = text "[" ++ join (text ",") (items.map dumps) ++ text "]" := by
  rw [dumps, dumpsItems_eq]

theorem dumps_obj (fields : List (Text × Json)) :
    dumps (.obj fields) =
      text "\x7b" ++ join (text ",") ((sortFields fields).map dumpsMember) ++ text "\x7d" := by
  rw [dumps, dumpsFields_eq, sortFields_map, List.map_map]
  rfl

theorem dumpsMember_map_sortKeys {fields : List (Text × Json)}
    (h : forall field, field ∈ fields -> dumps (sortKeys field.2) = dumps field.2) :
    (fields.map (fun field => (field.1, sortKeys field.2))).map dumpsMember =
      fields.map dumpsMember := by
  rw [List.map_map]
  apply List.map_congr_left
  intro field hfield
  unfold dumpsMember
  rw [Function.comp_apply, h field hfield]

theorem dumps_sortKeys (v : Json) : dumps (sortKeys v) = dumps v := by
  induction v using json_induction with
  | null => rfl
  | bool b => rfl
  | int n => rfl
  | float repr => rfl
  | str s => rfl
  | arr items ih =>
      rw [sortKeys_arr, dumps_arr, dumps_arr, List.map_map]
      congr 3
      exact List.map_congr_left ih
  | obj fields ih =>
      have hmembers := @dumpsMember_map_sortKeys (sortFields fields)
        (fun field hfield => ih field (mem_sortFields.mp hfield))
      rw [sortKeys_obj, dumps_obj, dumps_obj, ← sortFields_map, sortFields_sortFields,
        sortFields_map, hmembers]

theorem sortKeys_sortKeys (v : Json) : sortKeys (sortKeys v) = sortKeys v := by
  induction v using json_induction with
  | null => rfl
  | bool b => rfl
  | int n => rfl
  | float repr => rfl
  | str s => rfl
  | arr items ih =>
      rw [sortKeys_arr, sortKeys_arr, List.map_map]
      congr 1
      exact List.map_congr_left ih
  | obj fields ih =>
      rw [sortKeys_obj, sortKeys_obj, sortFields_map, sortFields_sortFields, List.map_map]
      congr 1
      apply List.map_congr_left
      intro field hfield
      rw [Function.comp_apply, ih field (mem_sortFields.mp hfield)]

end Fingerprint
end ConversationService
