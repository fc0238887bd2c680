import Mathlib.Data.List.Perm.Lattice
import ConversationService.Properties.JsonRoundTrip

/-!
# Reordered objects

JSON values that differ in the order of members only, what is read from them, and what shows
the order: the `repr` of every value with an object of two or more members in it.
-/

namespace ConversationService
namespace Fingerprint

open Python

/-- The members of one object in the value, at any depth, have another order. -/
inductive ReorderedOnce : Json -> Json -> Prop where
  | members {fields fields' : List (Text × Json)} : fields.Perm fields' ->
      ReorderedOnce (.obj fields) (.obj fields')
  | item {front rest : List Json} {v w : Json} : ReorderedOnce v w ->
      ReorderedOnce (.arr (front ++ v :: rest)) (.arr (front ++ w :: rest))
  | member {front rest : List (Text × Json)} {key : Text} {v w : Json} : ReorderedOnce v w ->
      ReorderedOnce (.obj (front ++ (key, v) :: rest)) (.obj (front ++ (key, w) :: rest))

/-- The same value but for the order of the members of its objects. -/
def Reordered : Json -> Json -> Prop := Relation.ReflTransGen ReorderedOnce

/-- An object of two or more members stands in the value, at any depth. -/
inductive HasOrder : Json -> Prop where
  | here {fields : List (Text × Json)} : 2 ≤ fields.length -> HasOrder (.obj fields)
  | item {items : List Json} {item : Json} : item ∈ items -> HasOrder item -> HasOrder (.arr items)
  | member {fields : List (Text × Json)} {field : Text × Json} : field ∈ fields ->
      HasOrder field.2 -> HasOrder (.obj fields)

section Reordering

variable {float : Text -> Text}

theorem isJson_reorderedOnce {v w : Json} (h : ReorderedOnce v w) (hv : IsJson float v) :
    IsJson float w := by
  induction h with
  | members hperm =>
      cases hv with
      | obj hkeys hjson =>
          refine IsJson.obj ((hperm.map Prod.fst).nodup_iff.mp hkeys) ?_
          exact fun field hfield => hjson field (hperm.mem_iff.mpr hfield)
  | item _ ih =>
      cases hv with
      | arr hjson =>
          apply IsJson.arr
          intro item hitem
          rcases List.mem_append.mp hitem with hfront | hrest
          · exact hjson item (List.mem_append_left _ hfront)
          · rcases List.mem_cons.mp hrest with rfl | hrest
            · exact ih (hjson _ (List.mem_append_right _ List.mem_cons_self))
            · exact hjson item (List.mem_append_right _ (List.mem_cons_of_mem _ hrest))
  | member _ ih =>
      cases hv with
      | obj hkeys hjson =>
          rw [List.map_append, List.map_cons] at hkeys
          refine IsJson.obj (by rw [List.map_append, List.map_cons]; exact hkeys) ?_
          intro field hfield
          rcases List.mem_append.mp hfield with hfront | hrest
          · exact hjson field (List.mem_append_left _ hfront)
          · rcases List.mem_cons.mp hrest with rfl | hrest
            · exact ih (hjson _ (List.mem_append_right _ List.mem_cons_self))
            · exact hjson field (List.mem_append_right _ (List.mem_cons_of_mem _ hrest))

theorem eq_of_reorderedOnce {v w : Json} (h : ReorderedOnce v w) (hv : ¬HasOrder v) : v = w := by
  induction h with
  | @members fields fields' hperm =>
      have hshort : fields.length < 2 := by
        by_contra hlong
        exact hv (HasOrder.here (by omega))
      cases fields with
      | nil => rw [hperm.nil_eq]
      | cons field rest =>
          cases rest with
          | nil => rw [List.singleton_perm.mp hperm]
          | cons _ _ =>
              rw [List.length_cons, List.length_cons] at hshort
              omega
  | item _ ih =>
      rw [ih (fun hitem => hv (HasOrder.item (List.mem_append_right _ List.mem_cons_self) hitem))]
  | @member _ _ key v _ _ ih =>
      have hmem := fun hvalue => hv
        (@HasOrder.member _ (key, v) (List.mem_append_right _ List.mem_cons_self) hvalue)
      rw [ih hmem]

end Reordering

/-!
# Members that are read
-/

section Lookup

theorem lookup_perm {α : Type} {fields fields' : List (Text × α)} (h : fields.Perm fields')
    (hkeys : (fields.map Prod.fst).Nodup) (key : Text) : fields.lookup key = fields'.lookup key := by
  induction h with
  | nil => rfl
  | cons field _ ih =>
      rw [List.map_cons, List.nodup_cons] at hkeys
      rw [List.lookup_cons, List.lookup_cons, ih hkeys.right]
  | swap a b rest =>
      rw [List.map_cons, List.map_cons, List.nodup_cons] at hkeys
      have hne : b.1 ≠ a.1 := fun heq => hkeys.left (heq ▸ List.mem_cons_self)
      rw [List.lookup_cons, List.lookup_cons, List.lookup_cons, List.lookup_cons]
      by_cases ha : key = a.1
      · have hb : key ≠ b.1 := fun heq => hne (heq.symm.trans ha)
        rw [beq_eq_false_iff_ne.mpr hb]
      · rw [beq_eq_false_iff_ne.mpr ha]
  | trans hperm _ ih ih' =>
      rw [ih hkeys, ih' ((hperm.map Prod.fst).nodup_iff.mp hkeys)]

theorem getD_reorderedOnce {fields fields' : List (Text × Json)}
    (h : ReorderedOnce (.obj fields) (.obj fields')) (hkeys : (fields.map Prod.fst).Nodup)
    (key : Text) (default : Json) :
    Json.getD fields key default = Json.getD fields' key default ∨
      ReorderedOnce (Json.getD fields key default) (Json.getD fields' key default) := by
  unfold Json.getD
  cases h with
  | members hperm =>
      rw [lookup_perm hperm hkeys key]
      exact Or.inl rfl
  | @member front rest memberKey v w hvalue =>
      rw [List.lookup_append, List.lookup_append, List.lookup_cons, List.lookup_cons]
      cases front.lookup key with
      | some value => exact Or.inl rfl
      | none =>
          by_cases hkey : key = memberKey
          · rw [hkey, beq_self_eq_true]
            exact Or.inr hvalue
          · rw [beq_eq_false_iff_ne.mpr hkey]
            exact Or.inl rfl

theorem keys_reorderedOnce {fields fields' : List (Text × Json)}
    (h : ReorderedOnce (.obj fields) (.obj fields')) :
    (fields.map Prod.fst).Perm (fields'.map Prod.fst) := by
  cases h with
  | members hperm => exact hperm.map Prod.fst
  | member _ =>
      rw [List.map_append, List.map_append]
      exact List.Perm.refl _

end Lookup

/-!
# The order of members in a `repr`
-/

section Repr

/-- A character read back from its digits, of which the first ones have been read. -/
def readHexEscape : Nat -> Nat -> Text -> Option (CodePoint × Text)
  | 0, n, rest => some (Fin.ofNat 0x110000 n, rest)
  | _ + 1, _, [] => none
  | width + 1, n, c :: rest =>
      (hexValue c).bind (fun d => readHexEscape width (n * 16 + d) rest)

/-- The last digit is read behind the others, so that more digits may follow. -/
theorem readHexEscape_hexEscape (width more acc n : Nat) (rest : Text) :
    readHexEscape (width + more) acc (Json.hexEscape width n ++ rest) =
      readHexEscape more (acc * 16 ^ width + n % 16 ^ width) rest := by
  induction width generalizing more n rest with
  | zero =>
      rw [Nat.zero_add, pow_zero, Nat.mul_one, Nat.mod_one, Nat.add_zero]
      rfl
  | succ width ih =>
      have hdigit := UUID.hexValue_digitChar (n % 16) (Nat.mod_lt _ (by decide))
      have hvalue : (acc * 16 ^ width + n / 16 % 16 ^ width) * 16 + n % 16 =
          acc * 16 ^ (width + 1) + n % 16 ^ (width + 1) := by
        rw [Nat.pow_succ', Nat.mod_mul]
        ring
      rw [Json.hexEscape, List.append_assoc, Nat.add_right_comm, Nat.add_assoc, ih,
        List.singleton_append, readHexEscape, hdigit, Option.bind_some, hvalue]

/-- A character read back from the `repr` of a string. -/
def readRepr : Text -> Option (CodePoint × Text)
  | [] => none
  | c :: rest =>
      if c = 0x5C then
        match rest with
        | 0x74 :: rest => some (0x09, rest)
        | 0x6E :: rest => some (0x0A, rest)
        | 0x72 :: rest => some (0x0D, rest)
        | 0x78 :: rest => readHexEscape 2 0 rest
        | 0x75 :: rest => readHexEscape 4 0 rest
        | 0x55 :: rest => readHexEscape 8 0 rest
        | c :: rest => some (c, rest)
        | [] => none
      else some (c, rest)

def IsQuote (quote : CodePoint) : Prop := quote = 0x27 ∨ quote = 0x22

theorem readRepr_reprChar {quote : CodePoint} (hquote : IsQuote quote) (c : CodePoint)
    (rest : Text) : readRepr (Json.reprChar quote c ++ rest) = some (c, rest) := by
  unfold Json.reprChar
  by_cases hbackslash : c = 0x5C
  · rw [if_pos hbackslash, hbackslash]
    rfl
  rw [if_neg hbackslash]
  by_cases hsame : c = quote
  · rw [if_pos hsame, hsame]
    rcases hquote with rfl | rfl
    · rfl
    · rfl
  rw [if_neg hsame]
  by_cases htab : c = 0x09
  · rw [if_pos htab, htab]
    rfl
  rw [if_neg htab]
  by_cases hfeed : c = 0x0A
  · rw [if_pos hfeed, hfeed]
    rfl
  rw [if_neg hfeed]
  by_cases hreturn : c = 0x0D
  · rw [if_pos hreturn, hreturn]
    rfl
  rw [if_neg hreturn]
  by_cases hprintable : isPrintable c = true
  · rw [if_pos hprintable, List.singleton_append, readRepr.eq_def]
    exact if_neg hbackslash
  rw [if_neg hprintable]
  -- the escape is wide enough for the character
  have hread : forall width, c.val < 16 ^ width ->
      readHexEscape width 0 (Json.hexEscape width c.val ++ rest) = some (c, rest) := by
    intro width hwide
    have hvalue : Fin.ofNat 0x110000 (0 * 16 ^ width + c.val % 16 ^ width) = c := by
      rw [Nat.zero_mul, Nat.zero_add, Nat.mod_eq_of_lt hwide]
      exact Fin.ext (Nat.mod_eq_of_lt c.isLt)
    have hdigits := readHexEscape_hexEscape width 0 0 c.val rest
    rw [Nat.add_zero, readHexEscape, hvalue] at hdigits
    exact hdigits
  by_cases hlatin : c.val ≤ 0xFF
  · rw [if_pos hlatin]
    exact hread 2 (by omega)
  rw [if_neg hlatin]
  by_cases hbasic : c.val ≤ 0xFFFF
  · rw [if_pos hbasic]
    exact hread 4 (by omega)
  rw [if_neg hbasic]
  exact hread 8 (by omega)

theorem reprChar_start {quote : CodePoint} (hquote : IsQuote quote) (c : CodePoint) :
    exists d more, Json.reprChar quote c = d :: more ∧ d ≠ quote := by
  have hbackslash : (0x5C : CodePoint) ≠ quote := by
    rcases hquote with rfl | rfl
    · decide
    · decide
  unfold Json.reprChar
  split
  · exact ⟨0x5C, _, rfl, hbackslash⟩
  split
  · exact ⟨0x5C, _, rfl, hbackslash⟩
  split
  · exact ⟨0x5C, _, rfl, hbackslash⟩
  split
  · exact ⟨0x5C, _, rfl, hbackslash⟩
  split
  · exact ⟨0x5C, _, rfl, hbackslash⟩
  split
  · rename_i _ hne _ _ _ _
    exact ⟨c, [], rfl, hne⟩
  split
  · exact ⟨0x5C, _, rfl, hbackslash⟩
  split
  · exact ⟨0x5C, _, rfl, hbackslash⟩
  · exact ⟨0x5C, _, rfl, hbackslash⟩

theorem reprChars_unique {quote : CodePoint} (hquote : IsQuote quote) {s s' x y : Text}
    (heq : s.flatMap (Json.reprChar quote) ++ quote :: x =
      s'.flatMap (Json.reprChar quote) ++ quote :: y) : s = s' := by
  induction s generalizing s' with
  | nil =>
      cases s' with
      | nil => rfl
      | cons c s' =>
          rcases reprChar_start hquote c with ⟨d, more, hstart, hd⟩
          rw [List.flatMap_cons, hstart] at heq
          exact absurd (List.cons.inj heq).left.symm hd
  | cons c s ih =>
      cases s' with
      | nil =>
          rcases reprChar_start hquote c with ⟨d, more, hstart, hd⟩
          rw [List.flatMap_cons, hstart] at heq
          exact absurd (List.cons.inj heq).left hd
      | cons c' s' =>
          rw [List.flatMap_cons, List.flatMap_cons, List.append_assoc, List.append_assoc] at heq
          have hread := readRepr_reprChar hquote c (s.flatMap (Json.reprChar quote) ++ quote :: x)
          rw [heq, readRepr_reprChar hquote c'] at hread
          rcases Prod.mk.inj (Option.some.inj hread) with ⟨hc, hrest⟩
          rw [hc, ih hrest.symm]

theorem quoted_eq (s : Text) :
    exists quote, IsQuote quote ∧
      Json.quoted s = quote :: (s.flatMap (Json.reprChar quote) ++ [quote]) := by
  unfold Json.quoted
  dsimp only
  split
  · exact ⟨0x22, Or.inr rfl, rfl⟩
  · exact ⟨0x27, Or.inl rfl, rfl⟩

/-- The `repr` of a string tells the string and where it ends. -/
theorem quoted_unique {s s' x y : Text} (heq : Json.quoted s ++ x = Json.quoted s' ++ y) :
    s = s' := by
  rcases quoted_eq s with ⟨quote, hquote, hs⟩
  rcases quoted_eq s' with ⟨quote', _, hs'⟩
  rw [hs, hs', List.cons_append, List.cons_append, List.append_assoc, List.append_assoc] at heq
  rcases List.cons.inj heq with ⟨rfl, hrest⟩
  exact reprChars_unique hquote hrest

/-- A member of a dict in a `repr`. -/
def reprMember (field : Text × Json) : Text :=
  Json.quoted field.1 ++ text ": " ++ Json.reprText field.2

theorem reprItems_eq (items : List Json) :
    Json.reprItems items = join (text ", ") (items.map Json.reprText) := by
  induction items with
  | nil => rfl
  | cons item rest ih =>
      cases rest with
      | nil => rfl
      | cons next rest =>
          rw [Json.reprItems, ih]
          · rfl
          · exact List.cons_ne_nil _ _

theorem reprFields_eq (fields : List (Text × Json)) :
    Json.reprFields fields = join (text ", ") (fields.map reprMember) := by
  induction fields with
  | nil => rfl
  | cons field rest ih =>
      cases rest with
      | nil => rfl
      | cons next rest =>
          rw [Json.reprFields, ih]
          · rfl
          · exact List.cons_ne_nil _ _

theorem reprText_arr (items : List Json) :
    Json.reprText (.arr items) =
      text "[" ++ join (text ", ") (items.map Json.reprText) ++ text "]" := by
  rw [Json.reprText, reprItems_eq]

theorem reprText_obj (fields : List (Text × Json)) :
    Json.reprText (.obj fields) =
      text "\x7b" ++ join (text ", ") (fields.map reprMember) ++ text "\x7d" := by
  rw [Json.reprText, reprFields_eq]

theorem join_part_inj {sep : Text} {front rest : List Text} {a b : Text}
    (heq : join sep (front ++ a :: rest) = join sep (front ++ b :: rest)) : a = b := by
  induction front with
  | nil =>
      cases rest with
      | nil => exact heq
      | cons next rest =>
          rw [List.nil_append, List.nil_append, join_cons_cons, join_cons_cons,
            List.append_assoc, List.append_assoc] at heq
          exact List.append_cancel_right heq
  | cons part front ih =>
      rw [List.cons_append, List.cons_append, join, join] at heq
      · exact ih (List.append_cancel_left heq)
      · simp
      · simp

theorem bracketed_inj {left right s s' : Text}
    (heq : left ++ s ++ right = left ++ s' ++ right) : s = s' :=
  List.append_cancel_left (List.append_cancel_right heq)

variable {float : Text -> Text}

/-- Every order that a value has is seen in its `repr`. -/
theorem exists_reprText_ne {v : Json} (h : HasOrder v) (hv : IsJson float v) :
    exists w, ReorderedOnce v w ∧ Json.reprText v ≠ Json.reprText w := by
  induction h with
  | @here fields hlong =>
      cases hv with
      | obj hkeys _ =>
          rcases fields with _ | ⟨a, _ | ⟨b, rest⟩⟩
          · exact absurd hlong (by simp)
          · exact absurd hlong (by simp)
          · refine ⟨_, ReorderedOnce.members (List.Perm.swap b a rest), ?_⟩
            have hne : a.1 ≠ b.1 := by
              rw [List.map_cons, List.map_cons, List.nodup_cons] at hkeys
              exact fun heq => hkeys.left (heq ▸ List.mem_cons_self)
            intro heq
            rw [reprText_obj, reprText_obj] at heq
            have hjoin := bracketed_inj heq
            rw [List.map_cons, List.map_cons, List.map_cons, List.map_cons, join_cons_cons,
              join_cons_cons] at hjoin
            unfold reprMember at hjoin
            simp only [List.append_assoc] at hjoin
            exact hne (quoted_unique hjoin)
  | item hmem _ ih =>
      cases hv with
      | arr hjson =>
          rcases List.append_of_mem hmem with ⟨front, rest, rfl⟩
          rcases ih (hjson _ hmem) with ⟨w, hw, hne⟩
          refine ⟨_, ReorderedOnce.item hw, ?_⟩
          intro heq
          rw [reprText_arr, reprText_arr, List.map_append, List.map_append, List.map_cons,
            List.map_cons] at heq
          exact hne (join_part_inj (bracketed_inj heq))
  | @member fields field hmem _ ih =>
      cases hv with
      | obj _ hjson =>
          rcases List.append_of_mem hmem with ⟨front, rest, rfl⟩
          rcases ih (hjson _ hmem) with ⟨w, hw, hne⟩
          refine ⟨_, ReorderedOnce.member hw, ?_⟩
          intro heq
          rw [reprText_obj, reprText_obj, List.map_append, List.map_append, List.map_cons,
            List.map_cons] at heq
          exact hne (List.append_cancel_left (join_part_inj (bracketed_inj heq)))

end Repr

end Fingerprint
end ConversationService
