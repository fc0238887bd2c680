import ConversationService.Properties.NormalisedTexts
import ConversationService.Properties.ReorderedObjects

/-!
# Canonical specifications

When a specification has a canonical form, that this form is one of its own kind, and that
of all parts of a specification only an object in its schema version is seen in the order
of its members.
-/

namespace ConversationService
namespace Fingerprint

open Python

/-!
# Normalised values
-/

section Normalise

variable {nfc : Text -> Text} {float : Text -> Text}

mutual
/-- How many arrays and objects stand around the innermost values. -/
def height : Json -> Nat
  | .null => 0
  | .bool _ => 0
  | .int _ => 0
  | .float _ => 0
  | .str _ => 0
  | .arr items => heightItems items
  | .obj fields => heightFields fields

def heightItems : List Json -> Nat
  | [] => 0
  | item :: rest => max (height item + 1) (heightItems rest)

def heightFields : List (Text × Json) -> Nat
  | [] => 0
  | (_, value) :: rest => max (height value + 1) (heightFields rest)
end

theorem normaliseItems_isSome (depth : Nat) (items : List Json) :
    (normaliseItems nfc depth items).isSome = true <->
      forall item, item ∈ items -> (normalise nfc depth item).isSome = true := by
  induction items with
  | nil => simp [normaliseItems]
  | cons item rest ih =>
      rw [List.forall_mem_cons, ← ih, normaliseItems]
      cases normalise nfc depth item with
      | none => simp
      | some w => simp

theorem normaliseFields_isSome (depth : Nat) (fields : List (Text × Json)) :
    (normaliseFields nfc depth fields).isSome = true <->
      forall field, field ∈ fields -> (normalise nfc depth field.2).isSome = true := by
  induction fields with
  | nil => simp [normaliseFields]
  | cons field rest ih =>
      rw [List.forall_mem_cons, ← ih, normaliseFields]
      cases normalise nfc depth field.2 with
      | none => simp
      | some w => simp

theorem heightItems_le (items : List Json) (n : Nat) :
    heightItems items ≤ n <-> forall item, item ∈ items -> height item + 1 ≤ n := by
  induction items with
  | nil => simp [heightItems]
  | cons item rest ih => rw [List.forall_mem_cons, heightItems, max_le_iff, ih]

theorem heightFields_le (fields : List (Text × Json)) (n : Nat) :
    heightFields fields ≤ n <-> forall field, field ∈ fields -> height field.2 + 1 ≤ n := by
  induction fields with
  | nil => simp [heightFields]
  | cons field rest ih => rw [List.forall_mem_cons, heightFields, max_le_iff, ih]

theorem normalise_isSome (depth : Nat) (v : Json) :
    (normalise nfc depth v).isSome = true <-> depth + height v ≤ 12 := by
  have hscalar : forall (depth : Nat) (v w : Json), height v = 0 ->
      ((if 12 < depth then none else some w).isSome = true <-> depth + height v ≤ 12) := by
    intro depth v w hv
    rw [hv]
    split
    · simp
      omega
    · simp
      omega
  induction v using json_induction generalizing depth with
  | null => exact hscalar depth .null .null rfl
  | bool b => exact hscalar depth (.bool b) (.bool b) rfl
  | int n => exact hscalar depth (.int n) (.int n) rfl
  | float repr => exact hscalar depth (.float repr) (.float repr) rfl
  | str s => exact hscalar depth (.str s) (.str (nfc s)) rfl
  | arr items ih =>
      rw [normalise, height]
      split
      · simp
        omega
      · have hiff : depth + heightItems items ≤ 12 <-> heightItems items ≤ 12 - depth := by omega
        rw [Option.isSome_map, normaliseItems_isSome, hiff, heightItems_le]
        refine forall₂_congr (fun item hitem => ?_)
        exact (ih item hitem (depth + 1)).trans (by omega)
  | obj fields ih =>
      rw [normalise, height]
      split
      · simp
        omega
      · have hiff : depth + heightFields fields ≤ 12 <-> heightFields fields ≤ 12 - depth := by
          omega
        rw [Option.isSome_map, normaliseFields_isSome, hiff, heightFields_le]
        refine forall₂_congr (fun field hfield => ?_)
        exact (ih field hfield (depth + 1)).trans (by omega)

theorem normaliseItems_eq_some {depth : Nat} {items items' : List Json}
    (h : normaliseItems nfc depth items = some items') :
    List.Forall₂ (fun item item' => normalise nfc depth item = some item') items items' := by
  induction items generalizing items' with
  | nil =>
      rw [normaliseItems] at h
      rw [← Option.some.inj h]
      exact List.Forall₂.nil
  | cons item rest ih =>
      rw [normaliseItems, Option.bind_eq_some_iff] at h
      rcases h with ⟨item', hitem, h⟩
      rcases Option.map_eq_some_iff.mp h with ⟨rest', hrest, rfl⟩
      exact List.Forall₂.cons hitem (ih hrest)

theorem normaliseFields_eq_some {depth : Nat} {fields fields' : List (Text × Json)}
    (h : normaliseFields nfc depth fields = some fields') :
    List.Forall₂ (fun field field' => field'.1 = field.1 ∧
      normalise nfc depth field.2 = some field'.2) fields fields' := by
  induction fields generalizing fields' with
  | nil =>
      rw [normaliseFields] at h
      rw [← Option.some.inj h]
      exact List.Forall₂.nil
  | cons field rest ih =>
      rw [normaliseFields, Option.bind_eq_some_iff] at h
      rcases h with ⟨value', hvalue, h⟩
      rcases Option.map_eq_some_iff.mp h with ⟨rest', hrest, rfl⟩
      exact List.Forall₂.cons ⟨rfl, hvalue⟩ (ih hrest)

theorem normaliseItems_self {depth : Nat} {items : List Json}
    (h : forall item, item ∈ items -> normalise nfc depth item = some item) :
    normaliseItems nfc depth items = some items := by
  induction items with
  | nil => rfl
  | cons item rest ih =>
      rw [normaliseItems, h item List.mem_cons_self,
        ih (fun i hi => h i (List.mem_cons_of_mem item hi))]
      rfl

theorem normaliseFields_self {depth : Nat} {fields : List (Text × Json)}
    (h : forall field, field ∈ fields -> normalise nfc depth field.2 = some field.2) :
    normaliseFields nfc depth fields = some fields := by
  induction fields with
  | nil => rfl
  | cons field rest ih =>
      rw [normaliseFields, h field List.mem_cons_self,
        ih (fun f hf => h f (List.mem_cons_of_mem field hf))]
      rfl

/-- The dict that stands for an object. -/
def normaliseDict (nfc : Text -> Text) (fields : List (Text × Json)) : List (Text × Json) :=
  dictOf ((sortFields fields).map (fun field => (nfc field.1, field.2)))

theorem mem_of_mem_normaliseDict {fields : List (Text × Json)} {f : Text × Json}
    (h : f ∈ normaliseDict nfc fields) :
    exists field, field ∈ fields ∧ f = (nfc field.1, field.2) := by
  rcases List.mem_map.mp (mem_of_mem_dictOf h) with ⟨field, hfield, rfl⟩
  exact ⟨field, mem_sortFields.mp hfield, rfl⟩

theorem normaliseDict_sorted {fields : List (Text × Json)}
    (hnfc : forall field, field ∈ fields -> nfc field.1 = field.1)
    (hkeys : (fields.map Prod.fst).Nodup) :
    normaliseDict nfc (sortFields fields) = sortFields fields := by
  have hmap : (sortFields fields).map (fun field => (nfc field.1, field.2)) =
      sortFields fields := by
    conv_rhs => rw [← List.map_id (sortFields fields)]
    apply List.map_congr_left
    intro field hfield
    rw [hnfc field (mem_sortFields.mp hfield)]
    rfl
  unfold normaliseDict
  rw [sortFields_sortFields, hmap]
  exact dictOf_eq_self (((sortFields_perm fields).map Prod.fst).nodup_iff.mpr hkeys)

theorem forall_mem_right {α β : Type} {R : α -> β -> Prop} {P : β -> Prop} {as : List α}
    {bs : List β} (h : List.Forall₂ R as bs)
    (hP : forall a b, a ∈ as -> R a b -> P b) : forall b, b ∈ bs -> P b := by
  induction h with
  | nil =>
      intro b hb
      cases hb
  | @cons a b as bs hab _ ih =>
      intro b' hb'
      rcases List.mem_cons.mp hb' with rfl | hb'
      · exact hP a b' List.mem_cons_self hab
      · exact ih (fun a' b'' ha' => hP a' b'' (List.mem_cons_of_mem a ha')) b' hb'

theorem normalise_arr {depth : Nat} {items : List Json} {w : Json}
    (h : normalise nfc depth (.arr items) = some w) :
    ¬12 < depth ∧ exists items', normaliseItems nfc (depth + 1) items = some items' ∧
      w = .arr items' := by
  rw [normalise] at h
  split at h
  · cases h
  · rename_i hdepth
    rcases Option.map_eq_some_iff.mp h with ⟨items', hitems, rfl⟩
    exact ⟨hdepth, items', hitems, rfl⟩

theorem normalise_obj {depth : Nat} {fields : List (Text × Json)} {w : Json}
    (h : normalise nfc depth (.obj fields) = some w) :
    ¬12 < depth ∧ exists fields', normaliseFields nfc (depth + 1) fields = some fields' ∧
      w = .obj (normaliseDict nfc fields') := by
  rw [normalise] at h
  split at h
  · cases h
  · rename_i hdepth
    rcases Option.map_eq_some_iff.mp h with ⟨fields', hfields, rfl⟩
    exact ⟨hdepth, fields', hfields, rfl⟩

theorem normalise_scalar {depth : Nat} {v w : Json}
    (h : (if 12 < depth then none else some v) = some w) : v = w ∧ ¬12 < depth := by
  split at h
  · cases h
  · rename_i hdepth
    exact ⟨Option.some.inj h, hdepth⟩

/-- A normalised value, its members sorted, is its own normal form; by induction on the value. -/
theorem normalise_sortKeys (h : IsNormalisation nfc) {depth : Nat} {v w : Json}
    (hv : normalise nfc depth v = some w) :
    normalise nfc depth (sortKeys w) = some (sortKeys w) := by
  induction v using json_induction generalizing depth w with
  | null =>
      rcases normalise_scalar hv with ⟨rfl, hdepth⟩
      exact if_neg hdepth
  | bool b =>
      rcases normalise_scalar hv with ⟨rfl, hdepth⟩
      exact if_neg hdepth
  | int n =>
      rcases normalise_scalar hv with ⟨rfl, hdepth⟩
      exact if_neg hdepth
  | float repr =>
      rcases normalise_scalar hv with ⟨rfl, hdepth⟩
      exact if_neg hdepth
  | str s =>
      rcases normalise_scalar hv with ⟨rfl, hdepth⟩
      rw [sortKeys, normalise, if_neg hdepth, h.separated.idempotent s]
  | arr items ih =>
      rcases normalise_arr hv with ⟨hdepth, items', hitems, rfl⟩
      have hfixed := forall_mem_right (P := fun item' =>
          normalise nfc (depth + 1) (sortKeys item') = some (sortKeys item'))
        (normaliseItems_eq_some hitems) (fun item item' hmem hitem => ih item hmem hitem)
      rw [sortKeys_arr, normalise, if_neg hdepth, normaliseItems_self]
      · rfl
      · intro item hitem
        rcases List.mem_map.mp hitem with ⟨item', hitem', rfl⟩
        exact hfixed item' hitem'
  | obj fields ih =>
      rcases normalise_obj hv with ⟨hdepth, fields', hfields, rfl⟩
      have hfixed := forall_mem_right (P := fun field' : Text × Json =>
          normalise nfc (depth + 1) (sortKeys field'.2) = some (sortKeys field'.2))
        (normaliseFields_eq_some hfields) (fun field field' hmem hfield => ih field hmem hfield.2)
      have hnfc : forall field : Text × Json,
          field ∈ (normaliseDict nfc fields').map (fun field => (field.1, sortKeys field.2)) ->
          nfc field.1 = field.1 := by
        intro field hfield
        rcases List.mem_map.mp hfield with ⟨f, hf, rfl⟩
        rcases mem_of_mem_normaliseDict hf with ⟨f', _, rfl⟩
        exact h.separated.idempotent f'.1
      have hkeys : (((normaliseDict nfc fields').map
          (fun field => (field.1, sortKeys field.2))).map Prod.fst).Nodup := by
        rw [List.map_map]
        exact dictOf_nodup _
      have hdict := normaliseDict_sorted hnfc hkeys
      rw [sortKeys_obj, ← sortFields_map, normalise, if_neg hdepth, normaliseFields_self]
      · rw [Option.map_some]
        exact congrArg (fun fields => some (Json.obj fields)) hdict
      · intro field hfield
        rcases List.mem_map.mp (mem_sortFields.mp hfield) with ⟨f, hf, rfl⟩
        rcases mem_of_mem_normaliseDict hf with ⟨f', hf', rfl⟩
        exact hfixed f' hf'

theorem isJson_normalise {depth : Nat} {v w : Json} (hv : IsJson float v)
    (hw : normalise nfc depth v = some w) : IsJson float w := by
  induction v using json_induction generalizing depth w with
  | null =>
      rcases normalise_scalar hw with ⟨rfl, _⟩
      exact hv
  | bool b =>
      rcases normalise_scalar hw with ⟨rfl, _⟩
      exact hv
  | int n =>
      rcases normalise_scalar hw with ⟨rfl, _⟩
      exact hv
  | float repr =>
      rcases normalise_scalar hw with ⟨rfl, _⟩
      exact hv
  | str s =>
      rcases normalise_scalar hw with ⟨rfl, _⟩
      exact IsJson.str _
  | arr items ih =>
      rcases normalise_arr hw with ⟨_, items', hitems, rfl⟩
      cases hv with
      | arr hjson =>
          apply IsJson.arr
          exact forall_mem_right (normaliseItems_eq_some hitems)
            (fun item item' hmem hitem => ih item hmem (hjson item hmem) hitem)
  | obj fields ih =>
      rcases normalise_obj hw with ⟨_, fields', hfields, rfl⟩
      cases hv with
      | obj _ hjson =>
          have hvalues := forall_mem_right (P := fun field' : Text × Json => IsJson float field'.2)
            (normaliseFields_eq_some hfields)
            (fun field field' hmem hfield => ih field hmem (hjson field hmem) hfield.2)
          refine IsJson.obj (dictOf_nodup _) ?_
          intro field hfield
          rcases mem_of_mem_normaliseDict hfield with ⟨f, hf, rfl⟩
          exact hvalues f hf

/-!
# Normalised values that have been reordered
-/

theorem normaliseFields_perm (depth : Nat) {fields fields' : List (Text × Json)}
    (h : fields.Perm fields') :
    (normaliseFields nfc depth fields = none ∧ normaliseFields nfc depth fields' = none) ∨
      exists w w', normaliseFields nfc depth fields = some w ∧
        normaliseFields nfc depth fields' = some w' ∧ w.Perm w' := by
  induction h with
  | nil => exact Or.inr ⟨[], [], rfl, rfl, List.Perm.nil⟩
  | cons field _ ih =>
      rw [normaliseFields, normaliseFields]
      cases normalise nfc depth field.2 with
      | none => exact Or.inl ⟨rfl, rfl⟩
      | some value =>
          rcases ih with ⟨hnone, hnone'⟩ | ⟨w, w', hw, hw', hperm⟩
          · rw [hnone, hnone']
            exact Or.inl ⟨rfl, rfl⟩
          · rw [hw, hw']
            exact Or.inr ⟨_, _, rfl, rfl, hperm.cons _⟩
  | swap a b rest =>
      rw [normaliseFields, normaliseFields, normaliseFields, normaliseFields]
      cases normalise nfc depth a.2 with
      | none =>
          cases normalise nfc depth b.2 with
          | none => exact Or.inl ⟨rfl, rfl⟩
          | some value => exact Or.inl ⟨rfl, rfl⟩
      | some value =>
          cases normalise nfc depth b.2 with
          | none => exact Or.inl ⟨rfl, rfl⟩
          | some value' =>
              cases normaliseFields nfc depth rest with
              | none => exact Or.inl ⟨rfl, rfl⟩
              | some w => exact Or.inr ⟨_, _, rfl, rfl, List.Perm.swap _ _ _⟩
  | trans _ _ ih ih' =>
      rcases ih with ⟨hnone, hnone'⟩ | ⟨w, w', hw, hw', hperm⟩
      · rcases ih' with ⟨_, hlast⟩ | ⟨u, _, hu, _, _⟩
        · exact Or.inl ⟨hnone, hlast⟩
        · rw [hnone'] at hu
          cases hu
      · rcases ih' with ⟨hlast, _⟩ | ⟨u, u', hu, hu', hperm'⟩
        · rw [hw'] at hlast
          cases hlast
        · rw [hw'] at hu
          cases hu
          exact Or.inr ⟨w, u', hw, hu', hperm.trans hperm'⟩

theorem normaliseFields_keys {depth : Nat} {fields fields' : List (Text × Json)}
    (h : normaliseFields nfc depth fields = some fields') :
    fields'.map Prod.fst = fields.map Prod.fst := by
  have hall := normaliseFields_eq_some h
  clear h
  induction hall with
  | nil => rfl
  | cons hfield _ ih => rw [List.map_cons, List.map_cons, hfield.left, ih]

theorem normaliseItems_item {depth : Nat} {v w : Json}
    (h : normalise nfc depth v = normalise nfc depth w) (front rest : List Json) :
    normaliseItems nfc depth (front ++ v :: rest) =
      normaliseItems nfc depth (front ++ w :: rest) := by
  induction front with
  | nil => rw [List.nil_append, List.nil_append, normaliseItems, normaliseItems, h]
  | cons item front ih =>
      rw [List.cons_append, List.cons_append, normaliseItems, normaliseItems, ih]

theorem normaliseFields_member {depth : Nat} {v w : Json}
    (h : normalise nfc depth v = normalise nfc depth w) (key : Text)
    (front rest : List (Text × Json)) :
    normaliseFields nfc depth (front ++ (key, v) :: rest) =
      normaliseFields nfc depth (front ++ (key, w) :: rest) := by
  induction front with
  | nil => rw [List.nil_append, List.nil_append, normaliseFields, normaliseFields, h]
  | cons field front ih =>
      rw [List.cons_append, List.cons_append, normaliseFields, normaliseFields, ih]

/-- The order of members is lost; by induction on where they are. -/
theorem normalise_reorderedOnce {v w : Json} (h : ReorderedOnce v w) (hv : IsJson float v)
    (depth : Nat) : normalise nfc depth v = normalise nfc depth w := by
  induction h generalizing depth with
  | @members fields fields' hperm =>
      cases hv with
      | obj hkeys _ =>
          rw [normalise, normalise]
          rcases @normaliseFields_perm nfc (depth + 1) _ _ hperm with
            ⟨hnone, hnone'⟩ | ⟨w, w', hw, hw', hsame⟩
          · rw [hnone, hnone']
          · have hsorted := sortFields_eq_of_perm hsame (by
              rw [normaliseFields_keys hw]
              exact hkeys)
            rw [hw, hw', Option.map_some, Option.map_some, hsorted]
  | @item front rest v w _ ih =>
      cases hv with
      | arr hjson =>
          have hvalue := ih (hjson v (List.mem_append_right _ List.mem_cons_self)) (depth + 1)
          rw [normalise, normalise, normaliseItems_item hvalue]
  | @member front rest key v w _ ih =>
      cases hv with
      | obj _ hjson =>
          have hvalue := ih (hjson (key, v) (List.mem_append_right _ List.mem_cons_self))
            (depth + 1)
          rw [normalise, normalise, normaliseFields_member hvalue]

end Normalise

/-!
# Parts of a specification
-/

def schemaVersion (fields : List (Text × Json)) : Json :=
  Json.getD fields (text "schema_version") (.str specVersion)

/-- A specification that has a canonical form, if its length is within the limit. -/
structure IsAcceptable (fields : List (Text × Json)) : Prop where
  keys : forall field, field ∈ fields -> field.1 ∈ allowedKeys
  template : exists s, Json.get fields (text "template") = .str s ∧ strip s ≠ []
  params : exists params, Json.getD fields (text "params") (.obj []) = .obj params ∧
    height (.obj params) ≤ 12
  title : exists s, Json.getD fields (text "title") (.str []) = .str s

/-- The template, the normalised parameters and the title. -/
def specParts (nfc : Text -> Text) (fields : List (Text × Json)) :
    Option (Text × Json × Text) :=
  if fields.all (fun field => allowedKeys.contains field.1) then
    (template? fields).bind (fun template =>
      ((params? fields).bind (normalise nfc 0)).bind (fun params =>
        (title? fields).map (fun title => (template, params, title))))
  else none

section Specs

variable {nfc : Text -> Text} {float : Text -> Text}

theorem canonicalSpec_eq (fields : List (Text × Json)) :
    canonicalSpec nfc (.obj fields) = (specParts nfc fields).map (fun parts =>
      canonicalFields nfc fields parts.1 parts.2.2 parts.2.1) := by
  unfold canonicalSpec specParts
  dsimp only
  split
  · cases template? fields with
    | none => rfl
    | some template =>
        cases params? fields with
        | none => rfl
        | some params =>
            cases title? fields with
            | none =>
                cases hparams : normalise nfc 0 params with
                | none => simp [hparams]
                | some _ => simp [hparams]
            | some title =>
                cases hparams : normalise nfc 0 params with
                | none => simp [hparams]
                | some _ => simp [hparams]
  · rfl

theorem template?_isSome (fields : List (Text × Json)) :
    (template? fields).isSome = true <->
      exists s, Json.get fields (text "template") = .str s ∧ strip s ≠ [] := by
  unfold template?
  cases Json.get fields (text "template") with
  | str s => simp
  | null => simp
  | bool _ => simp
  | int _ => simp
  | float _ => simp
  | arr _ => simp
  | obj _ => simp

theorem title?_isSome (fields : List (Text × Json)) :
    (title? fields).isSome = true <->
      exists s, Json.getD fields (text "title") (.str []) = .str s := by
  unfold title?
  cases Json.getD fields (text "title") (.str []) with
  | str s => simp
  | null => simp
  | bool _ => simp
  | int _ => simp
  | float _ => simp
  | arr _ => simp
  | obj _ => simp

theorem params?_isSome (fields : List (Text × Json)) :
    ((params? fields).bind (normalise nfc 0)).isSome = true <->
      exists params, Json.getD fields (text "params") (.obj []) = .obj params ∧
        height (.obj params) ≤ 12 := by
  unfold params?
  cases Json.getD fields (text "params") (.obj []) with
  | obj params => simp [normalise_isSome]
  | null => simp
  | bool _ => simp
  | int _ => simp
  | float _ => simp
  | arr _ => simp
  | str _ => simp

theorem specParts_isSome (fields : List (Text × Json)) :
    (specParts nfc fields).isSome = true <-> IsAcceptable fields := by
  have hkeys : fields.all (fun field => allowedKeys.contains field.1) = true <->
      forall field, field ∈ fields -> field.1 ∈ allowedKeys := by
    simp [List.all_eq_true]
  have hsome : forall (a : Option Text) (b : Option Json) (c : Option Text),
      (a.bind (fun template => b.bind (fun params => c.map (fun title =>
        (template, params, title))))).isSome = true <->
      a.isSome = true ∧ b.isSome = true ∧ c.isSome = true := by
    rintro (_ | a) (_ | b) (_ | c)
    all_goals simp
  unfold specParts
  constructor
  · intro h
    split at h
    · rename_i hall
      rcases (hsome _ _ _).mp h with ⟨htemplate, hparams, htitle⟩
      exact ⟨hkeys.mp hall, (template?_isSome fields).mp htemplate,
        (params?_isSome fields).mp hparams, (title?_isSome fields).mp htitle⟩
    · cases h
  · intro h
    rw [if_pos (hkeys.mpr h.keys)]
    exact (hsome _ _ _).mpr ⟨(template?_isSome fields).mpr h.template,
      (params?_isSome fields).mpr h.params, (title?_isSome fields).mpr h.title⟩

/-!
# Reordered specifications
-/

theorem containers_of_reorderedOnce {v w : Json} (h : ReorderedOnce v w) :
    (exists items items', v = .arr items ∧ w = .arr items') ∨
      exists fields fields', v = .obj fields ∧ w = .obj fields' := by
  cases h with
  | members _ => exact Or.inr ⟨_, _, rfl, rfl⟩
  | item _ => exact Or.inl ⟨_, _, rfl, rfl⟩
  | member _ => exact Or.inr ⟨_, _, rfl, rfl⟩

theorem isJson_getD {fields : List (Text × Json)} (h : IsJson float (.obj fields)) (key : Text)
    {default : Json} (hdefault : IsJson float default) :
    IsJson float (Json.getD fields key default) := by
  cases h with
  | obj _ hjson =>
      unfold Json.getD
      cases hvalue : fields.lookup key with
      | none => exact hdefault
      | some value =>
          rcases List.lookup_eq_some_iff.mp hvalue with ⟨front, rest, rfl, _⟩
          exact hjson (key, value) (List.mem_append_right _ List.mem_cons_self)

theorem specParts_reorderedOnce {fields fields' : List (Text × Json)}
    (h : ReorderedOnce (.obj fields) (.obj fields')) (hjson : IsJson float (.obj fields)) :
    specParts nfc fields = specParts nfc fields' := by
  have hkeys : (fields.map Prod.fst).Nodup := by
    cases hjson with
    | obj hkeys _ => exact hkeys
  have hall : fields.all (fun field => allowedKeys.contains field.1) =
      fields'.all (fun field => allowedKeys.contains field.1) := by
    have hsame := (keys_reorderedOnce h).all_eq (f := fun key => allowedKeys.contains key)
    rw [List.all_map, List.all_map] at hsame
    exact hsame
  have htemplate : template? fields = template? fields' := by
    have hget := getD_reorderedOnce h hkeys (text "template") .null
    change Json.get fields (text "template") = Json.get fields' (text "template") ∨
      ReorderedOnce (Json.get fields (text "template")) (Json.get fields' (text "template"))
      at hget
    unfold template?
    rcases hget with heq | hvalue
    · rw [heq]
    · rcases containers_of_reorderedOnce hvalue with ⟨_, _, heq, heq'⟩ | ⟨_, _, heq, heq'⟩
      · rw [heq, heq']
      · rw [heq, heq']
  have htitle : title? fields = title? fields' := by
    unfold title?
    rcases getD_reorderedOnce h hkeys (text "title") (.str []) with heq | hvalue
    · rw [heq]
    · rcases containers_of_reorderedOnce hvalue with ⟨_, _, heq, heq'⟩ | ⟨_, _, heq, heq'⟩
      · rw [heq, heq']
      · rw [heq, heq']
  have hparams : (params? fields).bind (normalise nfc 0) =
      (params? fields').bind (normalise nfc 0) := by
    have hempty : IsJson float (.obj []) :=
      IsJson.obj List.nodup_nil (fun field hfield => by cases hfield)
    have hvalid := isJson_getD hjson (text "params") hempty
    unfold params?
    rcases getD_reorderedOnce h hkeys (text "params") (.obj []) with heq | hvalue
    · rw [heq]
    · have hsame := @normalise_reorderedOnce nfc float _ _ hvalue hvalid 0
      rcases containers_of_reorderedOnce hvalue with ⟨_, _, heq, heq'⟩ | ⟨_, _, heq, heq'⟩
      · rw [heq, heq']
      · rw [heq, heq'] at hsame ⊢
        exact hsame
  unfold specParts
  rw [hall, htemplate, hparams, htitle]

theorem specParts_reordered {fields : List (Text × Json)} {w : Json}
    (h : Reordered (.obj fields) w) (hjson : IsJson float (.obj fields)) :
    exists fields', w = .obj fields' ∧ IsJson float (.obj fields') ∧
      specParts nfc fields' = specParts nfc fields ∧
      (¬HasOrder (schemaVersion fields) -> schemaVersion fields' = schemaVersion fields) := by
  induction h with
  | refl => exact ⟨fields, rfl, hjson, rfl, fun _ => rfl⟩
  | tail _ hstep ih =>
      rcases ih with ⟨middle, rfl, hmiddle, hparts, hschema⟩
      have hnext := isJson_reorderedOnce hstep hmiddle
      rcases containers_of_reorderedOnce hstep with ⟨_, _, heq, _⟩ | ⟨_, fields', heq, rfl⟩
      · cases heq
      · cases heq
        refine ⟨fields', rfl, hnext, ?_, ?_⟩
        · rw [← specParts_reorderedOnce hstep hmiddle, hparts]
        · intro hplain
          have hsame := hschema hplain
          have hkeys : (middle.map Prod.fst).Nodup := by
            cases hmiddle with
            | obj hkeys _ => exact hkeys
          rcases getD_reorderedOnce hstep hkeys (text "schema_version") (.str specVersion) with
            heq | hvalue
          · exact heq.symm.trans hsame
          · rw [← hsame] at hplain
            exact (eq_of_reorderedOnce hvalue hplain).symm.trans hsame

theorem canonicalFields_congr {fields fields' : List (Text × Json)}
    (h : schemaVersion fields = schemaVersion fields') (template title : Text) (params : Json) :
    canonicalFields nfc fields template title params =
      canonicalFields nfc fields' template title params := by
  unfold schemaVersion at h
  unfold canonicalFields
  rw [h]

/-- The canonical form does not depend on an order that the schema version does not show. -/
theorem canonicalSpec_reordered {fields : List (Text × Json)} {w : Json}
    (h : Reordered (.obj fields) w) (hjson : IsJson float (.obj fields))
    (hplain : ¬(IsAcceptable fields ∧ HasOrder (schemaVersion fields))) :
    canonicalSpec nfc (.obj fields) = canonicalSpec nfc w := by
  rcases @specParts_reordered nfc float _ _ h hjson with ⟨fields', rfl, _, hparts, hschema⟩
  rw [canonicalSpec_eq, canonicalSpec_eq, hparts]
  cases hsome : specParts nfc fields with
  | none => rfl
  | some parts =>
      have hacceptable : IsAcceptable fields := by
        rw [← @specParts_isSome nfc, hsome]
        rfl
      have hversion := hschema (fun horder => hplain ⟨hacceptable, horder⟩)
      rw [Option.map_some, Option.map_some, canonicalFields_congr hversion]

end Specs

end Fingerprint
end ConversationService
