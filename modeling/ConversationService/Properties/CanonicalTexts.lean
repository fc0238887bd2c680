import ConversationService.Properties.CanonicalSpecs

/-!
# Canonical texts of specifications

The text of a canonical form gives this form back, is canonical itself, and is the same
under every limit that it keeps. It is the same for a specification in another order unless
the schema version shows the order.
-/

namespace ConversationService
namespace Fingerprint

open Python

section Texts

variable {nfc : Text -> Text} {float : Text -> Text}

/-- The members of a canonical form in the order in which they are written. -/
def sortedFields (version template title : Text) (params : Json) : List (Text × Json) :=
  [(text "params", params), (text "schema_version", .str version),
    (text "template", .str template), (text "title", .str title)]

theorem sortKeys_canonicalFields (fields : List (Text × Json)) (template title : Text)
    (params : Json) :
    sortKeys (canonicalFields nfc fields template title params) =
      .obj (sortedFields (Json.pyStr (schemaVersion fields)) (strip template)
        (collapse (nfc title)) (sortKeys params)) := by
  have hperm : List.Perm
      [(text "schema_version", Json.str (Json.pyStr (schemaVersion fields))),
        (text "template", Json.str (strip template)),
        (text "title", Json.str (collapse (nfc title))), (text "params", sortKeys params)]
      (sortedFields (Json.pyStr (schemaVersion fields)) (strip template) (collapse (nfc title))
        (sortKeys params)) := @List.perm_append_comm _ [_, _, _] [_]
  have hkeys : (allowedKeys.Nodup) := by decide
  have hsorted : (sortedFields (Json.pyStr (schemaVersion fields)) (strip template)
      (collapse (nfc title)) (sortKeys params)).Pairwise (fun a b => a.1 ≤ b.1) := by
    have horder : [text "params", text "schema_version", text "template", text "title"].Pairwise
        (fun a b => a ≤ b) := by decide
    exact List.pairwise_map.mp horder
  unfold canonicalFields
  rw [sortKeys, sortKeysFields_eq]
  exact congrArg Json.obj ((sortFields_eq_of_perm hperm hkeys).trans (sortFields_eq_self hsorted))

theorem parts_of_canonicalSpec {fields : List (Text × Json)} {canonical : Json}
    (h : canonicalSpec nfc (.obj fields) = some canonical) :
    exists template title params params', template? fields = some template ∧
      title? fields = some title ∧ params? fields = some params ∧
      normalise nfc 0 params = some params' ∧
      canonical = canonicalFields nfc fields template title params' := by
  unfold canonicalSpec at h
  dsimp only at h
  split at h
  · rcases Option.bind_eq_some_iff.mp h with ⟨template, htemplate, h⟩
    rcases Option.bind_eq_some_iff.mp h with ⟨params, hparams, h⟩
    rcases Option.bind_eq_some_iff.mp h with ⟨title, htitle, h⟩
    rcases Option.map_eq_some_iff.mp h with ⟨params', hnormal, rfl⟩
    exact ⟨template, title, params, params', htemplate, htitle, hparams, hnormal, rfl⟩
  · cases h

theorem template?_strip {fields : List (Text × Json)} {template : Text}
    (h : template? fields = some template) : strip template ≠ [] := by
  unfold template? at h
  split at h
  · split at h
    · cases h
    · rename_i hne
      cases Option.some.inj h
      rw [List.isEmpty_iff] at hne
      exact hne
  · cases h

theorem params?_obj {fields : List (Text × Json)} {params : Json}
    (h : params? fields = some params) : exists members, params = .obj members := by
  unfold params? at h
  split at h
  · exact ⟨_, (Option.some.inj h).symm⟩
  · cases h

theorem isJson_params? {fields : List (Text × Json)} {params : Json}
    (hjson : IsJson float (.obj fields)) (h : params? fields = some params) :
    IsJson float params := by
  have hempty : IsJson float (.obj []) :=
    IsJson.obj List.nodup_nil (fun field hfield => by cases hfield)
  have hvalid := isJson_getD hjson (text "params") hempty
  unfold params? at h
  split at h
  · rename_i members heq
    rw [heq] at hvalid
    rw [← Option.some.inj h]
    exact hvalid
  · cases h

theorem isJson_canonicalFields {fields : List (Text × Json)} {template title : Text}
    {params : Json} (h : IsJson float params) :
    IsJson float (canonicalFields nfc fields template title params) := by
  unfold canonicalFields
  refine IsJson.obj (by exact (by decide : allowedKeys.Nodup)) ?_
  intro field hfield
  simp only [List.mem_cons, List.not_mem_nil, or_false] at hfield
  rcases hfield with rfl | rfl | rfl | rfl
  · exact IsJson.str _
  · exact IsJson.str _
  · exact IsJson.str _
  · exact h

theorem loads_canonicalSpec {fields : List (Text × Json)} {canonical : Json}
    (hjson : IsJson float (.obj fields))
    (h : canonicalSpec nfc (.obj fields) = some canonical) :
    loads float (dumps canonical) = some (sortKeys canonical) := by
  rcases parts_of_canonicalSpec h with ⟨template, title, params, params', _, _, hparams, hnormal, rfl⟩
  exact loads_dumps (isJson_canonicalFields
    (isJson_normalise (isJson_params? hjson hparams) hnormal))

theorem canonicalSpec_sortedFields {version template title : Text} {params params' : Json}
    (htemplate : strip template ≠ []) (hparams : exists members, params = .obj members)
    (hnormal : normalise nfc 0 params = some params') :
    canonicalSpec nfc (.obj (sortedFields version template title params)) =
      some (canonicalFields nfc (sortedFields version template title params) template title
        params') := by
  rcases hparams with ⟨members, rfl⟩
  have hall : (sortedFields version template title (.obj members)).all
      (fun field => allowedKeys.contains field.1) = true := by
    have hkeys : [text "params", text "schema_version", text "template", text "title"].all
        (fun key => allowedKeys.contains key) = true := by decide
    exact hkeys
  have htext : template? (sortedFields version template title (.obj members)) =
      some template := by
    have hget : Json.get (sortedFields version template title (.obj members)) (text "template") =
        .str template := rfl
    unfold template?
    rw [hget]
    exact if_neg (by rw [List.isEmpty_iff]; exact htemplate)
  have hobject : params? (sortedFields version template title (.obj members)) =
      some (.obj members) := rfl
  have htitle : title? (sortedFields version template title (.obj members)) = some title := rfl
  unfold canonicalSpec
  dsimp only
  rw [if_pos hall, htext, hobject, htitle, Option.bind_some, Option.bind_some, Option.bind_some,
    hnormal]
  rfl

theorem canonicalSpec_sortKeys (hnfc : IsNormalisation nfc) {fields : List (Text × Json)}
    {canonical : Json} (h : canonicalSpec nfc (.obj fields) = some canonical) :
    exists again, canonicalSpec nfc (sortKeys canonical) = some again ∧
      dumps again = dumps canonical := by
  rcases parts_of_canonicalSpec h with
    ⟨template, title, params, params', htemplate, _, hparams, hnormal, rfl⟩
  have hblank : strip (strip template) ≠ [] := by
    rw [strip_strip]
    exact template?_strip htemplate
  have hobject : exists members, sortKeys params' = .obj members := by
    rcases params?_obj hparams with ⟨members, rfl⟩
    rcases normalise_obj hnormal with ⟨_, fields', _, rfl⟩
    exact ⟨_, sortKeys_obj _⟩
  rw [sortKeys_canonicalFields]
  refine ⟨_, canonicalSpec_sortedFields hblank hobject (normalise_sortKeys hnfc hnormal), ?_⟩
  have hversion : forall version template title : Text, forall params : Json,
      Json.pyStr (schemaVersion (sortedFields version template title params)) = version :=
    fun _ _ _ _ => rfl
  rw [← dumps_sortKeys, sortKeys_canonicalFields, hversion, strip_strip,
    collapse_normalised hnfc, sortKeys_sortKeys, ← sortKeys_canonicalFields, dumps_sortKeys]

theorem schemaVersion_of_dumps {fields fields' : List (Text × Json)} {canonical canonical' : Json}
    (hjson : IsJson float (.obj fields)) (hjson' : IsJson float (.obj fields'))
    (h : canonicalSpec nfc (.obj fields) = some canonical)
    (h' : canonicalSpec nfc (.obj fields') = some canonical')
    (heq : dumps canonical = dumps canonical') :
    Json.pyStr (schemaVersion fields) = Json.pyStr (schemaVersion fields') := by
  have hread := loads_canonicalSpec hjson h
  rw [heq, loads_canonicalSpec hjson' h'] at hread
  have hsame := Option.some.inj hread
  rcases parts_of_canonicalSpec h with ⟨_, _, _, _, _, _, _, _, rfl⟩
  rcases parts_of_canonicalSpec h' with ⟨_, _, _, _, _, _, _, _, rfl⟩
  rw [sortKeys_canonicalFields, sortKeys_canonicalFields] at hsame
  have hfields := (List.cons.inj (Json.obj.inj hsame)).right
  have hfield := (List.cons.inj hfields).left
  exact (Json.str.inj (congrArg Prod.snd hfield)).symm

theorem canonicalManimSpec_eq_some {spec : Json} {maxChars : Nat} {t : Text} :
    canonicalManimSpec nfc spec maxChars = some t <->
      exists canonical, canonicalSpec nfc spec = some canonical ∧ dumps canonical = t ∧
        t.length ≤ maxChars := by
  unfold canonicalManimSpec
  rw [Option.bind_eq_some_iff]
  constructor
  · rintro ⟨canonical, hspec, h⟩
    split at h
    · cases h
    · rename_i hlimit
      cases Option.some.inj h
      exact ⟨canonical, hspec, rfl, Nat.le_of_not_lt hlimit⟩
  · rintro ⟨canonical, hspec, rfl, hlimit⟩
    exact ⟨canonical, hspec, if_neg (Nat.not_lt_of_le hlimit)⟩

theorem canonicalManimSpec_limits {spec : Json} {maxChars maxChars' : Nat} {t t' : Text}
    (h : canonicalManimSpec nfc spec maxChars = some t)
    (h' : canonicalManimSpec nfc spec maxChars' = some t') : t = t' := by
  rcases canonicalManimSpec_eq_some.mp h with ⟨canonical, hspec, rfl, _⟩
  rcases canonicalManimSpec_eq_some.mp h' with ⟨canonical', hspec', rfl, _⟩
  rw [hspec] at hspec'
  rw [Option.some.inj hspec']

theorem canonicalManimSpec_loads (hnfc : IsNormalisation nfc) {fields : List (Text × Json)}
    (hjson : IsJson float (.obj fields)) {maxChars : Nat} {t : Text}
    (h : canonicalManimSpec nfc (.obj fields) maxChars = some t) :
    exists spec, loads float t = some spec ∧ canonicalManimSpec nfc spec maxChars = some t := by
  rcases canonicalManimSpec_eq_some.mp h with ⟨canonical, hspec, rfl, hlimit⟩
  rcases canonicalSpec_sortKeys hnfc hspec with ⟨again, hagain, htext⟩
  refine ⟨sortKeys canonical, loads_canonicalSpec hjson hspec, ?_⟩
  exact canonicalManimSpec_eq_some.mpr ⟨again, hagain, htext, hlimit⟩

/-- The canonical text is the same for every order of members, at any depth. -/
def IsOrderFree (nfc : Text -> Text) (spec : Json) : Prop :=
  forall other maxChars, Reordered spec other ->
    canonicalManimSpec nfc spec maxChars = canonicalManimSpec nfc other maxChars

theorem exists_reordered_schemaVersion {fields : List (Text × Json)}
    (hjson : IsJson float (.obj fields)) (horder : HasOrder (schemaVersion fields)) :
    exists fields', ReorderedOnce (.obj fields) (.obj fields') ∧
      Json.pyStr (schemaVersion fields) ≠ Json.pyStr (schemaVersion fields') := by
  have hdefault : IsJson float (.str specVersion) := IsJson.str _
  rcases exists_reprText_ne horder (isJson_getD hjson _ hdefault) with ⟨w, hw, hne⟩
  cases hvalue : fields.lookup (text "schema_version") with
  | none =>
      unfold schemaVersion Json.getD at horder
      rw [hvalue] at horder
      cases horder
  | some v =>
      have hv : schemaVersion fields = v := by
        unfold schemaVersion Json.getD
        rw [hvalue]
      rcases List.lookup_eq_some_iff.mp hvalue with ⟨front, rest, rfl, hfront⟩
      rw [hv] at hw hne
      have hw' : schemaVersion (front ++ (text "schema_version", w) :: rest) = w := by
        unfold schemaVersion Json.getD
        rw [List.lookup_append, List.lookup_eq_none_iff.mpr hfront, List.lookup_cons_self]
        rfl
      refine ⟨_, ReorderedOnce.member hw, ?_⟩
      rw [hv, hw']
      rcases containers_of_reorderedOnce hw with ⟨_, _, rfl, rfl⟩ | ⟨_, _, rfl, rfl⟩
      · exact hne
      · exact hne

/-- An object in the schema version shows its order in the canonical text. -/
theorem not_isOrderFree {fields : List (Text × Json)} (hjson : IsJson float (.obj fields))
    (hacceptable : IsAcceptable fields) (horder : HasOrder (schemaVersion fields)) :
    ¬IsOrderFree nfc (.obj fields) := by
  rcases exists_reordered_schemaVersion hjson horder with ⟨fields', hstep, hne⟩
  have hjson' := isJson_reorderedOnce hstep hjson
  have hsome := (@specParts_isSome nfc fields).mpr hacceptable
  have hsome' := hsome
  rw [specParts_reorderedOnce hstep hjson] at hsome'
  rcases Option.isSome_iff_exists.mp hsome with ⟨parts, hparts⟩
  rcases Option.isSome_iff_exists.mp hsome' with ⟨parts', hparts'⟩
  have hspec := @canonicalSpec_eq nfc fields
  have hspec' := @canonicalSpec_eq nfc fields'
  rw [hparts, Option.map_some] at hspec
  rw [hparts', Option.map_some] at hspec'
  intro hfree
  have htext := (@canonicalManimSpec_eq_some nfc _ (dumps _).length _).mpr
    ⟨_, hspec, rfl, Nat.le_refl _⟩
  rw [hfree _ _ (Relation.ReflTransGen.single hstep)] at htext
  rcases canonicalManimSpec_eq_some.mp htext with ⟨canonical, hcanonical, hdumps, _⟩
  exact hne (schemaVersion_of_dumps hjson hjson' hspec hcanonical hdumps.symm)

/-- The canonical text shows an order exactly if an acceptable schema version has one. -/
theorem isOrderFree_iff {fields : List (Text × Json)} (hjson : IsJson float (.obj fields)) :
    IsOrderFree nfc (.obj fields) <->
      ¬(IsAcceptable fields ∧ HasOrder (schemaVersion fields)) := by
  constructor
  · rintro hfree ⟨hacceptable, horder⟩
    exact not_isOrderFree hjson hacceptable horder hfree
  · intro hplain other maxChars h
    unfold canonicalManimSpec
    rw [canonicalSpec_reordered h hjson hplain]

end Texts

end Fingerprint
end ConversationService
