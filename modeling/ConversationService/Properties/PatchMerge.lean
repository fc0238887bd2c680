import ConversationService.Properties.PreferenceDocuments

/-!
# Accepted patches

A PATCH body that `PreferencesUpdate` accepts, merged into what a stored row is read as. The
fields with a member or a language refuse the null that the body may have there; a text that
cannot be encoded is accepted, but no column can hold it.
-/

namespace ConversationService
namespace Preferences

open Python Programs

/-- A body that passes the validators. -/
structure AcceptedPatch where
  body : PatchBody
  patch : SentFields
  accepted : acceptPatch body = some patch

/-- A row as the table has it; its values may be invalid ones. -/
structure StoredRow extends TableRow where
  positive : 1 ≤ version
  storable : PgText personalInstructions

/-!
# What acceptance says of each field
-/

theorem sentField_eq {alpha beta : Type} {validate : alpha -> Option beta} {sent : Option alpha}
    {value : Option beta} (h : sentField validate sent = some value) :
    (sent = none ∧ value = none) ∨
      exists v w, sent = some v ∧ validate v = some w ∧ value = some w := by
  cases sent with
  | none =>
      cases h
      exact Or.inl ⟨rfl, rfl⟩
  | some v =>
      rcases Option.map_eq_some_iff.mp h with ⟨w, hw, rfl⟩
      exact Or.inr ⟨v, w, rfl, hw, rfl⟩

structure Accepts (body : PatchBody) (patch : SentFields) : Prop where
  defaultMode :
    sentField (fun v => (cleanMode v).map (fun cleaned => cleaned.getD [])) body.defaultMode =
      some patch.defaultMode
  defaultTools :
    sentField (fun v => cleanTools (v.map (fun tools => tools.map some))) body.defaultTools =
      some patch.defaultTools
  answerLength :
    sentField (nullOr AnswerLength.ofValue) body.answerLength = some patch.answerLength
  tone : sentField (nullOr Tone.ofValue) body.tone = some patch.tone
  language :
    sentField (nullOr (fun v => validLanguage (some v))) body.language = some patch.language
  personalInstructions :
    sentField cleanInstructions body.personalInstructions = some patch.personalInstructions
  citations : sentField (nullOr CitationPreference.ofValue) body.citations = some patch.citations
  documentContext :
    sentField (nullOr DocumentContext.ofValue) body.documentContext = some patch.documentContext
  version : patch.version = body.version

theorem accepts_of_acceptPatch {body : PatchBody} {patch : SentFields}
    (h : acceptPatch body = some patch) : Accepts body patch := by
  simp only [acceptPatch, Option.bind_eq_bind, Option.bind_eq_some_iff] at h
  rcases h with ⟨_, h1, _, h2, _, h3, _, h4, _, h5, _, h6, _, h7, _, h8, hpatch⟩
  cases hpatch
  exact ⟨h1, h2, h3, h4, h5, h6, h7, h8, rfl⟩

theorem AcceptedPatch.accepts (p : AcceptedPatch) : Accepts p.body p.patch :=
  accepts_of_acceptPatch p.accepted

theorem Accepts.cleanMode_sent {body : PatchBody} {patch : SentFields} (h : Accepts body patch)
    {m : Text} (hm : patch.defaultMode = some m) :
    exists v, body.defaultMode = some v ∧ cleanMode v = some (if m = [] then none else some m) := by
  rcases sentField_eq h.defaultMode with ⟨_, hnone⟩ | ⟨v, w, hv, hw, hvalue⟩
  · rw [hm] at hnone
    cases hnone
  · rw [hm] at hvalue
    cases hvalue
    rcases Option.map_eq_some_iff.mp hw with ⟨cleaned, hcleaned, hw⟩
    refine ⟨v, hv, ?_⟩
    rw [hcleaned]
    cases cleaned with
    | none =>
        subst hw
        rfl
    | some c =>
        subst hw
        cases v with
        | none => cases hcleaned
        | some v =>
            have hne := (cleanMode_some hcleaned).right.left
            rw [Option.getD_some, if_neg hne]

def AcceptedPatch.update (p : AcceptedPatch) : PreferencesUpdate where
  version := p.patch.version
  defaultMode := p.patch.changes.defaultMode
  defaultTools := p.patch.defaultTools
  answerLength := p.patch.answerLength
  tone := p.patch.tone
  language := p.patch.language
  personalInstructions := p.patch.personalInstructions
  citations := p.patch.citations
  documentContext := p.patch.documentContext
  clean := by
    intro mode hmode
    rcases Option.map_eq_some_iff.mp hmode with ⟨m, hm, hsent⟩
    rcases p.accepts.cleanMode_sent hm with ⟨v, _, hclean⟩
    rw [hsent] at hclean
    exact isCleanMode_of_cleanMode (cleanMode_cleanMode hclean)

/-!
# The merge
-/

theorem validField_merged_member {alpha : Type} {ofValue : Text -> Option alpha}
    {default : alpha} (sent : Option (Option alpha)) (old : alpha) :
    validField (validMember ofValue) default
        ((sent.map memberOrNull).or (some (.member old))) = requiredField sent old := by
  cases sent with
  | none => rfl
  | some v => cases v <;> rfl

theorem validField_merged_language {patch : SentFields} {body : PatchBody}
    (h : Accepts body patch) {old default : Text} (hold : validLanguage (some old) = some old) :
    validField validLanguage default (patch.language.or (some (some old))) =
      requiredField patch.language old := by
  rcases sentField_eq h.language with ⟨_, hnone⟩ | ⟨v, w, _, hw, hvalue⟩
  · rw [hnone]
    exact hold
  · rw [hvalue]
    cases w with
    | none => rfl
    | some w =>
        cases v with
        | none => cases hw
        | some v =>
            rcases Option.map_eq_some_iff.mp hw with ⟨w', hw', heq⟩
            cases heq
            rcases validLanguage_eq_some hw' with ⟨hv, _⟩
            cases hv
            exact hw'

theorem validField_merged_mode {patch : SentFields} {body : PatchBody} (h : Accepts body patch)
    {old : Option Text} (hold : cleanMode old = some old) :
    validField cleanMode none (patch.changes.defaultMode.or (some old)) =
      some (patch.changes.defaultMode.getD old) := by
  cases hm : patch.defaultMode with
  | none =>
      simp only [SentFields.changes, hm]
      exact hold
  | some m =>
      rcases h.cleanMode_sent hm with ⟨v, _, hclean⟩
      simp only [SentFields.changes, hm]
      exact cleanMode_cleanMode hclean

theorem validField_merged_tools {patch : SentFields} {body : PatchBody} (h : Accepts body patch)
    {old : List Text} (hold : validTools (some (old.map some)) = some old) :
    validField validTools [] (patch.changes.defaultTools.or (some (some (old.map some)))) =
      some (nullableField [] patch.defaultTools old) := by
  rcases sentField_eq h.defaultTools with ⟨_, hnone⟩ | ⟨v, w, _, hw, hvalue⟩
  · simp only [SentFields.changes, hnone]
    exact hold
  · simp only [SentFields.changes, hvalue]
    cases w with
    | none => rfl
    | some tools =>
        cases v with
        | none => cases hw
        | some raws =>
            exact validTools_validTools (v := some (raws.map some)) (by
              unfold validTools
              rw [show cleanTools (some (raws.map some)) = some (some tools) from hw]
              rfl)

theorem validField_merged_instructions {patch : SentFields} {body : PatchBody}
    (h : Accepts body patch) {old : Text} (hold : validInstructions (some old) = some old) :
    validField validInstructions [] (patch.personalInstructions.or (some (some old))) =
      some (nullableField [] patch.personalInstructions old) := by
  rcases sentField_eq h.personalInstructions with ⟨_, hnone⟩ | ⟨v, w, _, hw, hvalue⟩
  · rw [hnone]
    exact hold
  · rw [hvalue]
    cases w with
    | none => rfl
    | some w =>
        exact validInstructions_validInstructions (v := v) (by
          unfold validInstructions
          rw [hw]
          rfl)

theorem mergePatch_eq (p : AcceptedPatch) {prefs : UserPreferences} (hvalid : ValidDocument prefs) :
    mergePatch prefs p.patch = p.update.mergedPreferences prefs := by
  simp only [mergePatch, modelValidate, Fields.update, dump,
    validField_merged_mode p.accepts hvalid.defaultMode,
    validField_merged_tools p.accepts hvalid.defaultTools]
  simp only [SentFields.changes, validField_merged_member,
    validField_merged_language p.accepts hvalid.language,
    validField_merged_instructions p.accepts hvalid.personalInstructions]
  unfold PreferencesUpdate.mergedPreferences
  rfl

/-!
# Nulls
-/

/-- A field that must have a value is sent as null. -/
def PatchBody.SendsNull (body : PatchBody) : Prop :=
  body.answerLength = some none ∨ body.tone = some none ∨ body.language = some none ∨
    body.citations = some none ∨ body.documentContext = some none

/-- The instructions that are sent cannot be encoded. -/
def PatchBody.SendsSurrogate (body : PatchBody) : Prop :=
  exists v c, body.personalInstructions = some (some v) ∧ c ∈ v ∧ isSurrogate c = true

theorem sentField_null_iff {alpha beta : Type} {validate : alpha -> Option beta}
    {sent : Option (Option alpha)} {value : Option (Option beta)}
    (h : sentField (nullOr validate) sent = some value) :
    value = some none <-> sent = some none := by
  rcases sentField_eq h with ⟨rfl, rfl⟩ | ⟨v, w, rfl, hw, rfl⟩
  · simp
  · cases v with
    | none =>
        cases hw
        simp
    | some v =>
        rcases Option.map_eq_some_iff.mp hw with ⟨w', _, rfl⟩
        simp

theorem requiredField_eq_none_iff {alpha : Type} {sent : Option (Option alpha)} {old : alpha} :
    requiredField sent old = none <-> sent = some none := by
  unfold requiredField
  cases sent with
  | none => simp
  | some v => simp

/-- The merge raises exactly on such a null, whatever is stored. -/
theorem mergedPreferences_eq_none_iff (p : AcceptedPatch) (prefs : UserPreferences) :
    p.update.mergedPreferences prefs = none <-> p.body.SendsNull := by
  have hnull : p.body.SendsNull <->
      requiredField p.patch.answerLength prefs.answerLength = none ∨
        requiredField p.patch.tone prefs.tone = none ∨
        requiredField p.patch.language prefs.language = none ∨
        requiredField p.patch.citations prefs.citations = none ∨
        requiredField p.patch.documentContext prefs.documentContext = none := by
    simp only [requiredField_eq_none_iff, sentField_null_iff p.accepts.answerLength,
      sentField_null_iff p.accepts.tone, sentField_null_iff p.accepts.language,
      sentField_null_iff p.accepts.citations, sentField_null_iff p.accepts.documentContext]
    exact Iff.rfl
  rw [hnull]
  unfold PreferencesUpdate.mergedPreferences AcceptedPatch.update
  dsimp only
  cases requiredField p.patch.answerLength prefs.answerLength <;>
    cases requiredField p.patch.tone prefs.tone <;>
    cases requiredField p.patch.language prefs.language <;>
    cases requiredField p.patch.citations prefs.citations <;>
    cases requiredField p.patch.documentContext prefs.documentContext <;>
    simp

/-!
# The merged document
-/

/-- A field after the merge, for the validator that normalises what is sent. -/
structure FieldMerged {alpha beta : Type} (validate : alpha -> Option beta)
    (sent : Option (Option alpha)) (old new : beta) : Prop where
  kept : sent = none -> new = old
  taken : forall v, sent = some (some v) -> validate v = some new

/-- Every field is kept, or has the value that was sent for it. -/
structure MergedAs (body : PatchBody) (old merged : UserPreferences) : Prop where
  defaultMode :
    FieldMerged (fun v => cleanMode (some v)) body.defaultMode old.defaultMode merged.defaultMode
  defaultTools :
    FieldMerged (fun tools => validTools (some (tools.map some))) body.defaultTools
      old.defaultTools merged.defaultTools
  answerLength :
    FieldMerged AnswerLength.ofValue body.answerLength old.answerLength merged.answerLength
  tone : FieldMerged Tone.ofValue body.tone old.tone merged.tone
  language :
    FieldMerged (fun v => validLanguage (some v)) body.language old.language merged.language
  personalInstructions :
    FieldMerged (fun v => validInstructions (some v)) body.personalInstructions
      old.personalInstructions merged.personalInstructions
  citations :
    FieldMerged CitationPreference.ofValue body.citations old.citations merged.citations
  documentContext :
    FieldMerged DocumentContext.ofValue body.documentContext old.documentContext
      merged.documentContext

theorem fieldMerged_required {alpha beta : Type} {validate : alpha -> Option beta}
    {sent : Option (Option alpha)} {value : Option (Option beta)} {old new : beta}
    (h : sentField (nullOr validate) sent = some value)
    (hnew : requiredField value old = some new) : FieldMerged validate sent old new := by
  rcases sentField_eq h with ⟨rfl, rfl⟩ | ⟨v, w, rfl, hw, rfl⟩
  · refine ⟨fun _ => ?_, fun v hv => nomatch hv⟩
    unfold requiredField at hnew
    exact (Option.some.inj hnew).symm
  · refine ⟨(fun hv => nomatch hv), ?_⟩
    intro v' hv'
    cases hv'
    rcases Option.map_eq_some_iff.mp hw with ⟨w', hw', rfl⟩
    rw [hw']
    exact hnew

theorem fieldMerged_nullable {alpha beta gamma : Type} (validate : gamma -> Option (Option beta))
    (wrap : Option alpha -> gamma) {empty : beta} {sent : Option (Option alpha)}
    {value : Option (Option beta)} {old : beta}
    (h : sentField (fun v => validate (wrap v)) sent = some value) :
    FieldMerged (fun v => (validate (wrap (some v))).map (fun cleaned => cleaned.getD empty)) sent
      old (nullableField empty value old) := by
  rcases sentField_eq h with ⟨rfl, rfl⟩ | ⟨v, w, rfl, hw, rfl⟩
  · exact ⟨fun _ => rfl, fun v hv => nomatch hv⟩
  · refine ⟨(fun hv => nomatch hv), ?_⟩
    intro v' hv'
    cases hv'
    rw [hw]
    rfl

theorem fieldMerged_mode (p : AcceptedPatch) (old : Option Text) :
    FieldMerged (fun v => cleanMode (some v)) p.body.defaultMode old
      (p.update.defaultMode.getD old) := by
  have hchanges : p.update.defaultMode =
      p.patch.defaultMode.map (fun v => if v = [] then none else some v) := rfl
  cases hm : p.patch.defaultMode with
  | none =>
      have hsent : p.update.defaultMode = none := by
        rw [hchanges, hm]
        rfl
      rcases sentField_eq p.accepts.defaultMode with ⟨hbody, _⟩ | ⟨v, w, _, _, hvalue⟩
      · rw [hbody, hsent]
        exact ⟨fun _ => rfl, fun v hv => nomatch hv⟩
      · rw [hm] at hvalue
        cases hvalue
  | some m =>
      have hsent : p.update.defaultMode = some (if m = [] then none else some m) := by
        rw [hchanges, hm]
        rfl
      rcases p.accepts.cleanMode_sent hm with ⟨v, hbody, hclean⟩
      rw [hbody, hsent]
      refine ⟨(fun hv => nomatch hv), ?_⟩
      intro v' hv'
      cases hv'
      exact hclean

theorem mergedAs (p : AcceptedPatch) {old merged : UserPreferences}
    (h : p.update.mergedPreferences old = some merged) : MergedAs p.body old merged := by
  simp only [PreferencesUpdate.mergedPreferences, Option.bind_eq_bind, Option.bind_eq_some_iff]
    at h
  rcases h with ⟨_, hlength, _, htone, _, hlanguage, _, hcitations, _, hcontext, hmerged⟩
  cases hmerged
  exact
    { defaultMode := fieldMerged_mode p _
      defaultTools := fieldMerged_nullable cleanTools (Option.map (fun tools : List Text => tools.map some))
        p.accepts.defaultTools
      answerLength := fieldMerged_required p.accepts.answerLength hlength
      tone := fieldMerged_required p.accepts.tone htone
      language := fieldMerged_required p.accepts.language hlanguage
      personalInstructions :=
        fieldMerged_nullable cleanInstructions id p.accepts.personalInstructions
      citations := fieldMerged_required p.accepts.citations hcitations
      documentContext := fieldMerged_required p.accepts.documentContext hcontext }

theorem mergedPreferences_nullInstructions (p : AcceptedPatch) {old merged : UserPreferences}
    (h : p.update.mergedPreferences old = some merged)
    (hnull : p.body.personalInstructions = some none) : merged.personalInstructions = [] := by
  simp only [PreferencesUpdate.mergedPreferences, Option.bind_eq_bind, Option.bind_eq_some_iff]
    at h
  rcases h with ⟨_, _, _, _, _, _, _, _, _, _, hmerged⟩
  cases hmerged
  have hsent := p.accepts.personalInstructions
  rw [hnull] at hsent
  show nullableField [] p.patch.personalInstructions old.personalInstructions = []
  rw [← Option.some.inj hsent]
  rfl

/-!
# What the columns hold
-/

theorem pgText_of_all {s : Text} {allowed : CodePoint -> Bool}
    (hallowed : forall c, allowed c = true -> c.val < 0x80 ∧ c ≠ 0)
    (h : s.all allowed = true) : PgText s := by
  intro c hc
  have hsmall := hallowed c (List.all_eq_true.mp h c hc)
  refine ⟨hsmall.right, ?_⟩
  unfold isSurrogate
  simp only [Bool.and_eq_false_iff, decide_eq_false_iff_not]
  omega

theorem isToolChar_small {c : CodePoint} (h : isToolChar c = true) : c.val < 0x80 ∧ c ≠ 0 := by
  have hcases : c.val < 0x80 ∧ c.val ≠ 0 := by
    simp only [isToolChar, isModeChar, isAlphanumeric, Bool.or_eq_true, Bool.and_eq_true,
      decide_eq_true_eq] at h
    rcases h with (((((h | h) | h) | h) | h) | h) | h
    · omega
    · omega
    · omega
    · exact h ▸ by decide
    · exact h ▸ by decide
    · exact h ▸ by decide
    · exact h ▸ by decide
  exact ⟨hcases.left, fun h => hcases.right (congrArg Fin.val h)⟩

theorem isModeChar_small {c : CodePoint} (h : isModeChar c = true) : c.val < 0x80 ∧ c ≠ 0 :=
  isToolChar_small (by
    unfold isToolChar
    rw [h]
    rfl)

theorem mode_fits {m : Text} (h : cleanMode (some m) = some (some m))
    (hparse : parseCustomRef m = none) : PgText m ∧ m.length ≤ 40 := by
  rcases (cleanMode_some h).right.right.right.right with ⟨_, hcustom⟩ | ⟨_, hmatch⟩
  · rw [hparse] at hcustom
    cases hcustom
  · unfold modeIdMatches at hmatch
    simp only [Bool.and_eq_true, decide_eq_true_eq] at hmatch
    exact ⟨pgText_of_all (fun _ => isModeChar_small) hmatch.right, by omega⟩

theorem tool_fits {t : Text} (hstrip : strip t = t) (hmatch : toolIdMatches t = true) :
    PgText t ∧ t.length ≤ 64 := by
  refine ⟨?_, length_le_of_toolIdMatches hstrip hmatch⟩
  have hlast : t.getLast? ≠ some 0x0A := by
    intro hlast
    apply not_endsInBlank_strip t
    rw [hstrip]
    exact ⟨_, hlast, by decide⟩
  unfold toolIdMatches at hmatch
  rw [if_neg hlast] at hmatch
  simp only [Bool.and_eq_true, decide_eq_true_eq] at hmatch
  refine @pgText_of_all t isToolChar (fun _ => isToolChar_small) ?_
  cases t with
  | nil => rfl
  | cons c rest =>
      have hfirst : isToolChar c = true := by
        have hc : isAlphanumeric c = true := hmatch.left.left
        unfold isToolChar isModeChar
        rw [hc]
        rfl
      rw [List.all_cons, hfirst]
      exact hmatch.right

theorem cleanTools_of_validTools {tools : List Text}
    (h : validTools (some (tools.map some)) = some tools) : CleanTools tools := by
  rcases Option.map_eq_some_iff.mp h with ⟨value, hvalue, htools⟩
  rcases cleanTools_some hvalue with ⟨cleaned, rfl, hclean, _⟩
  cases htools
  exact hclean

theorem language_fits {w : Text} (h : w ∈ supportedLanguages.map Prod.fst) :
    PgText w ∧ w.length ≤ 16 := by
  have hall : (supportedLanguages.map Prod.fst).all (fun w =>
      w.all (fun c => c.val < 0x80 && c != 0) && w.length ≤ 16) = true := by
    decide
  have hw := List.all_eq_true.mp hall w h
  simp only [Bool.and_eq_true, decide_eq_true_eq] at hw
  refine ⟨pgText_of_all (fun c hc => ?_) hw.left, hw.right⟩
  simpa using hc

theorem allowed_savedRow {prefs : UserPreferences} (hvalid : ValidDocument prefs)
    (htext : PgText prefs.personalInstructions) {version : Nat} (hversion : 1 ≤ version)
    (updatedAt : Int) : (savedRow prefs version updatedAt).Allowed where
  defaultMode := by
    intro m hm
    have hmode : prefs.defaultMode = some m ∧ PreferencesService.customDefault prefs = none := by
      unfold savedRow at hm
      dsimp only at hm
      split at hm
      · cases hm
      · rename_i hnone
        exact ⟨hm, by simpa using hnone⟩
    have hclean : cleanMode (some m) = some (some m) := by
      rw [← hmode.left]
      exact hvalid.defaultMode
    apply mode_fits hclean
    have hnone := hmode.right
    unfold PreferencesService.customDefault at hnone
    rw [hmode.left] at hnone
    cases m with
    | nil => exact absurd rfl (cleanMode_some hclean).right.left
    | cons c rest => exact hnone
  defaultTools := by
    intro t ht
    have hmem : t ∈ prefs.defaultTools := by
      rcases List.mem_map.mp ht with ⟨t', ht', heq⟩
      cases heq
      exact ht'
    have hclean := cleanTools_of_validTools hvalid.defaultTools
    exact tool_fits (hclean.stripped t hmem) (hclean.matched t hmem)
  answerLength := by
    show prefs.answerLength.value ∈ _
    cases prefs.answerLength <;> decide
  tone := by
    show prefs.tone.value ∈ _
    cases prefs.tone <;> decide
  language := language_fits (validLanguage_eq_some hvalid.language).right
  personalInstructions := by
    refine ⟨htext, ?_⟩
    rcases Option.map_eq_some_iff.mp hvalid.personalInstructions with ⟨value, hvalue, hw⟩
    rcases cleanInstructions_some hvalue with ⟨w, rfl, _, hshort⟩
    cases hw
    exact hshort
  citations := by
    show prefs.citations.value ∈ _
    cases prefs.citations <;> decide
  documentContext := by
    show prefs.documentContext.value ∈ _
    cases prefs.documentContext <;> decide
  version := hversion
  oneDefaultMode := by
    show (if (PreferencesService.customDefault prefs).isSome then none else prefs.defaultMode) =
      none ∨ PreferencesService.customDefault prefs = none
    cases PreferencesService.customDefault prefs with
    | none => exact Or.inr rfl
    | some ref => exact Or.inl rfl

/-!
# Instructions that can be encoded
-/

theorem mem_dropWhile {p : CodePoint -> Bool} {c : CodePoint} {s : Text} (hc : c ∈ s)
    (hp : p c = false) : c ∈ s.dropWhile p := by
  rw [← List.takeWhile_append_dropWhile (p := p) (l := s)] at hc
  rcases List.mem_append.mp hc with htake | hdrop
  · have := List.mem_takeWhile_imp htake
    rw [hp] at this
    cases this
  · exact hdrop

theorem mem_strip {c : CodePoint} {s : Text} (hc : c ∈ s) (hspace : isSpace c = false) :
    c ∈ strip s := by
  unfold strip stripBy
  apply List.mem_reverse.mpr
  apply mem_dropWhile _ hspace
  exact List.mem_reverse.mpr (mem_dropWhile hc hspace)

theorem isSpace_of_isSurrogate {c : CodePoint} (h : isSurrogate c = true) :
    isSpace c = false ∧ isControl c = false := by
  unfold isSurrogate at h
  simp only [Bool.and_eq_true, decide_eq_true_eq] at h
  constructor
  · simp [isSpace]
    omega
  · simp [isControl]
    omega

/-- The normalised instructions can be encoded exactly if what was sent can be. -/
theorem pgText_validInstructions_iff {v w : Text} (h : validInstructions (some v) = some w) :
    PgText w <-> forall c, c ∈ v -> isSurrogate c = false := by
  rcases Option.map_eq_some_iff.mp h with ⟨value, hvalue, hw⟩
  rcases cleanInstructions_some hvalue with ⟨cleaned, rfl, hcleaned, _⟩
  cases hw
  rw [Option.getD_some, hcleaned]
  constructor
  · intro htext c hc
    by_contra hnot
    have hsurrogate : isSurrogate c = true := by simpa using hnot
    rcases isSpace_of_isSurrogate hsurrogate with ⟨hspace, hcontrol⟩
    have hmem : c ∈ strip (v.filter (fun c => !isControl c)) :=
      mem_strip (List.mem_filter.mpr ⟨hc, by rw [hcontrol]; rfl⟩) hspace
    exact hnot (htext c hmem).right
  · intro hall c hc
    rcases List.mem_filter.mp ((strip_sublist _).subset hc) with ⟨hmem, hcontrol⟩
    refine ⟨?_, hall c hmem⟩
    rintro rfl
    exact absurd hcontrol (by decide)

/-!
# The exceptions of an update
-/

/-- The exceptions for which the API has a response. -/
def SettingsExc.IsMapped : SettingsExc -> Prop
  | .conflict _ => True
  | .unknownCatalogItem _ => True
  | .invalidDefaultMode _ => True
  | .validation => False
  | .database => False

theorem merge_ne_none {p : AcceptedPatch} (hnull : ¬p.body.SendsNull) (c : CleanPreferences) :
    p.update.merge c ≠ none := by
  intro hnone
  unfold PreferencesUpdate.merge at hnone
  split at hnone
  · cases hnone
  · rename_i hmerged
    exact hnull ((mergedPreferences_eq_none_iff p c.prefs).mp hmerged)

theorem raises_validateCatalog (hasCatalog : Bool) (merged : UserPreferences)
    (patch : PreferencesUpdate) :
    (PreferencesService.validateCatalog hasCatalog merged patch).RaisesUnfaulted
      SettingsExc.IsMapped := by
  unfold PreferencesService.validateCatalog
  split
  · trivial
  · split
    · trivial
    · apply Prog.raisesUnfaulted_bind
      · exact Prog.raisesUnfaulted_perform _ _
      · intro catalog
        cases catalog with
        | none => trivial
        | some catalog =>
            unfold PreferencesService.checkCatalog
            dsimp only
            split
            · trivial
            · split
              · split
                · trivial
                · trivial
              · trivial

theorem raises_resolveDefault (userId : UUID) (merged : UserPreferences) :
    (PreferencesService.resolveDefault userId merged).RaisesUnfaulted SettingsExc.IsMapped := by
  unfold PreferencesService.resolveDefault
  split
  · trivial
  · apply Prog.raisesUnfaulted_bind
    · exact Prog.raisesUnfaulted_perform _ _
    · intro mode
      cases mode with
      | none => trivial
      | some mode => trivial

theorem raises_get (userId : UUID) :
    (PreferencesService.get userId).RaisesUnfaulted SettingsExc.IsMapped := by
  unfold PreferencesService.get
  apply Prog.raisesUnfaulted_bind
  · exact Prog.raisesUnfaulted_perform _ _
  · intro read
    apply Prog.raisesUnfaulted_bind
    · unfold PreferencesService.defaultModeAvailable
      split
      · trivial
      · exact Prog.raisesUnfaulted_bind (Prog.raisesUnfaulted_perform _ _) (fun _ => trivial)
    · intro available
      trivial

theorem raises_saveMerged (args : PreferencesService.UpdateArgs) (read : PreferencesReading)
    (merged : CleanPreferences) (customId : Option UUID) :
    (PreferencesService.saveMerged args read merged customId).RaisesUnfaulted
      SettingsExc.IsMapped := by
  unfold PreferencesService.saveMerged
  apply Prog.raisesUnfaulted_bind
  · unfold PreferencesRepository.save
    apply Prog.raisesUnfaulted_bind
    · unfold PreferencesRepository.write
      split
      · exact Prog.raisesUnfaulted_perform _ _
      · exact Prog.raisesUnfaulted_perform _ _
    · intro answer
      unfold PreferencesRepository.written
      split
      · trivial
      · trivial
      · exact Prog.raisesUnfaulted_bind (Prog.raisesUnfaulted_perform _ _) (fun _ => trivial)
  · intro _
    exact raises_get args.userId

theorem raises_attempt {hasCatalog : Bool} {args : PreferencesService.UpdateArgs}
    {write : PreferencesReading -> CleanPreferences -> Option UUID ->
      SettingsProg PreferencesResponse}
    (hmerge : forall c, args.patch.merge c ≠ none)
    (hwrite : forall read merged customId,
      (write read merged customId).RaisesUnfaulted SettingsExc.IsMapped) :
    (PreferencesService.attempt hasCatalog args write).RaisesUnfaulted SettingsExc.IsMapped := by
  unfold PreferencesService.attempt
  apply Prog.raisesUnfaulted_bind
  · exact Prog.raisesUnfaulted_perform _ _
  · intro read
    dsimp only
    split
    · trivial
    · split
      · rename_i hnone
        exact absurd hnone (hmerge _)
      · rename_i merged _
        apply Prog.raisesUnfaulted_bind
        · exact raises_validateCatalog _ _ _
        · intro _
          apply Prog.raisesUnfaulted_bind
          · exact raises_resolveDefault _ _
          · intro customId
            exact hwrite read merged customId

/-- By induction on the attempts; a conflict of the save leads to the next one. -/
theorem raises_updateFrom {hasCatalog : Bool} {args : PreferencesService.UpdateArgs}
    (hmerge : forall c, args.patch.merge c ≠ none) (attempts : Nat) :
    (PreferencesService.updateFrom hasCatalog args attempts).RaisesUnfaulted
      SettingsExc.IsMapped := by
  induction attempts with
  | zero => trivial
  | succ attempts ih =>
      apply raises_attempt hmerge
      intro read merged customId
      apply Prog.raisesUnfaulted_tryCatch (raises_saveMerged args read merged customId)
      intro e he
      cases e with
      | conflict current =>
          dsimp only
          split
          · trivial
          · exact ih
      | unknownCatalogItem message => trivial
      | invalidDefaultMode message => trivial
      | validation => exact he.elim
      | database => exact he.elim

/-!
# Applying a patch
-/

def storedDocument (row : Option StoredRow) : UserPreferences :=
  match row with
  | some row => row.toDict.document
  | none => .default

theorem fromRow_storedRow (row : Option StoredRow) :
    fromRow (row.map (fun row => row.toDict)) = some (storedDocument row) := by
  cases row with
  | none => rfl
  | some row => exact fromRow_some row.toDict

theorem valid_storedDocument (row : Option StoredRow) : ValidDocument (storedDocument row) :=
  valid_of_fromRow (fromRow_storedRow row)

theorem pgText_storedDocument (row : Option StoredRow) :
    PgText (storedDocument row).personalInstructions := by
  have hempty : PgText [] := fun c hc => absurd hc List.not_mem_nil
  cases row with
  | none => exact hempty
  | some row =>
      show PgText (storedOr (fun v => validInstructions (some v)) []
        (some row.personalInstructions))
      unfold storedOr
      rw [Option.bind_some]
      cases hvalid : validInstructions (some row.personalInstructions) with
      | none => exact hempty
      | some w =>
          exact (pgText_validInstructions_iff hvalid).mpr
            (fun c hc => (row.storable c hc).right)

/-- The patch can be merged into the row and the result saved. -/
structure CanBeApplied (row : Option StoredRow) (p : AcceptedPatch) : Prop where
  merged : exists old merged, fromRow (row.map (fun row => row.toDict)) = some old ∧
    mergePatch old p.patch = some merged ∧
    MergedAs p.body (storedDocument row) merged ∧
    forall version updatedAt, 1 ≤ version -> (savedRow merged version updatedAt).Allowed
  update_raises : forall hasCatalog userId now,
    (PreferencesService.update hasCatalog ⟨userId, p.update, now⟩).RaisesUnfaulted
      SettingsExc.IsMapped

/--
For every stored row, an accepted patch can be applied exactly if it sends no null for a field
that needs a value, and no instructions that cannot be encoded.
-/
theorem canBeApplied_iff (row : Option StoredRow) (p : AcceptedPatch) :
    CanBeApplied row p <-> ¬p.body.SendsNull ∧ ¬p.body.SendsSurrogate := by
  have hvalid := valid_storedDocument row
  constructor
  · intro h
    rcases h.merged with ⟨old, merged, hold, hmerged, hfields, hallowed⟩
    cases (fromRow_storedRow row).symm.trans hold
    rw [mergePatch_eq p hvalid] at hmerged
    refine ⟨?_, ?_⟩
    · intro hnull
      rw [(mergedPreferences_eq_none_iff p _).mpr hnull] at hmerged
      cases hmerged
    · rintro ⟨v, c, hsent, hc, hsurrogate⟩
      have htext := (hallowed 1 0 (Nat.le_refl 1)).personalInstructions.left
      have hnot := (pgText_validInstructions_iff
        (hfields.personalInstructions.taken v hsent)).mp htext c hc
      rw [hsurrogate] at hnot
      cases hnot
  · rintro ⟨hnull, hencoded⟩
    refine ⟨?_, ?_⟩
    · cases hmerged : p.update.mergedPreferences (storedDocument row) with
      | none => exact absurd ((mergedPreferences_eq_none_iff p _).mp hmerged) hnull
      | some merged =>
          have hmerge : mergePatch (storedDocument row) p.patch = some merged := by
            rw [mergePatch_eq p hvalid]
            exact hmerged
          have hfields := mergedAs p hmerged
          refine ⟨_, merged, fromRow_storedRow row, hmerge, hfields, ?_⟩
          intro version updatedAt hversion
          refine allowed_savedRow (modelValidate_eq_some_iff.mp hmerge).valid ?_ hversion _
          cases hsent : p.body.personalInstructions with
          | none =>
              rw [hfields.personalInstructions.kept hsent]
              exact pgText_storedDocument row
          | some value =>
              cases value with
              | none =>
                  rw [mergedPreferences_nullInstructions p hmerged hsent]
                  exact fun c hc => absurd hc List.not_mem_nil
              | some v =>
                  apply (pgText_validInstructions_iff
                    (hfields.personalInstructions.taken v hsent)).mpr
                  intro c hc
                  cases hsurrogate : isSurrogate c with
                  | false => rfl
                  | true => exact absurd ⟨v, c, hsent, hc, hsurrogate⟩ hencoded
    · intro hasCatalog userId now
      exact raises_updateFrom (merge_ne_none hnull) _

/-- A row with a tone that there is no longer. -/
def sternRow : StoredRow where
  defaultMode := none
  defaultCustomModeId := none
  defaultTools := []
  answerLength := text "concise"
  tone := text "stern"
  language := text "en"
  personalInstructions := text "Be brief."
  citations := text "show"
  documentContext := text "conversation"
  version := 2
  updatedAt := 0
  positive := by decide
  storable := by
    have hall : (text "Be brief.").all (fun c => c != 0 && isSurrogate c == false) = true := by decide
    intro c hc
    rcases Bool.and_eq_true_iff.mp (List.all_eq_true.mp hall c hc) with ⟨hne, hsurrogate⟩
    exact ⟨bne_iff_ne.mp hne, beq_iff_eq.mp hsurrogate⟩

def frenchOnly : PatchBody :=
  { version := some 2
    defaultMode := none
    defaultTools := none
    answerLength := none
    tone := none
    language := some (some (text "fr"))
    personalInstructions := none
    citations := none
    documentContext := none }

theorem canBeApplied_iff_french :
    (fromRow (some sternRow.toDict)).map (fun old => (old.tone, old.answerLength)) =
        some (.professional, .concise) ∧
      exists p : AcceptedPatch, p.body = frenchOnly ∧ CanBeApplied (some sternRow) p := by
  refine ⟨by decide, ?_⟩
  have haccepted : (acceptPatch frenchOnly).isSome = true := by decide
  rcases Option.isSome_iff_exists.mp haccepted with ⟨patch, hpatch⟩
  refine ⟨⟨frenchOnly, patch, hpatch⟩, rfl, (canBeApplied_iff _ _).mpr ⟨?_, ?_⟩⟩
  · show ¬frenchOnly.SendsNull
    unfold PatchBody.SendsNull
    decide
  · rintro ⟨v, c, hsent, _⟩
    cases hsent

def nullTone : PatchBody :=
  { version := none
    defaultMode := none
    defaultTools := none
    answerLength := none
    tone := some none
    language := none
    personalInstructions := none
    citations := none
    documentContext := none }

/-- The body is accepted, and the merge into the default document raises. -/
theorem null_tone_raises :
    exists p : AcceptedPatch, p.body = nullTone ∧
      fromRow (Option.map StoredRow.toTableRow none |>.map TableRow.toDict) = some .default ∧
      mergePatch .default p.patch = none ∧ ¬CanBeApplied none p := by
  have haccepted : (acceptPatch nullTone).isSome = true := by decide
  rcases Option.isSome_iff_exists.mp haccepted with ⟨patch, hpatch⟩
  have hmerge : (acceptPatch nullTone).bind (mergePatch .default) = none := by decide
  rw [hpatch, Option.bind_some] at hmerge
  refine ⟨⟨nullTone, patch, hpatch⟩, rfl, rfl, hmerge, ?_⟩
  intro h
  rcases h.merged with ⟨old, merged, hold, hmerged, _⟩
  cases hold
  rw [hmerge] at hmerged
  cases hmerged

end Preferences
end ConversationService
