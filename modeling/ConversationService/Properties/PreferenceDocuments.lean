import ConversationService.Model.Preferences

/-!
# Valid preference documents

What a validator returns passes it unchanged, so that a document which was validated once
can be validated again together with any changes. A document read from a stored row is a
valid one, whatever the row holds.
-/

namespace ConversationService
namespace Preferences

open Python

/-!
# Modes
-/

theorem lowerAscii_val (c : CodePoint) :
    (lowerAscii c).val = if 0x41 ≤ c.val ∧ c.val ≤ 0x5A then c.val + 0x20 else c.val := by
  unfold lowerAscii
  split
  · exact Nat.mod_eq_of_lt (by omega)
  · rfl

theorem lowerChar_val (c : CodePoint) :
    (lowerChar c).val =
      if c.val = 0x212A then 0x6B
      else if 0x41 ≤ c.val ∧ c.val ≤ 0x5A then c.val + 0x20
      else c.val := by
  unfold lowerChar
  by_cases hkelvin : c = 0x212A
  · rw [if_pos hkelvin, if_pos (show c.val = 0x212A from congrArg Fin.val hkelvin)]
    rfl
  · have hval : c.val ≠ 0x212A := fun h => hkelvin (Fin.ext h)
    rw [if_neg hkelvin, if_neg hval, lowerAscii_val]

theorem lowerChar_lowerChar (c : CodePoint) : lowerChar (lowerChar c) = lowerChar c := by
  apply Fin.ext
  rw [lowerChar_val (lowerChar c), lowerChar_val c]
  split_ifs <;> omega

theorem lowerAscii_lowerChar (c : CodePoint) : lowerAscii (lowerChar c) = lowerChar c := by
  apply Fin.ext
  rw [lowerAscii_val, lowerChar_val]
  split_ifs <;> omega

theorem isSpace_lowerChar (c : CodePoint) : isSpace (lowerChar c) = isSpace c := by
  rw [Bool.eq_iff_iff]
  simp only [isSpace, lowerChar_val, Bool.or_eq_true, Bool.and_eq_true, decide_eq_true_eq,
    beq_iff_eq]
  split_ifs <;> omega

theorem strip_map {f : CodePoint -> CodePoint} (hf : forall c, isSpace (f c) = isSpace c)
    (s : Text) : strip (s.map f) = (strip s).map f := by
  have hcomp : isSpace ∘ f = isSpace := funext hf
  unfold strip stripBy
  rw [List.dropWhile_map, hcomp, ← List.map_reverse, List.dropWhile_map, hcomp,
    ← List.map_reverse]

theorem strip_lower_strip (s : Text) : strip (lower (strip s)) = lower (strip s) := by
  unfold lower
  rw [strip_map isSpace_lowerChar, strip_strip]

theorem lower_lower (s : Text) : lower (lower s) = lower s := by
  unfold lower
  rw [List.map_map]
  exact List.map_congr_left (fun c _ => lowerChar_lowerChar c)

theorem cleanMode_some {v m : Text} (h : cleanMode (some v) = some (some m)) :
    m = lower (strip v) ∧ m ≠ [] ∧ m ≠ text "auto" ∧ m ≠ text "default" ∧
      (customPrefix.isPrefixOf m = true ∧ (parseCustomRef m).isSome = true ∨
        customPrefix.isPrefixOf m = false ∧ modeIdMatches m = true) := by
  unfold cleanMode at h
  dsimp only at h
  split at h
  · cases h
  · rename_i hauto
    push Not at hauto
    split at h
    · rename_i hcustom
      split at h
      · cases h
      · rename_i hparse
        cases h
        refine ⟨rfl, hauto.left, hauto.right.left, hauto.right.right, Or.inl ⟨hcustom, ?_⟩⟩
        simpa [Option.isSome_iff_ne_none] using hparse
    · rename_i hcustom
      split at h
      · rename_i hmatch
        cases h
        exact ⟨rfl, hauto.left, hauto.right.left, hauto.right.right,
          Or.inr ⟨Bool.eq_false_iff.mpr hcustom, hmatch⟩⟩
      · cases h

theorem cleanMode_cleanMode {v m : Option Text} (h : cleanMode v = some m) :
    cleanMode m = some m := by
  cases m with
  | none => rfl
  | some m =>
      cases v with
      | none => cases h
      | some v =>
          rcases cleanMode_some h with ⟨hm, hne, hauto, hdefault, hkind⟩
          have hsame : lower (strip m) = m := by
            rw [hm, strip_lower_strip, lower_lower]
          unfold cleanMode
          dsimp only
          rw [hsame, if_neg (by tauto)]
          rcases hkind with ⟨hcustom, hparse⟩ | ⟨hcustom, hmatch⟩
          · rw [if_pos hcustom, if_neg]
            rw [Option.isNone_eq_false_iff.mpr hparse]
            exact Bool.false_ne_true
          · rw [hcustom, if_neg Bool.false_ne_true, if_pos hmatch]

theorem isCleanMode_of_cleanMode {m : Text} (h : cleanMode (some m) = some (some m)) :
    IsCleanMode m := by
  have hm := (cleanMode_some h).left
  constructor
  · rw [hm, strip_lower_strip]
  · rw [hm]
    unfold lower
    rw [List.map_map]
    exact List.map_congr_left (fun c _ => lowerAscii_lowerChar c)

theorem parseCustomRef_of_cleanMode {m : Text} (h : cleanMode (some m) = some (some m))
    (hcustom : isCustomRef m = true) : (parseCustomRef m).isSome = true := by
  have hclean := isCleanMode_of_cleanMode h
  unfold isCustomRef at hcustom
  rw [hclean.stripped, hclean.lower] at hcustom
  rcases (cleanMode_some h).right.right.right.right with ⟨_, hparse⟩ | ⟨hnot, _⟩
  · exact hparse
  · rw [hcustom] at hnot
    cases hnot

/-!
# Tools
-/

/-- A list of tools as `_clean_tools` leaves it, up to its length. -/
structure CleanTools (tools : List Text) : Prop where
  stripped : forall t, t ∈ tools -> strip t = t
  matched : forall t, t ∈ tools -> toolIdMatches t = true
  nodup : tools.Nodup

theorem CleanTools.nil : CleanTools [] :=
  ⟨fun _ h => absurd h List.not_mem_nil, fun _ h => absurd h List.not_mem_nil, List.nodup_nil⟩

theorem CleanTools.concat {tools : List Text} {t : Text} (h : CleanTools tools)
    (hstrip : strip t = t) (hmatch : toolIdMatches t = true) (hnew : t ∉ tools) :
    CleanTools (tools ++ [t]) := by
  refine ⟨?_, ?_, List.nodup_append.mpr ⟨h.nodup, List.nodup_singleton t, ?_⟩⟩
  · intro u hu
    rcases List.mem_append.mp hu with hu | hu
    · exact h.stripped u hu
    · rw [List.mem_singleton.mp hu]
      exact hstrip
  · intro u hu
    rcases List.mem_append.mp hu with hu | hu
    · exact h.matched u hu
    · rw [List.mem_singleton.mp hu]
      exact hmatch
  · intro u hu v hv heq
    rw [List.mem_singleton.mp hv] at heq
    exact hnew (heq ▸ hu)

theorem cleanTools_cleanToolsFrom {raws : List (Option Text)} {cleaned tools : List Text}
    (hclean : CleanTools cleaned) (h : cleanToolsFrom cleaned raws = some tools) :
    CleanTools tools := by
  induction raws generalizing cleaned with
  | nil =>
      cases h
      exact hclean
  | cons raw rest ih =>
      cases raw with
      | none => cases h
      | some raw =>
          simp only [cleanToolsFrom] at h
          split at h
          · rename_i hmatch
            refine ih ?_ h
            split
            · exact hclean
            · rename_i hnew
              exact hclean.concat (strip_strip raw) hmatch hnew
          · cases h

theorem cleanToolsFrom_clean {tools cleaned : List Text} (h : CleanTools (cleaned ++ tools)) :
    cleanToolsFrom cleaned (tools.map some) = some (cleaned ++ tools) := by
  induction tools generalizing cleaned with
  | nil => simp [cleanToolsFrom]
  | cons t rest ih =>
      have hmem : t ∈ cleaned ++ t :: rest := by simp
      have hnew : t ∉ cleaned := by
        intro hold
        exact (List.nodup_append.mp h.nodup).right.right t hold t List.mem_cons_self rfl
      have hassoc : cleaned ++ t :: rest = (cleaned ++ [t]) ++ rest := by simp
      simp only [List.map_cons, cleanToolsFrom]
      rw [h.stripped t hmem, if_pos (h.matched t hmem), if_neg hnew, hassoc]
      rw [hassoc] at h
      exact ih h

theorem cleanTools_some {raws : List (Option Text)} {value : Option (List Text)}
    (h : cleanTools (some raws) = some value) :
    exists tools, value = some tools ∧ CleanTools tools ∧ tools.length ≤ maxDefaultTools := by
  simp only [cleanTools, Option.bind_eq_some_iff] at h
  rcases h with ⟨tools, hfrom, htools⟩
  split at htools
  · cases htools
  · rename_i hfew
    cases htools
    exact ⟨tools, rfl, cleanTools_cleanToolsFrom .nil hfrom, Nat.not_lt.mp hfew⟩

theorem cleanTools_clean {tools : List Text} (h : CleanTools tools)
    (hfew : tools.length ≤ maxDefaultTools) :
    cleanTools (some (tools.map some)) = some (some tools) := by
  unfold cleanTools
  dsimp only
  rw [@cleanToolsFrom_clean _ [] h]
  exact if_neg (Nat.not_lt.mpr hfew)

theorem length_le_of_toolIdMatches {t : Text} (hstrip : strip t = t)
    (hmatch : toolIdMatches t = true) : t.length ≤ 64 := by
  have hlast : t.getLast? ≠ some 0x0A := by
    intro hlast
    apply not_endsInBlank_strip t
    rw [hstrip]
    exact ⟨_, hlast, by decide⟩
  unfold toolIdMatches at hmatch
  rw [if_neg hlast] at hmatch
  simp only [Bool.and_eq_true, decide_eq_true_eq] at hmatch
  exact hmatch.left.right

/-!
# Instructions
-/

theorem cleanInstructions_some {v : Text} {value : Option Text}
    (h : cleanInstructions (some v) = some value) :
    exists w, value = some w ∧ w = strip (v.filter (fun c => !isControl c)) ∧
      w.length ≤ personalInstructionsMax := by
  unfold cleanInstructions at h
  dsimp only at h
  split at h
  · cases h
  · rename_i hshort
    cases h
    exact ⟨_, rfl, rfl, Nat.not_lt.mp hshort⟩

theorem cleanInstructions_cleanInstructions {v w : Text}
    (h : cleanInstructions (some v) = some (some w)) :
    cleanInstructions (some w) = some (some w) := by
  rcases cleanInstructions_some h with ⟨_, hw, heq, hshort⟩
  cases hw
  have hfilter : w.filter (fun c => !isControl c) = w := by
    apply List.filter_eq_self.mpr
    intro c hc
    rw [heq] at hc
    exact (List.mem_filter.mp ((strip_sublist _).subset hc)).right
  have hstrip : strip w = w := by
    rw [heq, strip_strip]
  unfold cleanInstructions
  dsimp only
  rw [hfilter, hstrip, if_neg (Nat.not_lt.mpr hshort)]

/-!
# Documents
-/

/-- The fields of a document pass their validators unchanged. -/
structure ValidDocument (prefs : UserPreferences) : Prop where
  defaultMode : cleanMode prefs.defaultMode = some prefs.defaultMode
  defaultTools : validTools (some (prefs.defaultTools.map some)) = some prefs.defaultTools
  language : validLanguage (some prefs.language) = some prefs.language
  personalInstructions :
    validInstructions (some prefs.personalInstructions) = some prefs.personalInstructions

/-- `prefs` has the validated fields, and the default of every other field. -/
structure Validates (fields : Fields) (prefs : UserPreferences) : Prop where
  defaultMode : validField cleanMode none fields.defaultMode = some prefs.defaultMode
  defaultTools : validField validTools [] fields.defaultTools = some prefs.defaultTools
  answerLength :
    validField (validMember AnswerLength.ofValue) .balanced fields.answerLength =
      some prefs.answerLength
  tone : validField (validMember Tone.ofValue) .professional fields.tone = some prefs.tone
  language : validField validLanguage (text "auto") fields.language = some prefs.language
  personalInstructions :
    validField validInstructions [] fields.personalInstructions =
      some prefs.personalInstructions
  citations :
    validField (validMember CitationPreference.ofValue) .show fields.citations =
      some prefs.citations
  documentContext :
    validField (validMember DocumentContext.ofValue) .conversation fields.documentContext =
      some prefs.documentContext

theorem modelValidate_eq_some_iff {fields : Fields} {prefs : UserPreferences} :
    modelValidate fields = some prefs <-> Validates fields prefs := by
  constructor
  · intro h
    simp only [modelValidate, Option.bind_eq_bind, Option.bind_eq_some_iff] at h
    rcases h with ⟨_, h1, _, h2, _, h3, _, h4, _, h5, _, h6, _, h7, _, h8, hprefs⟩
    cases hprefs
    exact ⟨h1, h2, h3, h4, h5, h6, h7, h8⟩
  · intro h
    simp only [modelValidate, h.defaultMode, h.defaultTools, h.answerLength, h.tone,
      h.language, h.personalInstructions, h.citations, h.documentContext]
    rfl

theorem validField_spec {alpha beta : Type} {validate : alpha -> Option beta} {default x : beta}
    {v : Option alpha} {P : beta -> Prop} (h : validField validate default v = some x)
    (hdefault : P default) (hvalid : forall a y, validate a = some y -> P y) : P x := by
  cases v with
  | none =>
      cases h
      exact hdefault
  | some a => exact hvalid a x h

theorem validTools_validTools {v : Option (List (Option Text))} {tools : List Text}
    (h : validTools v = some tools) : validTools (some (tools.map some)) = some tools := by
  cases v with
  | none =>
      cases h
      rfl
  | some raws =>
      simp only [validTools, Option.map_eq_some_iff] at h
      rcases h with ⟨value, hvalue, htools⟩
      rcases cleanTools_some hvalue with ⟨cleaned, rfl, hclean, hfew⟩
      cases htools
      rw [Option.getD_some]
      unfold validTools
      rw [cleanTools_clean hclean hfew]
      rfl

theorem validInstructions_validInstructions {v : Option Text} {w : Text}
    (h : validInstructions v = some w) : validInstructions (some w) = some w := by
  cases v with
  | none =>
      cases h
      rfl
  | some v =>
      simp only [validInstructions, Option.map_eq_some_iff] at h
      rcases h with ⟨value, hvalue, hw⟩
      rcases cleanInstructions_some hvalue with ⟨cleaned, rfl, _, _⟩
      cases hw
      rw [Option.getD_some]
      unfold validInstructions
      rw [cleanInstructions_cleanInstructions hvalue]
      rfl

theorem validLanguage_eq_some {v : Option Text} {w : Text} (h : validLanguage v = some w) :
    v = some w ∧ w ∈ supportedLanguages.map Prod.fst := by
  unfold validLanguage at h
  rcases Option.filter_eq_some_iff.mp h with ⟨hv, hmem⟩
  exact ⟨hv, of_decide_eq_true hmem⟩

theorem Validates.valid {fields : Fields} {prefs : UserPreferences}
    (h : Validates fields prefs) : ValidDocument prefs where
  defaultMode := validField_spec (P := fun m => cleanMode m = some m) h.defaultMode rfl
    (fun _ _ => cleanMode_cleanMode)
  defaultTools := validField_spec (P := fun tools => validTools (some (tools.map some)) = some tools)
    h.defaultTools rfl (fun _ _ => validTools_validTools)
  language := validField_spec (P := fun w => validLanguage (some w) = some w) h.language
    (by decide) (fun _ w hw => by
      rcases validLanguage_eq_some hw with ⟨hv, _⟩
      rw [← hv, hw, hv])
  personalInstructions := validField_spec (P := fun w => validInstructions (some w) = some w)
    h.personalInstructions rfl (fun _ _ => validInstructions_validInstructions)

theorem valid_default : ValidDocument .default :=
  @Validates.valid Fields.empty _ ⟨rfl, rfl, rfl, rfl, rfl, rfl, rfl, rfl⟩

/-!
# Documents of stored rows
-/

/-- A stored value as its validator has it, or the default if it is not there or invalid. -/
def storedOr {alpha beta : Type} (validate : alpha -> Option beta) (default : beta)
    (stored : Option alpha) : beta :=
  (stored.bind validate).getD default

/-- Field by field, the stored value or the default. -/
def StoredFields.document (row : StoredFields) : UserPreferences :=
  { defaultMode := storedOr (fun v => cleanMode (some v)) none row.defaultMode
    defaultTools := storedOr (fun v => validTools (some v)) [] row.defaultTools
    answerLength := storedOr AnswerLength.ofValue .balanced row.answerLength
    tone := storedOr Tone.ofValue .professional row.tone
    language := storedOr (fun v => validLanguage (some v)) (text "auto") row.language
    personalInstructions :=
      storedOr (fun v => validInstructions (some v)) [] row.personalInstructions
    citations := storedOr CitationPreference.ofValue .show row.citations
    documentContext := storedOr DocumentContext.ofValue .conversation row.documentContext }

/-- A value that is kept if it passes on its own passes in the document. -/
theorem validField_keepValid {alpha beta gamma : Type} {single : alpha -> Fields}
    {validate : gamma -> Option beta} {wrap : alpha -> gamma} {default : beta}
    (hsingle : forall v, (modelValidate (single v)).isSome = (validate (wrap v)).isSome)
    (stored : Option alpha) :
    validField validate default ((keepValid single stored).map wrap) =
      some (storedOr (fun v => validate (wrap v)) default stored) := by
  cases stored with
  | none => rfl
  | some v =>
      unfold keepValid storedOr
      cases hvalid : validate (wrap v) with
      | none => simp [Option.filter, hsingle, hvalid, validField]
      | some x => simp [Option.filter, hsingle, hvalid, validField]

theorem fromRow_some (row : StoredFields) : fromRow (some row) = some row.document := by
  apply modelValidate_eq_some_iff.mpr
  constructor
  · exact validField_keepValid (fun v => by
      cases h : cleanMode (some v) <;> simp [modelValidate, validField, Fields.empty, h]) _
  · exact validField_keepValid (fun v => by
      cases h : validTools (some v) <;> simp [modelValidate, validField, Fields.empty, h]) _
  · exact validField_keepValid (fun v => by
      cases h : validMember AnswerLength.ofValue (.raw v) <;>
        simp [modelValidate, validField, Fields.empty, h]) _
  · exact validField_keepValid (fun v => by
      cases h : validMember Tone.ofValue (.raw v) <;>
        simp [modelValidate, validField, Fields.empty, h]) _
  · exact validField_keepValid (fun v => by
      cases h : validLanguage (some v) <;> simp [modelValidate, validField, Fields.empty, h]) _
  · exact validField_keepValid (fun v => by
      cases h : validInstructions (some v) <;>
        simp [modelValidate, validField, Fields.empty, h]) _
  · exact validField_keepValid (fun v => by
      cases h : validMember CitationPreference.ofValue (.raw v) <;>
        simp [modelValidate, validField, Fields.empty, h]) _
  · exact validField_keepValid (fun v => by
      cases h : validMember DocumentContext.ofValue (.raw v) <;>
        simp [modelValidate, validField, Fields.empty, h]) _

theorem valid_of_fromRow {row : Option StoredFields} {prefs : UserPreferences}
    (h : fromRow row = some prefs) : ValidDocument prefs := by
  cases row with
  | none =>
      cases h
      exact valid_default
  | some row => exact (modelValidate_eq_some_iff.mp h).valid

theorem StoredFields.valid_document (row : StoredFields) : ValidDocument row.document :=
  valid_of_fromRow (fromRow_some row)

end Preferences
end ConversationService
