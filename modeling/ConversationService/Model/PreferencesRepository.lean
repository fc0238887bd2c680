import ConversationService.Library.Pools
import ConversationService.Model.PreferencesService
import ConversationService.Python.Strip
import ConversationService.Python.UuidText

/-!
# Saved preferences

`PreferencesRepository` of `app/repositories/pg_repositories.py`, the partial update of
`app/models/preferences.py`, and `get`, `update` and `reset` of
`app/services/preferences_service.py`. The table `user_preferences` has at most one row for
each user; every statement is atomic and takes effect at once.
-/

namespace ConversationService

open Python Programs

/-!
# Custom modes as defaults
-/

/-- `custom_ref(mode_id)` -/
def customRef (modeId : UUID) : Text :=
  customPrefix ++ modeId.toText

/-- What `_clean_mode` returns is stripped and in lower case. -/
structure IsCleanMode (mode : Text) : Prop where
  stripped : strip mode = mode
  lower : mode.map lowerAscii = mode

theorem smallDigit_not_space {c : CodePoint} (h : IsSmallDigit c) : isSpace c = false := by
  rcases Option.isSome_iff_exists.mp h.right with ⟨d, hd⟩
  have hlt := hexValue_lt hd
  have hval := smallDigit_val h hd
  by_cases hten : d < 10
  · rw [if_pos hten] at hval
    simp [isSpace, hval]
    omega
  · rw [if_neg hten] at hval
    simp [isSpace, hval]
    omega

theorem isCleanMode_customRef (modeId : UUID) : IsCleanMode (customRef modeId) := by
  constructor
  · apply UUID.stripBy_of_forall
    intro c hc
    rcases List.mem_append.mp hc with hprefixed | htext
    · have hall : customPrefix.all (fun c => !isSpace c) = true := by decide
      simpa using List.all_eq_true.mp hall c hprefixed
    · rcases mem_toText htext with hsmall | rfl
      · exact smallDigit_not_space hsmall
      · decide
  · have hstart : customPrefix.map lowerAscii = customPrefix := by decide
    have htext : modeId.toText.map lowerAscii = modeId.toText.map id := by
      apply List.map_congr_left
      intro c hc
      rcases mem_toText hc with hsmall | rfl
      · exact hsmall.left
      · decide
    unfold customRef
    rw [List.map_append, hstart, htext, List.map_id]

theorem takeHex_eq {n : Nat} {s t : Text} (h : takeHex n s = some t) :
    exists digits : Text, s = digits ++ t ∧ digits.length = n ∧
      forall c, c ∈ digits -> (hexValue c).isSome = true := by
  unfold takeHex at h
  split at h
  · rename_i hdigits
    cases h
    exact ⟨s.take n, (List.take_append_drop n s).symm, hdigits.left,
      fun c hc => List.all_eq_true.mp hdigits.right c hc⟩
  · cases h

theorem takeDash_eq {s t : Text} (h : takeDash s = some t) : s = text "-" ++ t := by
  unfold takeDash at h
  split at h
  · rename_i c rest
    split at h
    · rename_i hdash
      cases h
      have hc : c = 0x2D := Fin.ext hdash
      rw [hc]
      rfl
    · cases h
  · cases h

theorem customRef_of_parse {mode : Text} {modeId : UUID} (hclean : IsCleanMode mode)
    (h : parseCustomRef mode = some modeId) : customRef modeId = mode := by
  unfold parseCustomRef at h
  dsimp only at h
  rw [hclean.stripped] at h
  split at h
  · rename_i hshape
    rcases hshape with ⟨hcustom, hgroups⟩
    rcases List.isPrefixOf_iff_prefix.mp hcustom with ⟨group, hmode⟩
    have hdrop : mode.drop customPrefix.length = group := by
      rw [← hmode]
      exact List.drop_left
    rw [hdrop] at h hgroups
    have hlower : forall c, c ∈ group -> lowerAscii c = c := by
      intro c hc
      have hmem : c ∈ mode := by
        rw [← hmode]
        exact List.mem_append_right _ hc
      exact List.map_inj_left.mp (hclean.lower.trans (List.map_id mode).symm) c hmem
    have hsome := eq_of_beq hgroups
    simp only [Option.bind_eq_some_iff] at hsome
    rcases hsome with
      ⟨_, ⟨_, ⟨_, ⟨_, ⟨_, ⟨_, ⟨_, ⟨_, h1, h2⟩, h3⟩, h4⟩, h5⟩, h6⟩, h7⟩, h8⟩, h9⟩
    rcases takeHex_eq h1 with ⟨a, ha, hla, hha⟩
    rcases takeHex_eq h3 with ⟨b, hb, hlb, hhb⟩
    rcases takeHex_eq h5 with ⟨c, hc, hlc, hhc⟩
    rcases takeHex_eq h7 with ⟨d, hd, hld, hhd⟩
    rcases takeHex_eq h9 with ⟨e, he, hle, hhe⟩
    have hgroup : group = a ++ (text "-" ++ (b ++ (text "-" ++ (c ++ (text "-" ++
        (d ++ (text "-" ++ e))))))) := by
      rw [ha, takeDash_eq h2, hb, takeDash_eq h4, hc, takeDash_eq h6, hd, takeDash_eq h8, he,
        List.append_nil]
    have hsmall : forall x, x ∈ a ++ (b ++ (c ++ (d ++ e))) -> IsSmallDigit x := by
      intro x hx
      have hmem : x ∈ group := by
        rw [hgroup]
        simp only [List.mem_append] at hx ⊢
        tauto
      refine ⟨hlower x hmem, ?_⟩
      simp only [List.mem_append] at hx
      rcases hx with hx | hx | hx | hx | hx
      · exact hha x hx
      · exact hhb x hx
      · exact hhc x hx
      · exact hhd x hx
      · exact hhe x hx
    rcases exists_toText hla hlb hlc hld hle hsmall with ⟨u, hu⟩
    have htext : u.toText = group := hu.trans hgroup.symm
    rw [← htext, UUID.parse_toText] at h
    cases h
    unfold customRef
    rw [htext, hmode]
  · cases h

/-!
# Rows and documents
-/

/-- A validated document. -/
structure CleanPreferences where
  prefs : UserPreferences
  clean : forall mode, prefs.defaultMode = some mode -> IsCleanMode mode

/-- `UserPreferences()` -/
def CleanPreferences.default : CleanPreferences :=
  ⟨.default, fun _ h => nomatch h⟩

/-- The columns that a save writes; a custom default is kept as a foreign key. -/
structure PreferenceColumns where
  defaultMode : Option Text
  defaultCustomModeId : Option UUID
  defaultTools : List Text
  answerLength : AnswerLength
  tone : Tone
  language : Text
  personalInstructions : Text
  citations : CitationPreference
  documentContext : DocumentContext
  updatedAt : Datetime
  clean : forall mode, defaultMode = some mode -> IsCleanMode mode

/-- A row of `user_preferences`; the table checks that its version is positive. -/
structure UserPreferenceRecord where
  columns : PreferenceColumns
  version : Nat
  positive : 1 ≤ version

/-- `UserPreferences.from_row` of `_to_dict(row)`; the values are valid ones. -/
def PreferenceColumns.document (c : PreferenceColumns) : CleanPreferences where
  prefs :=
    { defaultMode :=
        match c.defaultCustomModeId with
        | some modeId => some (customRef modeId)
        | none => c.defaultMode
      defaultTools := c.defaultTools
      answerLength := c.answerLength
      tone := c.tone
      language := c.language
      personalInstructions := c.personalInstructions
      citations := c.citations
      documentContext := c.documentContext }
  clean := by
    intro mode h
    cases hcustom : c.defaultCustomModeId with
    | some modeId =>
        rw [hcustom] at h
        cases h
        exact isCleanMode_customRef modeId
    | none =>
        rw [hcustom] at h
        exact c.clean mode h

/-- The columns of a document whose default mode is the custom one, if an id is given. -/
def CleanPreferences.columns (p : CleanPreferences) (customId : Option UUID)
    (updatedAt : Datetime) : PreferenceColumns where
  defaultMode := if customId.isSome then none else p.prefs.defaultMode
  defaultCustomModeId := customId
  defaultTools := p.prefs.defaultTools
  answerLength := p.prefs.answerLength
  tone := p.prefs.tone
  language := p.prefs.language
  personalInstructions := p.prefs.personalInstructions
  citations := p.prefs.citations
  documentContext := p.prefs.documentContext
  updatedAt := updatedAt
  clean := by
    intro mode h
    split at h
    · cases h
    · exact p.clean mode h

/-- The document of a user, who has the default one without a row. -/
def documentOf (row : Option UserPreferenceRecord) : CleanPreferences :=
  match row with
  | some row => row.columns.document
  | none => .default

/-- The version of a row, by which 0 stands for "no row yet". -/
def preferenceVersion (row : Option UserPreferenceRecord) : Nat :=
  match row with
  | some row => row.version
  | none => 0

/-!
# Partial updates
-/

/--
The body of a PATCH request behind its validators. A field is `none` if it was not sent and
`some none` if it was sent as null, which for the mode is Auto.
-/
structure PreferencesUpdate where
  version : Option Nat
  defaultMode : Option (Option Text)
  defaultTools : Option (Option (List Text))
  answerLength : Option (Option AnswerLength)
  tone : Option (Option Tone)
  language : Option (Option Text)
  personalInstructions : Option (Option Text)
  citations : Option (Option CitationPreference)
  documentContext : Option (Option DocumentContext)
  clean : forall mode, defaultMode = some (some mode) -> IsCleanMode mode

/-- The new value of a field that cannot be null. -/
def requiredField {alpha : Type} (sent : Option (Option alpha)) (old : alpha) : Option alpha :=
  sent.getD (some old)

/-- The new value of a field whose validator has a value for null. -/
def nullableField {alpha : Type} (empty : alpha) (sent : Option (Option alpha)) (old : alpha) :
    alpha :=
  match sent with
  | some value => value.getD empty
  | none => old

/-- `{**prefs.model_dump(), **patch.changes()}`, unless a null is refused. -/
def PreferencesUpdate.mergedPreferences (patch : PreferencesUpdate) (prefs : UserPreferences) :
    Option UserPreferences := do
  let answerLength <- requiredField patch.answerLength prefs.answerLength
  let tone <- requiredField patch.tone prefs.tone
  let language <- requiredField patch.language prefs.language
  let citations <- requiredField patch.citations prefs.citations
  let documentContext <- requiredField patch.documentContext prefs.documentContext
  pure
    { defaultMode := patch.defaultMode.getD prefs.defaultMode
      defaultTools := nullableField [] patch.defaultTools prefs.defaultTools
      answerLength := answerLength
      tone := tone
      language := language
      personalInstructions :=
        nullableField [] patch.personalInstructions prefs.personalInstructions
      citations := citations
      documentContext := documentContext }

theorem mergedPreferences_mode {patch : PreferencesUpdate} {prefs merged : UserPreferences}
    (h : patch.mergedPreferences prefs = some merged) :
    merged.defaultMode = patch.defaultMode.getD prefs.defaultMode := by
  unfold PreferencesUpdate.mergedPreferences at h
  simp only [Option.bind_eq_bind, Option.bind_eq_some_iff] at h
  rcases h with ⟨_, _, _, _, _, _, _, _, _, _, hmerged⟩
  cases hmerged
  rfl

/-- `UserPreferences.model_validate` of the merged fields. -/
def PreferencesUpdate.merge (patch : PreferencesUpdate) (p : CleanPreferences) :
    Option CleanPreferences :=
  match h : patch.mergedPreferences p.prefs with
  | some merged =>
      some ⟨merged, by
        intro mode hmode
        rw [mergedPreferences_mode h] at hmode
        cases hsent : patch.defaultMode with
        | some sent =>
            rw [hsent] at hmode
            exact patch.clean mode (by rw [hsent]; exact congrArg some hmode)
        | none =>
            rw [hsent] at hmode
            exact p.clean mode hmode⟩
  | none => none

/-!
# Statements
-/

/-- The modes and tools that the LLM service offers. -/
structure Catalog where
  modes : List Text
  tools : List Text
deriving DecidableEq, Repr

/--
What a load has read. `changes` says how often the row had changed by then; the code does
not know it.
-/
structure PreferencesReading where
  row : Option UserPreferenceRecord
  changes : Nat

/-- The version of a written row, if any, or a violated constraint. -/
inductive WriteAnswer where
  | returned (version : Option Nat)
  | integrityError
deriving DecidableEq, Repr

/-- `past` are the contents that each user's row has had, newest first. -/
structure SettingsStore where
  preferences : UUID -> Option UserPreferenceRecord
  past : UUID -> List (Option UserPreferenceRecord)
  /-- `custom_modes`, by mode id, with the owner -/
  customModes : UUID -> Option (UUID × CustomModeRecord)
  /-- what `ModeCatalog.get` returns -/
  catalog : Option Catalog

inductive SettingsOp where
  | selectPreferences (userId : UUID)
  -- the last argument says what the save goes by
  | insertPreferences (userId : UUID) (columns : PreferenceColumns) (read : PreferencesReading)
  | updatePreferences (userId : UUID) (columns : PreferenceColumns) (expectedVersion : Nat)
      (read : PreferencesReading)
  | selectPreferencesVersion (userId : UUID)
  | deletePreferences (userId : UUID)
  | selectActiveMode (ownerId modeId : UUID)
  | getCatalog

@[reducible] def SettingsOp.Res : SettingsOp -> Type
  | .selectPreferences _ => PreferencesReading
  | .insertPreferences _ _ _ => WriteAnswer
  | .updatePreferences _ _ _ _ => WriteAnswer
  | .selectPreferencesVersion _ => Option Nat
  | .deletePreferences _ => Unit
  | .selectActiveMode _ _ => Option CustomModeRecord
  | .getCatalog => Option Catalog

def settingsTables : Signature where
  Op := SettingsOp
  Res := SettingsOp.Res

namespace SettingsStore

/-- Another content of a user's row. -/
def change (s : SettingsStore) (userId : UUID) (row : Option UserPreferenceRecord) :
    SettingsStore :=
  { s with
    preferences := Function.update s.preferences userId row
    past := Function.update s.past userId (s.preferences userId :: s.past userId) }

/-- The foreign key of the custom default refers to a mode. -/
def keyHolds (s : SettingsStore) (columns : PreferenceColumns) : Bool :=
  match columns.defaultCustomModeId with
  | some modeId => (s.customModes modeId).isSome
  | none => true

theorem firstVersion_positive : 1 ≤ 1 := Nat.le_refl 1

def insert (s : SettingsStore) (userId : UUID) (columns : PreferenceColumns) :
    WriteAnswer × SettingsStore :=
  match s.preferences userId with
  -- ON CONFLICT DO NOTHING
  | some _ => (.returned none, s)
  | none =>
      if s.keyHolds columns then
        (.returned (some 1), s.change userId (some ⟨columns, 1, firstVersion_positive⟩))
      else (.integrityError, s)

def update (s : SettingsStore) (userId : UUID) (columns : PreferenceColumns)
    (expectedVersion : Nat) : WriteAnswer × SettingsStore :=
  match s.preferences userId with
  | some row =>
      if row.version = expectedVersion then
        if s.keyHolds columns then
          (.returned (some (expectedVersion + 1)),
            s.change userId (some ⟨columns, expectedVersion + 1, Nat.le_add_left 1 _⟩))
        else (.integrityError, s)
      else (.returned none, s)
  | none => (.returned none, s)

def delete (s : SettingsStore) (userId : UUID) : SettingsStore :=
  match s.preferences userId with
  | some _ => s.change userId none
  | none => s

end SettingsStore

def SettingsOp.exec : (o : SettingsOp) -> SettingsStore -> o.Res × SettingsStore
  | .selectPreferences userId, s =>
      (⟨s.preferences userId, (s.past userId).length⟩, s)
  | .insertPreferences userId columns _, s => s.insert userId columns
  | .updatePreferences userId columns expectedVersion _, s =>
      s.update userId columns expectedVersion
  | .selectPreferencesVersion userId, s =>
      ((s.preferences userId).map UserPreferenceRecord.version, s)
  | .deletePreferences userId, s => ((), s.delete userId)
  | .selectActiveMode ownerId modeId, s =>
      (((s.customModes modeId).filter (fun m => decide (m.1 = ownerId) && m.2.active)).map
        Prod.snd, s)
  | .getCatalog, s => (s.catalog, s)

def settingsMachine : Machine settingsTables SettingsStore where
  exec := SettingsOp.exec

/-!
# The service
-/

inductive SettingsExc where
  | conflict (currentVersion : Nat)
  | unknownCatalogItem (message : Text)
  | invalidDefaultMode (message : Text)
  | validation
  | database
deriving DecidableEq, Repr

abbrev SettingsProg : Type -> Type :=
  Prog settingsTables SettingsExc

namespace PreferencesRepository

/-- `session.execute` -/
def execute (o : SettingsOp) : SettingsProg o.Res :=
  Prog.perform (S := settingsTables) SettingsExc.database o

def get (userId : UUID) : SettingsProg PreferencesReading :=
  execute (.selectPreferences userId)

/-- Version 0 stands for "no row yet". -/
def write (userId : UUID) (columns : PreferenceColumns) (expectedVersion : Nat)
    (read : PreferencesReading) : SettingsProg WriteAnswer :=
  if expectedVersion = 0 then execute (.insertPreferences userId columns read)
  else execute (.updatePreferences userId columns expectedVersion read)

/-- The new version, or the reason why nothing was written. -/
def written (userId : UUID) (answer : WriteAnswer) : SettingsProg Nat :=
  match answer with
  | .integrityError => Prog.raise (.invalidDefaultMode (text "Invalid default mode."))
  | .returned (some version) => pure version
  | .returned none => do
      let current : Option Nat <- execute (.selectPreferencesVersion userId)
      Prog.raise (.conflict (current.getD 0))

def save (userId : UUID) (columns : PreferenceColumns) (expectedVersion : Nat)
    (read : PreferencesReading) : SettingsProg Nat := do
  let answer <- write userId columns expectedVersion read
  written userId answer

def delete (userId : UUID) : SettingsProg Unit :=
  execute (.deletePreferences userId)

end PreferencesRepository

/-- The answer of the API. -/
structure PreferencesResponse where
  prefs : UserPreferences
  defaultModeAvailable : Bool
  version : Nat
  updatedAt : Option Datetime
deriving DecidableEq, Repr

namespace PreferencesService

/-- `parse_custom_ref(prefs.default_mode) if prefs.default_mode else None` -/
def customDefault (prefs : UserPreferences) : Option UUID :=
  (nonempty? prefs.defaultMode).bind parseCustomRef

def defaultModeAvailable (userId : UUID) (prefs : UserPreferences) : SettingsProg Bool :=
  match customDefault prefs with
  | none => pure true
  | some ref => do
      let mode : Option CustomModeRecord <-
        PreferencesRepository.execute (.selectActiveMode userId ref)
      pure mode.isSome

def get (userId : UUID) : SettingsProg PreferencesResponse := do
  let read <- PreferencesRepository.get userId
  let prefs := (documentOf read.row).prefs
  let available <- defaultModeAvailable userId prefs
  pure
    { prefs := prefs
      defaultModeAvailable := available
      version := preferenceVersion read.row
      updatedAt := read.row.map (fun row => row.columns.updatedAt) }

/-- The built-in mode that has to be looked up. -/
def modeToCheck (patch : PreferencesUpdate) : Option Text :=
  (patch.defaultMode.bind id).filter (fun mode => !isCustomRef mode)

/-- The check of a patch against the catalog. -/
def checkCatalog (catalog : Catalog) (merged : UserPreferences) (patch : PreferencesUpdate) :
    SettingsProg Unit :=
  match (modeToCheck patch).filter (fun mode => mode ∉ catalog.modes) with
  | some mode =>
      Prog.raise (.unknownCatalogItem (text "Unknown or unavailable mode: " ++ mode))
  | none =>
      if (patch.defaultTools.bind id).isSome then
        match merged.defaultTools.find? (fun t => t ∉ catalog.tools) with
        | some t => Prog.raise (.unknownCatalogItem (text "Unknown or unavailable tool: " ++ t))
        | none => pure ()
      else pure ()

/-- `hasCatalog` says whether the service was given a catalog. -/
def validateCatalog (hasCatalog : Bool) (merged : UserPreferences)
    (patch : PreferencesUpdate) : SettingsProg Unit :=
  if !hasCatalog then pure ()
  else if (modeToCheck patch).isNone && (patch.defaultTools.bind id).isNone then pure ()
  else do
    let catalog : Option Catalog <- PreferencesRepository.execute .getCatalog
    match catalog with
    | none => pure ()
    | some catalog => checkCatalog catalog merged patch

/-- The id of a custom default, which has to be an active mode of the user. -/
def resolveDefault (userId : UUID) (merged : UserPreferences) : SettingsProg (Option UUID) :=
  match customDefault merged with
  | none => pure none
  | some ref => do
      let mode : Option CustomModeRecord <-
        PreferencesRepository.execute (.selectActiveMode userId ref)
      if mode.isNone then
        Prog.raise (.invalidDefaultMode (text "That custom mode does not exist."))
      else pure (some ref)

/-- The arguments of an update, and the time that its save reads. -/
structure UpdateArgs where
  userId : UUID
  patch : PreferencesUpdate
  now : Datetime

/-- What an attempt writes on top of what it has read. -/
def saveMerged (args : UpdateArgs) (read : PreferencesReading) (merged : CleanPreferences)
    (customId : Option UUID) : SettingsProg PreferencesResponse := do
  let _ <- PreferencesRepository.save args.userId (merged.columns customId args.now)
    (preferenceVersion read.row) read
  get args.userId

/-- One attempt up to its save; `write` is what follows. -/
def attempt (hasCatalog : Bool) (args : UpdateArgs)
    (write : PreferencesReading -> CleanPreferences -> Option UUID ->
      SettingsProg PreferencesResponse) : SettingsProg PreferencesResponse := do
  let read <- PreferencesRepository.get args.userId
  let storedVersion := preferenceVersion read.row
  if args.patch.version.any (fun version => version ≠ storedVersion) then
    Prog.raise (.conflict storedVersion)
  else
    match args.patch.merge (documentOf read.row) with
    | none => Prog.raise .validation
    | some merged => do
        validateCatalog hasCatalog merged.prefs args.patch
        let customId <- resolveDefault args.userId merged.prefs
        write read merged customId

/-- The loop of `update`; only a conflict of the save itself leads to another attempt. -/
def updateFrom (hasCatalog : Bool) (args : UpdateArgs) :
    Nat -> SettingsProg PreferencesResponse
  | 0 => Prog.raise (.conflict 0)
  | attempts + 1 =>
      attempt hasCatalog args (fun read merged customId =>
        Prog.tryCatch (saveMerged args read merged customId) (fun e =>
          match e with
          | .conflict _ =>
              if attempts = 0 then Prog.raise e else updateFrom hasCatalog args attempts
          | e => Prog.raise e))

def update (hasCatalog : Bool) (args : UpdateArgs) : SettingsProg PreferencesResponse :=
  updateFrom hasCatalog args (if args.patch.version.isSome then 1 else 3)

def reset (userId : UUID) : SettingsProg PreferencesResponse := do
  PreferencesRepository.delete userId
  get userId

end PreferencesService

/-!
# Any number of calls
-/

/-- `readAt` says which content of the row a client has seen the given version of. -/
inductive SettingsCall where
  | update (args : PreferencesService.UpdateArgs) (readAt : Nat)
  | reset (userId : UUID)

def SettingsCall.program (hasCatalog : Bool) : SettingsCall -> SettingsProg PreferencesResponse
  | .update args _ => PreferencesService.update hasCatalog args
  | .reset userId => PreferencesService.reset userId

abbrev SettingsTask : Type :=
  Task SettingsCall settingsTables SettingsExc PreferencesResponse

abbrev SettingsPool : Type :=
  Pool SettingsCall settingsTables SettingsExc PreferencesResponse SettingsStore

end ConversationService
