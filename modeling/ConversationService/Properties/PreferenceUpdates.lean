import Mathlib.Data.List.Chain
import ConversationService.Library.TaskLogs
import ConversationService.Model.PreferencesRepository

/-!
# Updates of preferences

Any number of updates and resets, statement by statement. An update writes what it has read
with the fields that were sent, over a row that has the version it has read. As long as a
row is not deleted the version counts its changes, so that it stands for one document.
After a reset it begins again with 1. This module proves that a save which finds its version
loses nothing if the row has not been reset since that version was read, and plays out a run
in which it has.
-/

namespace ConversationService

open Python Programs

/-!
# The contents of a row
-/

namespace SettingsStore

/-- The contents of a user's row so far, newest first. -/
def contents (s : SettingsStore) (userId : UUID) : List (Option UserPreferenceRecord) :=
  s.preferences userId :: s.past userId

def changes (s : SettingsStore) (userId : UUID) : Nat :=
  (s.past userId).length

/-- After so many changes the row had this content. -/
def HadContent (s : SettingsStore) (userId : UUID) (i : Nat)
    (row : Option UserPreferenceRecord) : Prop :=
  exists newer older, s.contents userId = newer ++ row :: older ∧ older.length = i

/-- Since then the row has not been deleted. -/
def NotResetSince (s : SettingsStore) (userId : UUID) (i : Nat) : Prop :=
  forall newer row older, s.contents userId = newer ++ row :: older -> older.length = i ->
    none ∉ newer

end SettingsStore

/-- A change is a reset, or it raises the version by one. -/
def NextContent (newer older : Option UserPreferenceRecord) : Prop :=
  newer = none ∨ preferenceVersion newer = preferenceVersion older + 1

/-- Without resets the version counts the changes. -/
theorem version_of_chain {newer older : List (Option UserPreferenceRecord)}
    {row : Option UserPreferenceRecord}
    (hchain : (newer ++ row :: older).IsChain NextContent) (hreset : none ∉ newer) :
    forall current, (newer ++ row :: older).head? = some current ->
      preferenceVersion current = preferenceVersion row + newer.length := by
  induction newer with
  | nil =>
      intro current hcurrent
      cases hcurrent
      rfl
  | cons newest rest ih =>
      intro current hcurrent
      cases hcurrent
      rcases List.isChain_cons.mp hchain with ⟨hnext, hrest⟩
      cases hhead : (rest ++ row :: older).head? with
      | none => simp at hhead
      | some next =>
          have hversion := ih hrest (fun hmem => hreset (List.mem_cons_of_mem _ hmem)) next hhead
          rcases hnext next hhead with hnone | hraised
          · exact absurd (hnone ▸ List.mem_cons_self) hreset
          · rw [hraised, hversion, List.length_cons]
            omega

/-!
# What a save does
-/

/-- The user, the columns, the expected version and the reading of a save. -/
structure Saving where
  userId : UUID
  columns : PreferenceColumns
  expectedVersion : Nat
  read : PreferencesReading

def SettingsOp.saving : SettingsOp -> Option Saving
  | .insertPreferences userId columns read => some ⟨userId, columns, 0, read⟩
  | .updatePreferences userId columns expectedVersion read =>
      some ⟨userId, columns, expectedVersion, read⟩
  | _ => none

/-- The save finds the version that it expects. -/
def Saving.Matches (saving : Saving) (s : SettingsStore) : Prop :=
  preferenceVersion (s.preferences saving.userId) = saving.expectedVersion

/-- The save writes. -/
structure Saving.Writes (saving : Saving) (s t : SettingsStore) : Prop where
  «matches» : saving.Matches s
  stored : t = s.change saving.userId
    (some ⟨saving.columns, saving.expectedVersion + 1, Nat.le_add_left 1 _⟩)

/-- The answer of a save that has written. -/
def SettingsOp.Saved (o : SettingsOp) (answer : o.Res) (saving : Saving) : Prop :=
  match o, answer with
  | .insertPreferences userId columns read, .returned (some _) =>
      saving = ⟨userId, columns, 0, read⟩
  | .updatePreferences userId columns expectedVersion read, .returned (some _) =>
      saving = ⟨userId, columns, expectedVersion, read⟩
  | _, _ => False

theorem saving_of_saved {o : SettingsOp} {answer : o.Res} {saving : Saving}
    (h : o.Saved answer saving) : o.saving = some saving := by
  unfold SettingsOp.Saved at h
  split at h
  · rw [h]
    rfl
  · rw [h]
    rfl
  · exact h.elim

/-- What an operation does to the rows; the save that says so has written. -/
inductive SettingsStep (s : SettingsStore) (o : SettingsOp) : Prop where
  | same : (o.exec s).2 = s -> (forall saving, ¬o.Saved (o.exec s).1 saving) -> SettingsStep s o
  | saved (saving : Saving) : o.saving = some saving -> saving.Writes s (o.exec s).2 ->
      SettingsStep s o
  | reset (userId : UUID) : o = .deletePreferences userId ->
      (o.exec s).2 = s.change userId none -> SettingsStep s o

section Steps

variable {s : SettingsStore} {userId : UUID} {columns : PreferenceColumns}
  {read : PreferencesReading}

/-- A save that is refused leaves the rows alone and does not say that it has written. -/
theorem settingsStep_refused {o : SettingsOp} {answer : o.Res} (hexec : o.exec s = (answer, s))
    (hanswer : forall saving, ¬o.Saved answer saving) : SettingsStep s o := by
  refine .same (by rw [hexec]) ?_
  rw [hexec]
  exact hanswer

theorem settingsStep_insert : SettingsStep s (.insertPreferences userId columns read) := by
  cases hrow : s.preferences userId with
  | some row =>
      refine settingsStep_refused
        (show s.insert userId columns = (.returned none, s) from ?_) (fun _ h => h)
      simp [SettingsStore.insert, hrow]
  | none =>
      by_cases hkey : s.keyHolds columns = true
      · refine .saved _ rfl ⟨?_, ?_⟩
        · show preferenceVersion (s.preferences userId) = 0
          rw [hrow]
          rfl
        · show (s.insert userId columns).2 = _
          unfold SettingsStore.insert
          rw [hrow]
          dsimp only
          rw [if_pos hkey]
      · refine settingsStep_refused
          (show s.insert userId columns = (.integrityError, s) from ?_) (fun _ h => h)
        simp [SettingsStore.insert, hrow, hkey]

theorem settingsStep_update {expectedVersion : Nat} :
    SettingsStep s (.updatePreferences userId columns expectedVersion read) := by
  have hmissed : s.update userId columns expectedVersion = (.returned none, s) ->
      SettingsStep s (.updatePreferences userId columns expectedVersion read) :=
    fun hupdate => settingsStep_refused
      (show SettingsOp.exec (.updatePreferences userId columns expectedVersion read) s =
        (.returned none, s) from hupdate) (fun _ h => h)
  cases hrow : s.preferences userId with
  | none => exact hmissed (by simp [SettingsStore.update, hrow])
  | some row =>
      by_cases hversion : row.version = expectedVersion
      · by_cases hkey : s.keyHolds columns = true
        · refine .saved _ rfl ⟨?_, ?_⟩
          · show preferenceVersion (s.preferences userId) = expectedVersion
            rw [hrow]
            exact hversion
          · show (s.update userId columns expectedVersion).2 = _
            unfold SettingsStore.update
            rw [hrow]
            dsimp only
            rw [if_pos hversion, if_pos hkey]
        · refine settingsStep_refused
            (show s.update userId columns expectedVersion = (.integrityError, s) from ?_)
            (fun _ h => h)
          simp [SettingsStore.update, hrow, hversion, hkey]
      · exact hmissed (by simp [SettingsStore.update, hrow, hversion])

theorem settingsStep_delete : SettingsStep s (.deletePreferences userId) := by
  cases hrow : s.preferences userId with
  | none =>
      refine .same ?_ (fun _ hsaved => hsaved)
      show s.delete userId = s
      unfold SettingsStore.delete
      rw [hrow]
  | some row =>
      apply SettingsStep.reset userId rfl
      show s.delete userId = _
      unfold SettingsStore.delete
      rw [hrow]

end Steps

theorem settingsStep_exec (s : SettingsStore) (o : SettingsOp) : SettingsStep s o := by
  cases o with
  | selectPreferences userId => exact .same rfl (fun _ hsaved => hsaved)
  | selectPreferencesVersion userId => exact .same rfl (fun _ hsaved => hsaved)
  | selectActiveMode ownerId modeId => exact .same rfl (fun _ hsaved => hsaved)
  | getCatalog => exact .same rfl (fun _ hsaved => hsaved)
  | deletePreferences userId => exact settingsStep_delete
  | insertPreferences userId columns read => exact settingsStep_insert
  | updatePreferences userId columns expectedVersion read => exact settingsStep_update

/-!
# Merging and storing
-/

/-- Exactly the fields that were sent are replaced; a null stands for the empty value. -/
structure OnlySentReplaced (patch : PreferencesUpdate) (before after : UserPreferences) :
    Prop where
  defaultMode : after.defaultMode = patch.defaultMode.getD before.defaultMode
  defaultTools : some after.defaultTools =
    (patch.defaultTools.map (fun value => value.getD [])).or (some before.defaultTools)
  answerLength : some after.answerLength = patch.answerLength.getD (some before.answerLength)
  tone : some after.tone = patch.tone.getD (some before.tone)
  language : some after.language = patch.language.getD (some before.language)
  personalInstructions : some after.personalInstructions =
    (patch.personalInstructions.map (fun value => value.getD [])).or
      (some before.personalInstructions)
  citations : some after.citations = patch.citations.getD (some before.citations)
  documentContext : some after.documentContext =
    patch.documentContext.getD (some before.documentContext)

theorem nullableField_eq {alpha : Type} (empty : alpha) (sent : Option (Option alpha))
    (old : alpha) : some (nullableField empty sent old) =
      (sent.map (fun value => value.getD empty)).or (some old) := by
  cases sent with
  | none => rfl
  | some value => rfl

theorem onlySentReplaced_merge {patch : PreferencesUpdate} {before after : CleanPreferences}
    (h : patch.merge before = some after) :
    OnlySentReplaced patch before.prefs after.prefs := by
  unfold PreferencesUpdate.merge at h
  split at h
  · rename_i merged hmerged
    cases h
    unfold PreferencesUpdate.mergedPreferences requiredField at hmerged
    simp only [Option.bind_eq_bind, Option.bind_eq_some_iff] at hmerged
    rcases hmerged with ⟨_, hlength, _, htone, _, hlanguage, _, hcitations, _, hcontext, heq⟩
    cases heq
    exact ⟨rfl, nullableField_eq _ _ _, hlength.symm, htone.symm, hlanguage.symm,
      nullableField_eq _ _ _, hcitations.symm, hcontext.symm⟩
  · cases h

theorem document_columns (p : CleanPreferences) (now : Datetime) :
    (p.columns (PreferencesService.customDefault p.prefs) now).document.prefs = p.prefs := by
  have hmode : (p.columns (PreferencesService.customDefault p.prefs)
      now).document.prefs.defaultMode = p.prefs.defaultMode := by
    cases hcustom : PreferencesService.customDefault p.prefs with
    | none => rfl
    | some modeId =>
        rcases Option.bind_eq_some_iff.mp hcustom with ⟨mode, hfilter, hparse⟩
        have hmode := (Option.filter_eq_some_iff.mp hfilter).left
        show some (customRef modeId) = p.prefs.defaultMode
        rw [hmode, customRef_of_parse (p.clean mode hmode) hparse]
  have hother : (p.columns (PreferencesService.customDefault p.prefs) now).document.prefs =
      { p.prefs with
        defaultMode := (p.columns (PreferencesService.customDefault p.prefs)
          now).document.prefs.defaultMode } := rfl
  exact hother.trans (by rw [hmode])

/-!
# What an update knows
-/

/-- A content of a user's row that has been read. -/
structure ReadFact where
  userId : UUID
  read : PreferencesReading

def SettingsOp.GoesBy (o : SettingsOp) (fact : ReadFact) : Prop :=
  exists saving, o.saving = some saving ∧ fact = ⟨saving.userId, saving.read⟩

def SettingsOp.Reads (o : SettingsOp) (answer : o.Res) (fact : ReadFact) : Prop :=
  match o, answer with
  | .selectPreferences userId, read => fact = ⟨userId, read⟩
  | _, _ => False

def SettingsStore.Shows (s : SettingsStore) (fact : ReadFact) : Prop :=
  s.HadContent fact.userId fact.read.changes fact.read.row

/-- The program saves on top of what it has read. -/
abbrev GoesByReads {alpha : Type} (known : ReadFact -> Prop) (p : SettingsProg alpha) : Prop :=
  Prog.Informed (S := settingsTables) SettingsOp.GoesBy (fun _ _ _ => True) SettingsOp.Reads
    known p (fun _ _ => True)

/-- The saves of an update write what it has read with the sent fields replaced. -/
structure Saving.SentBy (args : PreferencesService.UpdateArgs) (saving : Saving) : Prop where
  userId : saving.userId = args.userId
  expected : saving.expectedVersion = preferenceVersion saving.read.row
  version : forall version, args.patch.version = some version ->
    version = saving.expectedVersion
  columns : exists merged, args.patch.merge (documentOf saving.read.row) = some merged ∧
    saving.columns = merged.columns (PreferencesService.customDefault merged.prefs) args.now

def SettingsOp.SentBy (call : SettingsCall) (o : SettingsOp) : Prop :=
  match call with
  | .update args _ => (forall userId, o ≠ .deletePreferences userId) ∧
      forall saving, o.saving = some saving -> saving.SentBy args
  | .reset _ => o.saving = none

def SettingsOp.IsRead : SettingsOp -> Prop
  | .insertPreferences _ _ _ => False
  | .updatePreferences _ _ _ _ => False
  | .deletePreferences _ => False
  | _ => True

section Programs

variable {call : SettingsCall} {args : PreferencesService.UpdateArgs}

theorem allOps_execute {P : SettingsOp -> Prop} {o : SettingsOp} (h : P o) :
    Prog.AllOps P (PreferencesRepository.execute o) :=
  ⟨h, fun answer => by
    cases answer with
    | none => trivial
    | some r => trivial⟩

theorem saving_of_isRead {o : SettingsOp} (h : o.IsRead) : o.saving = none := by
  cases o with
  | insertPreferences _ _ _ => exact h.elim
  | updatePreferences _ _ _ _ => exact h.elim
  | _ => rfl

theorem isRead_execute {o : SettingsOp} (h : o.IsRead) :
    Prog.AllOps SettingsOp.IsRead (PreferencesRepository.execute o) :=
  allOps_execute h

theorem sentBy_of_isRead {o : SettingsOp} (h : o.IsRead) : o.SentBy call := by
  have hnone := saving_of_isRead h
  cases call with
  | reset userId => exact hnone
  | update args readAt =>
      refine ⟨?_, ?_⟩
      · rintro userId rfl
        exact h
      · intro saving hsaving
        rw [hnone] at hsaving
        cases hsaving

theorem isRead_defaultModeAvailable (userId : UUID) (prefs : UserPreferences) :
    Prog.AllOps SettingsOp.IsRead
      (PreferencesService.defaultModeAvailable userId prefs) := by
  unfold PreferencesService.defaultModeAvailable
  split
  · trivial
  · exact Prog.allOps_bind (isRead_execute trivial) (fun _ => trivial)

theorem isRead_get (userId : UUID) :
    Prog.AllOps SettingsOp.IsRead (PreferencesService.get userId) := by
  unfold PreferencesService.get PreferencesRepository.get
  refine Prog.allOps_bind (isRead_execute trivial) ?_
  intro read
  exact Prog.allOps_bind (isRead_defaultModeAvailable _ _) (fun _ => trivial)

theorem isRead_validateCatalog (hasCatalog : Bool) (merged : UserPreferences)
    (patch : PreferencesUpdate) :
    Prog.AllOps SettingsOp.IsRead
      (PreferencesService.validateCatalog hasCatalog merged patch) := by
  have hcheck : forall catalog, Prog.AllOps SettingsOp.IsRead
      (PreferencesService.checkCatalog catalog merged patch) := by
    intro catalog
    unfold PreferencesService.checkCatalog
    split
    · trivial
    · split
      · split
        · trivial
        · trivial
      · trivial
  unfold PreferencesService.validateCatalog
  split
  · trivial
  · split
    · trivial
    · refine Prog.allOps_bind (isRead_execute trivial) ?_
      intro catalog
      cases catalog with
      | none => trivial
      | some catalog => exact hcheck catalog

theorem isRead_resolveDefault (userId : UUID) (merged : UserPreferences) :
    Prog.AllOps SettingsOp.IsRead (PreferencesService.resolveDefault userId merged) := by
  unfold PreferencesService.resolveDefault
  split
  · trivial
  · refine Prog.allOps_bind (isRead_execute trivial) ?_
    intro mode
    split
    · trivial
    · trivial

theorem returns_resolveDefault (userId : UUID) (merged : UserPreferences) :
    Prog.Returns (fun customId => customId = PreferencesService.customDefault merged)
      (PreferencesService.resolveDefault userId merged) := by
  unfold PreferencesService.resolveDefault
  split
  · rename_i hnone
    exact hnone.symm
  · rename_i ref hsome
    apply Prog.returns_bind (Prog.returns_trivial _)
    intro mode _
    split
    · trivial
    · exact hsome.symm

theorem isRead_written (userId : UUID) (answer : WriteAnswer) :
    Prog.AllOps SettingsOp.IsRead (PreferencesRepository.written userId answer) := by
  unfold PreferencesRepository.written
  split
  · trivial
  · trivial
  · exact Prog.allOps_bind (isRead_execute trivial) (fun _ => trivial)

theorem allOps_save {P : SettingsOp -> Prop} {userId : UUID} {columns : PreferenceColumns}
    {expected : Nat} {read : PreferencesReading}
    (hplain : forall o : SettingsOp, o.IsRead -> P o)
    (hwrite : forall o, SettingsOp.saving o = some ⟨userId, columns, expected, read⟩ ->
      (forall userId, o ≠ .deletePreferences userId) -> P o) :
    Prog.AllOps P (PreferencesRepository.save userId columns expected read) := by
  unfold PreferencesRepository.save
  apply Prog.allOps_bind
  · unfold PreferencesRepository.write
    split
    · rename_i hzero
      exact allOps_execute (hwrite _ (by rw [hzero]; rfl) (fun _ h => nomatch h))
    · exact allOps_execute (hwrite _ rfl (fun _ h => nomatch h))
  · intro answer
    exact Prog.allOps_mono (isRead_written _ _) hplain

theorem sentBy_attempt {hasCatalog : Bool} {readAt : Nat}
    {write : PreferencesReading -> CleanPreferences -> Option UUID ->
      SettingsProg PreferencesResponse}
    (hwrite : forall read merged,
      Saving.SentBy args ⟨args.userId,
        merged.columns (PreferencesService.customDefault merged.prefs) args.now,
        preferenceVersion read.row, read⟩ ->
      Prog.AllOps (SettingsOp.SentBy (.update args readAt))
        (write read merged (PreferencesService.customDefault merged.prefs))) :
    Prog.AllOps (SettingsOp.SentBy (.update args readAt))
      (PreferencesService.attempt hasCatalog args write) := by
  have hplain : forall {alpha : Type} {p : SettingsProg alpha},
      Prog.AllOps SettingsOp.IsRead p ->
      Prog.AllOps (SettingsOp.SentBy (.update args readAt)) p :=
    fun h => Prog.allOps_mono h (fun _ => sentBy_of_isRead)
  unfold PreferencesService.attempt
  refine Prog.allOps_bind (hplain (isRead_execute trivial)) ?_
  intro read
  dsimp only
  split
  · trivial
  · rename_i hversion
    cases hmerge : args.patch.merge (documentOf read.row) with
    | none => trivial
    | some merged =>
        dsimp only
        apply Prog.allOps_bind (hplain (isRead_validateCatalog _ _ _))
        intro _
        apply Prog.allOps_bind_returns (hplain (isRead_resolveDefault _ _))
          (returns_resolveDefault _ _)
        intro customId hcustom
        subst hcustom
        apply hwrite
        refine ⟨rfl, rfl, ?_, merged, hmerge, rfl⟩
        intro version hsent
        rw [hsent] at hversion
        simpa using hversion

theorem sentBy_updateFrom (hasCatalog : Bool) (readAt attempts : Nat) :
    Prog.AllOps (SettingsOp.SentBy (.update args readAt))
      (PreferencesService.updateFrom hasCatalog args attempts) := by
  induction attempts with
  | zero => trivial
  | succ attempts ih =>
      unfold PreferencesService.updateFrom
      apply sentBy_attempt
      intro read merged hsent
      apply Prog.allOps_tryCatch
      · unfold PreferencesService.saveMerged
        apply Prog.allOps_bind
        · apply allOps_save
          · exact fun _ => sentBy_of_isRead
          · intro o hsaving hdelete
            refine ⟨hdelete, ?_⟩
            intro saving hsaving'
            rw [hsaving] at hsaving'
            cases hsaving'
            exact hsent
        · intro _
          exact Prog.allOps_mono (isRead_get _) (fun _ => sentBy_of_isRead)
      · intro e
        cases e with
        | conflict current =>
            dsimp only
            split
            · trivial
            · exact ih
        | _ => trivial

theorem sentBy_program (hasCatalog : Bool) (call : SettingsCall) :
    Prog.AllOps (SettingsOp.SentBy call) (call.program hasCatalog) := by
  cases call with
  | update args readAt => exact sentBy_updateFrom hasCatalog readAt _
  | reset userId =>
      refine Prog.allOps_bind (allOps_execute (by rfl)) ?_
      intro _
      exact Prog.allOps_mono (isRead_get _) (fun _ => sentBy_of_isRead)

theorem goesByReads_of_isRead {alpha : Type} {known : ReadFact -> Prop}
    {p : SettingsProg alpha} (h : Prog.AllOps SettingsOp.IsRead p) :
    GoesByReads known p := by
  apply Prog.informed_of_allOps
  apply Prog.allOps_mono h
  rintro o hread fact ⟨saving, hsaving, _⟩
  rw [saving_of_isRead hread] at hsaving
  cases hsaving

theorem keepsReads_of_isRead {alpha : Type} {known : ReadFact -> Prop}
    {p : SettingsProg alpha} (h : Prog.AllOps SettingsOp.IsRead p) :
    Prog.Informed (S := settingsTables) SettingsOp.GoesBy (fun _ _ _ => True)
      SettingsOp.Reads known p (fun k _ => forall fact, known fact -> k fact) := by
  apply Prog.informed_kept
  apply Prog.allOps_mono h
  intro o hread
  refine ⟨?_, fun _ _ _ => trivial⟩
  rintro fact ⟨saving, hsaving, _⟩
  rw [saving_of_isRead hread] at hsaving
  cases hsaving

theorem goesByReads_mono {alpha : Type} {known known' : ReadFact -> Prop}
    {p : SettingsProg alpha} (h : GoesByReads known p)
    (hmore : forall fact, known fact -> known' fact) : GoesByReads known' p :=
  Prog.informed_mono h hmore (fun _ _ _ _ _ => trivial)

theorem goesByReads_save {known : ReadFact -> Prop} {userId : UUID}
    {columns : PreferenceColumns} {expected : Nat} {read : PreferencesReading}
    (hknown : known ⟨userId, read⟩) :
    GoesByReads known (PreferencesRepository.save userId columns expected read) := by
  have hneeds : forall o, SettingsOp.saving o = some ⟨userId, columns, expected, read⟩ ->
      forall fact, SettingsOp.GoesBy o fact -> known fact := by
    rintro o hsaving fact ⟨saving, hsaving', rfl⟩
    rw [hsaving] at hsaving'
    cases hsaving'
    exact hknown
  unfold PreferencesRepository.save
  apply Prog.informed_bind
  have hrest : forall k answer,
      GoesByReads k (PreferencesRepository.written userId answer) :=
    fun _ _ => goesByReads_of_isRead (isRead_written _ _)
  unfold PreferencesRepository.write
  split
  · rename_i hzero
    exact ⟨hneeds _ (by rw [hzero]; rfl), fun _ => hrest _ _, trivial⟩
  · exact ⟨hneeds _ rfl, fun _ => hrest _ _, trivial⟩

theorem goesByReads_updateFrom (hasCatalog : Bool) (attempts : Nat)
    (known : ReadFact -> Prop) :
    GoesByReads known (PreferencesService.updateFrom hasCatalog args attempts) := by
  induction attempts generalizing known with
  | zero => trivial
  | succ attempts ih =>
      unfold PreferencesService.updateFrom PreferencesService.attempt
      apply Prog.informed_bind
      refine ⟨?_, fun read => ?_, trivial⟩
      · rintro fact ⟨saving, hsaving, _⟩
        cases hsaving
      · -- what has been read is known from here on
        refine @goesByReads_mono _ (fun fact => fact = ⟨args.userId, read⟩) _ _ ?_ ?_
        · dsimp only
          split
          · trivial
          · cases args.patch.merge (documentOf read.row) with
            | none => trivial
            | some merged =>
                dsimp only
                apply Prog.informed_bind
                apply Prog.informed_mono
                  (keepsReads_of_isRead (isRead_validateCatalog _ _ _))
                  (fun _ h => h)
                intro _ k _ hmore hk
                apply Prog.informed_bind
                apply Prog.informed_mono
                  (keepsReads_of_isRead (isRead_resolveDefault _ _))
                  (fun _ h => h)
                intro _ k' customId hmore' hk'
                have hread : k' ⟨args.userId, read⟩ :=
                  hmore' _ (hk' _ (hmore _ (hk _ rfl)))
                apply Prog.informed_tryCatch
                · unfold PreferencesService.saveMerged
                  apply Prog.informed_bind
                  apply Prog.informed_mono (goesByReads_save hread) (fun _ h => h)
                  intro _ _ _ _ _
                  exact goesByReads_of_isRead (isRead_get _)
                · intro k'' e
                  cases e with
                  | conflict current =>
                      dsimp only
                      split
                      · trivial
                      · exact ih k''
                  | _ => trivial
        · rintro fact rfl
          exact Or.inl rfl

theorem goesByReads_program (hasCatalog : Bool) (call : SettingsCall)
    (known : ReadFact -> Prop) : GoesByReads known (call.program hasCatalog) := by
  cases call with
  | update args readAt => exact goesByReads_updateFrom hasCatalog _ known
  | reset userId =>
      unfold SettingsCall.program PreferencesService.reset PreferencesRepository.delete
      apply Prog.informed_bind
      refine ⟨?_, fun _ => goesByReads_of_isRead (isRead_get _), trivial⟩
      rintro fact ⟨saving, hsaving, _⟩
      cases hsaving

/-!
# An update that returns has saved
-/

/-- The program returns only behind a save that has written. -/
abbrev SavesFirst {alpha : Type} (known : Saving -> Prop) (p : SettingsProg alpha) : Prop :=
  Prog.Informed (S := settingsTables) (fun _ _ => False) (fun _ _ _ => True) SettingsOp.Saved
    known p (fun k _ => exists saving, k saving)

theorem savesFirst_bind {alpha beta : Type} {known : Saving -> Prop} {p : SettingsProg alpha}
    {f : alpha -> SettingsProg beta} (h : forall k a, SavesFirst k (f a)) :
    SavesFirst known (p >>= f) := by
  have hplain : Prog.Informed (S := settingsTables) (fun _ _ => False) (fun _ _ _ => True)
      SettingsOp.Saved known p (fun _ _ => True) :=
    Prog.informed_of_allOps (Prog.allOps_of_forall (fun _ _ hfalse => hfalse) p)
  apply Prog.informed_bind
  exact Prog.informed_mono hplain (fun _ hknown => hknown) (fun _ k a _ _ => h k a)

theorem savesFirst_after {alpha beta : Type} {known : Saving -> Prop} {p : SettingsProg alpha}
    {f : alpha -> SettingsProg beta} (h : SavesFirst known p) : SavesFirst known (p >>= f) := by
  apply Prog.informed_bind
  apply Prog.informed_mono h (fun _ hknown => hknown)
  intro before after a hmore hsaved
  have hkept : Prog.Informed (S := settingsTables) (fun _ _ => False) (fun _ _ _ => True)
      SettingsOp.Saved after (f a) (fun k _ => forall saving, after saving -> k saving) :=
    Prog.informed_kept
      (Prog.allOps_of_forall (fun _ => ⟨fun _ hfalse => hfalse, fun _ _ _ => trivial⟩) (f a))
  apply Prog.informed_mono hkept (fun _ hknown => hknown)
  intro k later _ hlater hall
  rcases hsaved with ⟨saving, hsaving⟩
  exact ⟨saving, hlater saving (hall saving (hmore saving hsaving))⟩

theorem savesFirst_save {known : Saving -> Prop} {userId : UUID} {columns : PreferenceColumns}
    {expected : Nat} {read : PreferencesReading} :
    SavesFirst known (PreferencesRepository.save userId columns expected read) := by
  have hwritten : forall (k : Saving -> Prop) (answer : WriteAnswer),
      (forall version, answer = .returned (some version) -> exists saving, k saving) ->
        SavesFirst k (PreferencesRepository.written userId answer) := by
    intro k answer hk
    cases answer with
    | integrityError => trivial
    | returned version =>
        cases version with
        | some version => exact hk version rfl
        | none => exact ⟨fun _ hfalse => False.elim hfalse, fun _ => trivial, trivial⟩
  unfold PreferencesRepository.save
  apply Prog.informed_bind
  unfold PreferencesRepository.write
  split
  · refine ⟨fun _ hfalse => False.elim hfalse, ?_, trivial⟩
    intro answer
    apply hwritten
    rintro version rfl
    exact ⟨_, Or.inl rfl⟩
  · refine ⟨fun _ hfalse => False.elim hfalse, ?_, trivial⟩
    intro answer
    apply hwritten
    rintro version rfl
    exact ⟨_, Or.inl rfl⟩

theorem savesFirst_updateFrom (hasCatalog : Bool) (attempts : Nat) (known : Saving -> Prop) :
    SavesFirst known (PreferencesService.updateFrom hasCatalog args attempts) := by
  induction attempts generalizing known with
  | zero => trivial
  | succ attempts ih =>
      unfold PreferencesService.updateFrom PreferencesService.attempt
      apply savesFirst_bind
      intro k read
      dsimp only
      split
      · trivial
      · cases args.patch.merge (documentOf read.row) with
        | none => trivial
        | some merged =>
            apply savesFirst_bind
            intro k _
            apply savesFirst_bind
            intro k customId
            apply Prog.informed_tryCatch
            · exact savesFirst_after savesFirst_save
            · intro k e
              cases e with
              | conflict current =>
                  dsimp only
                  split
                  · trivial
                  · exact ih k
              | _ => trivial

theorem writes_of_saved {s : SettingsStore} {o : SettingsOp} {saving : Saving}
    (h : o.Saved (o.exec s).1 saving) : saving.Writes s (o.exec s).2 := by
  cases settingsStep_exec s o with
  | same _ hnot => exact absurd h (hnot saving)
  | saved written hsaving hwrites =>
      rw [saving_of_saved h] at hsaving
      cases hsaving
      exact hwrites
  | reset userId hdelete _ =>
      subst hdelete
      exact h.elim

theorem Saving.Writes.changed {saving : Saving} {s t : SettingsStore} (h : saving.Writes s t) :
    t.preferences ≠ s.preferences := by
  intro hsame
  have hversion : preferenceVersion (t.preferences saving.userId) = saving.expectedVersion + 1 := by
    rw [h.stored]
    show preferenceVersion (Function.update s.preferences saving.userId _ saving.userId) = _
    rw [Function.update_self]
    rfl
  have hmatches : preferenceVersion (s.preferences saving.userId) = saving.expectedVersion :=
    h.matches
  rw [hsame, hmatches] at hversion
  omega

end Programs

/-!
# Runs
-/

/--
A save that finds its version finds the row that was read: the row has not been reset since
this update read it, nor since the client read the version that it sends.
-/
def FindsItsRow (pool : SettingsPool) (t : SettingsTask) : Prop :=
  forall o next saving, t.prog = .op o next -> o.saving = some saving ->
    saving.Matches pool.store ->
      (saving.expectedVersion ≠ 0 ->
        pool.store.NotResetSince saving.userId saving.read.changes) ∧
      forall args readAt, t.call = .update args readAt -> args.patch.version.isSome = true ->
        pool.store.NotResetSince saving.userId readAt

/-- A client sends a version that the row of the user has had. -/
def SentVersionRead (s : SettingsStore) : SettingsCall -> Prop
  | .update args readAt => forall version, args.patch.version = some version ->
      exists row, s.HadContent args.userId readAt row ∧ preferenceVersion row = version
  | .reset _ => True

/-- Any number of updates and resets; statements may raise, and processes may stop. -/
def settingsRules (hasCatalog : Bool) (permits : SettingsPool -> SettingsTask -> Prop) :
    Rules SettingsCall settingsTables SettingsExc PreferencesResponse SettingsStore where
  machine := settingsMachine
  program := SettingsCall.program hasCatalog
  permits := permits
  mayFail _ := True
  mayStart pool call := SentVersionRead pool.store call
  mayStop _ := True
  -- custom modes and the catalog are kept by others
  moves s t := t.preferences = s.preferences ∧ t.past = s.past

/--
The write of an update replaces exactly the sent fields of the document stored before it,
and with a version the row is the one that the client has read.
-/
structure NoChangeLost (args : PreferencesService.UpdateArgs) (readAt : Nat)
    (s t : SettingsStore) : Prop where
  replaced : OnlySentReplaced args.patch (documentOf (s.preferences args.userId)).prefs
    (documentOf (t.preferences args.userId)).prefs
  unchanged : args.patch.version.isSome = true -> readAt = s.changes args.userId

section Runs

/-- Every change of a row is a reset or raises its version by one. -/
def VersionsCount (s : SettingsStore) : Prop :=
  forall userId, (s.contents userId).IsChain NextContent

/-- What is known of a task. -/
structure UpdateKnown (s : SettingsStore) (t : SettingsTask) : Prop where
  sent : Prog.AllOps (SettingsOp.SentBy t.call) t.prog
  informed : exists known, GoesByReads known t.prog ∧ forall fact, known fact -> s.Shows fact
  client : SentVersionRead s t.call

variable {s t : SettingsStore}

theorem contents_change (userId other : UUID) (row : Option UserPreferenceRecord) :
    (s.change userId row).contents other =
      if other = userId then row :: s.contents userId else s.contents other := by
  unfold SettingsStore.contents SettingsStore.change
  by_cases h : other = userId
  · subst h
    rw [if_pos rfl]
    dsimp only
    rw [Function.update_self, Function.update_self]
  · rw [if_neg h]
    dsimp only
    rw [Function.update_of_ne h, Function.update_of_ne h]

theorem hadContent_change {userId other : UUID} {row : Option UserPreferenceRecord} {i : Nat}
    {content : Option UserPreferenceRecord} (h : s.HadContent other i content) :
    (s.change userId row).HadContent other i content := by
  rcases h with ⟨newer, older, hcontents, hlength⟩
  by_cases hother : other = userId
  · subst hother
    refine ⟨row :: newer, older, ?_, hlength⟩
    rw [contents_change, if_pos rfl, hcontents, List.cons_append]
  · refine ⟨newer, older, ?_, hlength⟩
    rw [contents_change, if_neg hother, hcontents]

theorem versionsCount_change {userId : UUID} {row : Option UserPreferenceRecord}
    (h : VersionsCount s) (hrow : NextContent row (s.preferences userId)) :
    VersionsCount (s.change userId row) := by
  intro other
  rw [contents_change]
  split
  · exact List.isChain_cons_cons.mpr ⟨hrow, h userId⟩
  · exact h other

theorem contents_same (hpreferences : t.preferences = s.preferences) (hpast : t.past = s.past)
    (userId : UUID) : t.contents userId = s.contents userId := by
  unfold SettingsStore.contents
  rw [hpreferences, hpast]

theorem updateKnown_later {task : SettingsTask} (h : UpdateKnown s task)
    (hhad : forall userId i row, s.HadContent userId i row -> t.HadContent userId i row) :
    UpdateKnown t task where
  sent := h.sent
  informed := by
    rcases h.informed with ⟨known, hinformed, hshows⟩
    exact ⟨known, hinformed, fun fact hfact => hhad _ _ _ (hshows fact hfact)⟩
  client := by
    have hclient := h.client
    rcases task with ⟨call, prog⟩
    cases call with
    | reset userId => trivial
    | update args readAt =>
        intro version hversion
        rcases hclient version hversion with ⟨row, hrow, heq⟩
        exact ⟨row, hhad _ _ _ hrow, heq⟩

theorem hadContent_exec (o : SettingsOp) (userId : UUID) (i : Nat)
    (row : Option UserPreferenceRecord) (h : s.HadContent userId i row) :
    (o.exec s).2.HadContent userId i row := by
  cases settingsStep_exec s o with
  | same hsame _ =>
      rw [hsame]
      exact h
  | saved saving hsaving hwrites =>
      rw [hwrites.stored]
      exact hadContent_change h
  | reset user _ hreset =>
      rw [hreset]
      exact hadContent_change h

theorem versionsCount_exec (o : SettingsOp) (h : VersionsCount s) :
    VersionsCount (o.exec s).2 := by
  cases settingsStep_exec s o with
  | same hsame _ =>
      rw [hsame]
      exact h
  | saved saving hsaving hwrites =>
      rw [hwrites.stored]
      apply versionsCount_change h
      right
      rw [show preferenceVersion (s.preferences saving.userId) = saving.expectedVersion from
        hwrites.matches]
      rfl
  | reset user _ hreset =>
      rw [hreset]
      exact versionsCount_change h (Or.inl rfl)

theorem shows_of_reads {o : SettingsOp} {fact : ReadFact}
    (h : o.Reads (o.exec s).1 fact) : s.Shows fact := by
  cases o with
  | selectPreferences userId =>
      have hfact : fact = ⟨userId, ⟨s.preferences userId, (s.past userId).length⟩⟩ := h
      rw [hfact]
      exact ⟨[], s.past userId, rfl, rfl⟩
  | _ => exact False.elim h

theorem updateKnown_next {call : SettingsCall} {o : SettingsOp}
    {next : Option o.Res -> SettingsProg PreferencesResponse}
    (h : UpdateKnown s ⟨call, .op o next⟩) :
    UpdateKnown (o.exec s).2 ⟨call, next (some (o.exec s).1)⟩ := by
  have hlater := updateKnown_later h (hadContent_exec o)
  refine ⟨h.sent.right _, ?_, hlater.client⟩
  rcases h.informed with ⟨known, hinformed, hshows⟩
  refine ⟨_, hinformed.right.left (o.exec s).1, ?_⟩
  intro fact hfact
  rcases hfact with hread | ⟨hknown, _⟩
  · exact hadContent_exec o _ _ _ (shows_of_reads hread)
  · exact hadContent_exec o _ _ _ (hshows fact hknown)

theorem localProof_settings (hasCatalog : Bool)
    (permits : SettingsPool -> SettingsTask -> Prop) :
    Pool.LocalProof (settingsRules hasCatalog permits)
      (fun pool => VersionsCount pool.store) UpdateKnown (fun _ _ => True) where
  symm _ _ _ := trivial
  own before after call o next s h _ := by
    have hown := h.each _ (List.mem_append_right _ List.mem_cons_self)
    exact ⟨versionsCount_exec o h.shared, updateKnown_next hown⟩
  ownFault before after call o next s h _ := by
    have hown := h.each _ (List.mem_append_right _ List.mem_cons_self)
    refine ⟨h.shared, hown.sent.right none, ?_, hown.client⟩
    rcases hown.informed with ⟨known, hinformed, hshows⟩
    exact ⟨_, hinformed.right.right, fun fact hfact => hshows fact hfact.left⟩
  stable pool call o next q h _ _ hq _ := updateKnown_later (h.each q hq) (hadContent_exec o)
  apartNext _ _ _ _ _ _ _ _ _ _ := trivial
  apartFault _ _ _ _ _ _ _ _ _ _ := trivial
  stopped _ _ _ _ _ _ h _ _ := h.shared
  started pool call h hstart :=
    ⟨h.shared, ⟨sentBy_program hasCatalog call, ⟨fun _ => False,
      goesByReads_program hasCatalog call _, fun _ hfalse => hfalse.elim⟩, hstart⟩,
      fun _ _ => trivial⟩
  moved tasks s t h hmove := by
    have hcontents := contents_same hmove.left hmove.right
    refine ⟨?_, ?_⟩
    · intro userId
      rw [show (SettingsStore.contents t userId) = s.contents userId from hcontents userId]
      exact h.shared userId
    · intro q hq
      apply updateKnown_later (h.each q hq)
      rintro userId i row ⟨newer, older, heq, hlength⟩
      exact ⟨newer, older, (hcontents userId).trans heq, hlength⟩

/-- A row of the version that it had then, and not reset since, has not changed since. -/
theorem unchanged_of_version {userId : UUID} {i : Nat} {row : Option UserPreferenceRecord}
    (hcount : VersionsCount s) (hhad : s.HadContent userId i row)
    (hreset : s.NotResetSince userId i)
    (hversion : preferenceVersion (s.preferences userId) = preferenceVersion row) :
    s.preferences userId = row ∧ i = s.changes userId := by
  rcases hhad with ⟨newer, older, hcontents, hlength⟩
  have hnewer := hreset newer row older hcontents hlength
  have hchain := hcount userId
  rw [hcontents] at hchain
  have hcurrent := version_of_chain hchain hnewer (s.preferences userId)
    (by rw [← hcontents]; rfl)
  have hnil : newer = [] := List.length_eq_zero_iff.mp (by omega)
  subst hnil
  cases hcontents
  exact ⟨rfl, hlength.symm⟩

theorem document_read {saving : Saving} (hcount : VersionsCount s)
    (hshows : s.Shows ⟨saving.userId, saving.read⟩) (hmatches : saving.Matches s)
    (hexpected : saving.expectedVersion = preferenceVersion saving.read.row)
    (hreset : saving.expectedVersion ≠ 0 ->
      s.NotResetSince saving.userId saving.read.changes) :
    documentOf (s.preferences saving.userId) = documentOf saving.read.row := by
  have hversion : preferenceVersion (s.preferences saving.userId) =
      preferenceVersion saving.read.row := hmatches.trans hexpected
  by_cases hzero : saving.expectedVersion = 0
  · -- without a row both are the default document
    have hnone : forall row : Option UserPreferenceRecord,
        preferenceVersion row = 0 -> row = none := by
      intro row hrow
      cases row with
      | none => rfl
      | some row =>
          have hpositive := row.positive
          have hrow' : row.version = 0 := hrow
          omega
    rw [hnone _ (hmatches.trans hzero), hnone _ (hexpected.symm.trans hzero)]
  · rw [(unchanged_of_version hcount hshows (hreset hzero) hversion).left]

theorem noChangeLost_of_write {hasCatalog : Bool} {s : SettingsStore} {pool : SettingsPool}
    {args : PreferencesService.UpdateArgs} {readAt : Nat} {o : SettingsOp}
    {next : Option o.Res -> SettingsProg PreferencesResponse}
    (hpast : forall userId, s.past userId = [])
    (hreach : Pool.Reaches (settingsRules hasCatalog FindsItsRow) ⟨s, []⟩ pool)
    (hmem : ⟨.update args readAt, .op o next⟩ ∈ pool.tasks)
    (hpermits : FindsItsRow pool ⟨.update args readAt, .op o next⟩)
    (hwrites : (o.exec pool.store).2.preferences ≠ pool.store.preferences) :
    NoChangeLost args readAt pool.store (o.exec pool.store).2 := by
  have hholds := Pool.holds_reaches (localProof_settings hasCatalog FindsItsRow) hreach
    (c := ⟨s, []⟩) ⟨fun userId => by
      unfold SettingsStore.contents
      rw [hpast]
      exact List.isChain_singleton _, fun _ h => (List.not_mem_nil h).elim, List.Pairwise.nil⟩
  have hknown := hholds.each _ hmem
  cases settingsStep_exec pool.store o with
  | same hsame _ => exact absurd (congrArg SettingsStore.preferences hsame) hwrites
  | reset userId hdelete _ => exact absurd hdelete (hknown.sent.left.left userId)
  | saved saving hsaving hstored =>
      have hsent := hknown.sent.left.right saving hsaving
      rcases hpermits o next saving rfl hsaving hstored.matches with ⟨hread, hclient⟩
      rcases hknown.informed with ⟨known, hinformed, hshows⟩
      have hshown := hshows _ (hinformed.left _ ⟨saving, hsaving, rfl⟩)
      have hdocument := document_read hholds.shared hshown hstored.matches hsent.expected hread
      rcases hsent.columns with ⟨merged, hmerge, hcolumns⟩
      refine ⟨?_, ?_⟩
      · have hafter : ((o.exec pool.store).2.preferences args.userId) =
            some ⟨saving.columns, saving.expectedVersion + 1, Nat.le_add_left 1 _⟩ := by
          rw [hstored.stored, ← hsent.userId]
          exact Function.update_self _ _ _
        rw [hafter, ← hsent.userId, hdocument]
        show OnlySentReplaced args.patch _ saving.columns.document.prefs
        rw [hcolumns, document_columns]
        exact onlySentReplaced_merge hmerge
      · intro hversion
        rcases Option.isSome_iff_exists.mp hversion with ⟨version, heq⟩
        rcases hknown.client version heq with ⟨row, hhad, hrow⟩
        rw [← hsent.userId] at hhad ⊢
        refine (unchanged_of_version hholds.shared hhad
          (hclient args readAt rfl hversion) ?_).right
        rw [hrow, hsent.version version heq]
        exact hstored.matches

/-- One of the operations was a write of the update, which has lost nothing. -/
def HasSaved (args : PreferencesService.UpdateArgs) (readAt : Nat)
    (log : List (SettingsStore × SettingsOp)) : Prop :=
  exists u o, (u, o) ∈ log ∧ (o.exec u).2.preferences ≠ u.preferences ∧
    NoChangeLost args readAt u (o.exec u).2

/-- What an update knows to be saved stands in its log. -/
def LogsItsSaves
    (p : LoggedTask SettingsCall settingsTables SettingsExc PreferencesResponse SettingsStore) :
    Prop :=
  forall args readAt, p.task.call = .update args readAt ->
    exists known, SavesFirst known p.task.prog ∧
      forall saving, known saving -> HasSaved args readAt p.log

theorem logProof_saves {hasCatalog : Bool} (hpast : forall userId, s.past userId = []) :
    Pool.LogProof (settingsRules hasCatalog FindsItsRow) s LogsItsSaves where
  performed t tasks call o next log hrun hmem hpermits h := by
    rintro args readAt rfl
    rcases h args readAt rfl with ⟨known, hsaves, hlog⟩
    refine ⟨_, hsaves.right.left ((settingsRules hasCatalog FindsItsRow).machine.exec o t).1, ?_⟩
    rintro saving (hsaved | ⟨hknown, _⟩)
    · have hchanged := (writes_of_saved hsaved).changed
      exact ⟨t, o, List.mem_concat_self, hchanged, noChangeLost_of_write hpast
        (Pool.reaches_of_loggedRun hrun)
        (List.mem_map_of_mem hmem) hpermits hchanged⟩
    · rcases hlog saving hknown with ⟨u, o', hold, hwrite⟩
      exact ⟨u, o', List.mem_append_left _ hold, hwrite⟩
  failed call o next log h := by
    intro args readAt hcall
    rcases h args readAt hcall with ⟨known, hsaves, hlog⟩
    exact ⟨_, hsaves.right.right, fun saving hknown => hlog saving hknown.left⟩
  started call := by
    rintro args readAt rfl
    exact ⟨fun _ => False, savesFirst_updateFrom hasCatalog _ _, fun _ hfalse => hfalse.elim⟩

/--
In every run in which a save that finds its version finds the row that was read, the write
of an update loses nothing, and an update that has returned has written.
-/
theorem update_loses_nothing {hasCatalog : Bool} {s : SettingsStore} {pool : SettingsPool}
    (hpast : forall userId, s.past userId = [])
    (hreach : Pool.Reaches (settingsRules hasCatalog FindsItsRow) ⟨s, []⟩ pool) :
    (forall {args : PreferencesService.UpdateArgs} {readAt : Nat} {o : SettingsOp}
      {next : Option o.Res -> SettingsProg PreferencesResponse},
      ⟨.update args readAt, .op o next⟩ ∈ pool.tasks ->
      FindsItsRow pool ⟨.update args readAt, .op o next⟩ ->
      (o.exec pool.store).2.preferences ≠ pool.store.preferences ->
        NoChangeLost args readAt pool.store (o.exec pool.store).2) ∧
    forall tasks, tasks.map LoggedTask.task = pool.tasks ->
      Pool.LoggedRun (settingsRules hasCatalog FindsItsRow) s pool.store tasks ->
        forall args readAt response log,
          ⟨⟨.update args readAt, .ret response⟩, log⟩ ∈ tasks -> HasSaved args readAt log := by
  constructor
  · intro args readAt o next hmem hpermits hwrites
    exact noChangeLost_of_write hpast hreach hmem hpermits hwrites
  · intro tasks _ hrun args readAt response log hmem
    rcases Pool.holds_loggedRun (logProof_saves hpast) hrun _ hmem args readAt rfl with
      ⟨known, ⟨saving, hsaving⟩, hlog⟩
    exact hlog saving hsaving

end Runs

/-!
# A reset in the middle
-/

def settingsUser : UUID := .ofInt 1

def PreferencesUpdate.unsent : PreferencesUpdate where
  version := none
  defaultMode := none
  defaultTools := none
  answerLength := none
  tone := none
  language := none
  personalInstructions := none
  citations := none
  documentContext := none
  clean := fun _ h => nomatch h

def SettingsStore.blank : SettingsStore :=
  ⟨fun _ => none, fun _ => [], fun _ => none, none⟩

def saveTone : PreferencesService.UpdateArgs :=
  ⟨settingsUser, { PreferencesUpdate.unsent with tone := some (some .friendly) }, ⟨1, true⟩⟩

def saveLanguage : PreferencesService.UpdateArgs :=
  ⟨settingsUser, { PreferencesUpdate.unsent with language := some (some (text "en")) },
    ⟨2, true⟩⟩

/-- A client that has read version 1 sends another length. -/
def saveLength : PreferencesService.UpdateArgs :=
  ⟨settingsUser,
    { PreferencesUpdate.unsent with
      version := some 1
      answerLength := some (some .concise) },
    ⟨3, true⟩⟩

def settingsPool (permits : SettingsPool -> SettingsTask -> Prop)
    (acts : List (Pool.Act SettingsCall)) : SettingsPool :=
  acts.foldl (Pool.play (settingsRules false permits)) ⟨.blank, []⟩

/-- A first save, and an update that has read it. -/
def readVersionOne : List (Pool.Act SettingsCall) :=
  [.start (.update saveTone 0), .perform 0, .perform 0, .perform 0,
    .start (.update saveLength 1), .perform 1]

/-- A reset and another first save before the update writes. -/
def resetMeanwhile : List (Pool.Act SettingsCall) :=
  readVersionOne ++ [.start (.reset settingsUser), .perform 2, .perform 2,
    .start (.update saveLanguage 0), .perform 3, .perform 3]

/-- The test of `SentVersionRead` in these runs. -/
def sentVersionSeen (s : SettingsStore) : SettingsCall -> Bool
  | .update args readAt =>
      match args.patch.version with
      | none => true
      | some version =>
          decide (readAt = s.changes args.userId) &&
            decide (preferenceVersion (s.preferences args.userId) = version)
  | .reset _ => true

theorem sentVersionRead_of_seen {s : SettingsStore} {call : SettingsCall}
    (h : sentVersionSeen s call = true) : SentVersionRead s call := by
  cases call with
  | reset userId => trivial
  | update args readAt =>
      intro version hversion
      unfold sentVersionSeen at h
      dsimp only at h
      rw [hversion] at h
      rcases Bool.and_eq_true_iff.mp h with ⟨hchanges, hrow⟩
      exact ⟨s.preferences args.userId,
        ⟨[], s.past args.userId, rfl, (of_decide_eq_true hchanges).symm⟩,
        of_decide_eq_true hrow⟩

def settingsChecked (pool : SettingsPool) : Pool.Act SettingsCall -> Bool
  | .start call => sentVersionSeen pool.store call
  | _ => true

theorem allows_of_settingsChecked (pool : SettingsPool) (act : Pool.Act SettingsCall)
    (h : settingsChecked pool act = true) :
    Pool.Allows (settingsRules false (fun _ _ => True)) pool act := by
  cases act with
  | start call => exact sentVersionRead_of_seen h
  | perform i => exact fun _ _ => trivial
  | fault i => exact fun _ _ _ _ => trivial
  | stop i => exact fun _ _ => ⟨trivial, trivial⟩

/-- The update finds version 1 again and writes over a document that nobody has read. -/
theorem reset_loses_update :
    exists pool o next, Pool.Reaches (settingsRules false (fun _ _ => True))
        ⟨.blank, []⟩ pool ∧
      ⟨.update saveLength 1, .op o next⟩ ∈ pool.tasks ∧
      (documentOf (pool.store.preferences settingsUser)).prefs.language = text "en" ∧
      (documentOf ((SettingsOp.exec o pool.store).2.preferences
        settingsUser)).prefs.language = text "auto" ∧
      ¬NoChangeLost saveLength 1 pool.store (SettingsOp.exec o pool.store).2 := by
  have hchecks : Pool.checks (settingsRules false (fun _ _ => True)) settingsChecked
      ⟨.blank, []⟩ resetMeanwhile = true := by
    decide
  have hbefore : (documentOf ((settingsPool (fun _ _ => True)
      resetMeanwhile).store.preferences settingsUser)).prefs.language = text "en" := by
    decide
  have htask : exists o next, (settingsPool (fun _ _ => True) resetMeanwhile).tasks[1]? =
      some ⟨.update saveLength 1, .op o next⟩ ∧
      (documentOf ((SettingsOp.exec o (settingsPool (fun _ _ => True)
        resetMeanwhile).store).2.preferences settingsUser)).prefs.language = text "auto" := by
    refine ⟨_, _, rfl, ?_⟩
    decide
  rcases htask with ⟨o, next, hget, hafter⟩
  refine ⟨_, o, next, Pool.reaches_schedule
    (Pool.allowsAll_of_checks allows_of_settingsChecked hchecks), List.mem_of_getElem? hget,
    hbefore, hafter, ?_⟩
  intro hlost
  have hlanguage := hlost.replaced.language
  change some (documentOf ((SettingsOp.exec o (settingsPool (fun _ _ => True)
    resetMeanwhile).store).2.preferences settingsUser)).prefs.language =
    some (documentOf ((settingsPool (fun _ _ => True)
      resetMeanwhile).store.preferences settingsUser)).prefs.language at hlanguage
  rw [hbefore, hafter] at hlanguage
  exact absurd hlanguage (by decide)

theorem notResetSince_now {s : SettingsStore} {userId : UUID} {i : Nat}
    (h : i = s.changes userId) : s.NotResetSince userId i := by
  intro newer row older hcontents hlength
  have htotal := congrArg List.length hcontents
  rw [List.length_append, List.length_cons, hlength, h] at htotal
  have hcount : (s.contents userId).length = s.changes userId + 1 := rfl
  have hnil : newer = [] := List.length_eq_zero_iff.mp (by omega)
  rw [hnil]
  exact List.not_mem_nil

/-- A test from which `FindsItsRow` follows: nothing has changed since the reads. -/
def savesAtOnce (pool : SettingsPool) (t : SettingsTask) : Bool :=
  match t.prog with
  | .op o _ =>
      match SettingsOp.saving o with
      | none => true
      | some saving =>
          decide (saving.read.changes = pool.store.changes saving.userId) &&
            match t.call with
            | .update args readAt =>
                !args.patch.version.isSome ||
                  decide (readAt = pool.store.changes saving.userId)
            | .reset _ => true
  | _ => true

theorem findsItsRow_of_savesAtOnce {pool : SettingsPool} {t : SettingsTask}
    (h : savesAtOnce pool t = true) : FindsItsRow pool t := by
  intro o next saving hprog hsaving _
  unfold savesAtOnce at h
  rw [hprog] at h
  dsimp only at h
  rw [hsaving] at h
  rcases Bool.and_eq_true_iff.mp h with ⟨hread, hcall⟩
  refine ⟨fun _ => notResetSince_now (of_decide_eq_true hread), ?_⟩
  intro args readAt heq hversion
  rw [heq] at hcall
  dsimp only at hcall
  rw [hversion] at hcall
  exact notResetSince_now (of_decide_eq_true hcall)

def savesChecked (pool : SettingsPool) : Pool.Act SettingsCall -> Bool
  | .start call => sentVersionSeen pool.store call
  | .perform i => (pool.tasks[i]?).all (savesAtOnce pool)
  | _ => true

theorem allows_of_savesChecked (pool : SettingsPool) (act : Pool.Act SettingsCall)
    (h : savesChecked pool act = true) :
    Pool.Allows (settingsRules false FindsItsRow) pool act := by
  cases act with
  | start call => exact sentVersionRead_of_seen h
  | perform i =>
      intro t ht
      change (pool.tasks[i]?).all (savesAtOnce pool) = true at h
      rw [ht] at h
      exact findsItsRow_of_savesAtOnce h
  | fault i => exact fun _ _ _ _ => trivial
  | stop i => exact fun _ _ => ⟨trivial, trivial⟩

/-- The update writes over the row that it has read, and returns. -/
def savedVersionTwo : List (Pool.Act SettingsCall) :=
  readVersionOne ++ [.perform 1, .perform 1]

/-- Without the reset the update changes the length, leaves the tone and returns. -/
theorem update_loses_nothing_unreset :
    (exists (pool : SettingsPool) (o : SettingsOp)
      (next : Option o.Res -> SettingsProg PreferencesResponse),
      ⟨.update saveLength 1, .op o next⟩ ∈ pool.tasks ∧
      (documentOf ((SettingsOp.exec o pool.store).2.preferences
        settingsUser)).prefs.answerLength = .concise ∧
      NoChangeLost saveLength 1 pool.store (SettingsOp.exec o pool.store).2) ∧
    exists tasks u response log,
      Pool.LoggedRun (settingsRules false FindsItsRow) .blank u tasks ∧
      ⟨⟨.update saveLength 1, .ret response⟩, log⟩ ∈ tasks ∧ HasSaved saveLength 1 log := by
  constructor
  · have hchecks : Pool.checks (settingsRules false FindsItsRow) savesChecked ⟨.blank, []⟩
        readVersionOne = true := by
      decide
    have htask : exists o next, (settingsPool FindsItsRow readVersionOne).tasks[1]? =
        some ⟨.update saveLength 1, .op o next⟩ ∧
        savesAtOnce (settingsPool FindsItsRow readVersionOne)
          ⟨.update saveLength 1, .op o next⟩ = true ∧
        (documentOf ((SettingsOp.exec o (settingsPool FindsItsRow
          readVersionOne).store).2.preferences settingsUser)).prefs.answerLength =
          .concise := by
      refine ⟨_, _, rfl, ?_, ?_⟩
      · decide
      · decide
    have hbefore : (documentOf ((settingsPool FindsItsRow
        readVersionOne).store.preferences settingsUser)).prefs.answerLength = .balanced := by
      decide
    rcases htask with ⟨o, next, hget, hchecked, hafter⟩
    have hmem := List.mem_of_getElem? hget
    refine ⟨_, o, next, hmem, hafter, (update_loses_nothing (fun _ => rfl)
      (Pool.reaches_schedule (Pool.allowsAll_of_checks allows_of_savesChecked hchecks))).left
      hmem (findsItsRow_of_savesAtOnce hchecked) ?_⟩
    intro hsame
    have hlength : (documentOf ((settingsPool FindsItsRow
        readVersionOne).store.preferences settingsUser)).prefs.answerLength = .concise := by
      rw [← hafter]
      exact congrArg (fun rows : UUID -> Option UserPreferenceRecord =>
        (documentOf (rows settingsUser)).prefs.answerLength) hsame.symm
    rw [hbefore] at hlength
    cases hlength
  · have hchecks : Pool.checks (settingsRules false FindsItsRow) savesChecked ⟨.blank, []⟩
        savedVersionTwo = true := by
      decide
    have htask : exists response, (settingsPool FindsItsRow savedVersionTwo).tasks[1]? =
        some ⟨.update saveLength 1, .ret response⟩ := ⟨_, rfl⟩
    have hreach := Pool.reaches_schedule
      (Pool.allowsAll_of_checks allows_of_savesChecked hchecks)
    rcases htask with ⟨response, hget⟩
    rcases Pool.exists_loggedRun hreach with ⟨tasks, htasks, hrun⟩
    have hmem := List.mem_of_getElem? hget
    unfold settingsPool at hmem
    rw [← htasks] at hmem
    rcases List.mem_map.mp hmem with ⟨⟨task, log⟩, hlogged, rfl⟩
    exact ⟨tasks, _, response, log, hrun, hlogged,
      (update_loses_nothing (fun _ => rfl) hreach).right tasks htasks hrun _ _ _ _ hlogged⟩

end ConversationService
