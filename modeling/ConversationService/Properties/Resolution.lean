import ConversationService.Library.TwoRuns
import ConversationService.Model.System
import ConversationService.Properties.PreferenceDocuments

/-!
# Resolution of a message's preferences

`resolve_for_message` over any stored rows, any custom modes and any faults of the two
reads. The mode that a message names itself decides whether it raises, but for one case: the
custom mode of a saved default cannot be read.
-/

namespace ConversationService
namespace PreferencesService

open Python Programs Preferences

/-- A store with the given rows of `user_preferences`. -/
def withRows (s : Store) (rows : UUID -> Option TableRow) : Store :=
  { s with preferences := fun userId => (rows userId).map TableRow.reading }

/-!
# What the reads give
-/

section Resolution

variable (s : Store) (fails : Op -> Bool)

/-- The document and version that a request goes by. -/
def preferencesRead (userId : Option UUID) : UserPreferences × Nat :=
  match userId with
  | none => (.default, 0)
  | some userId =>
      if fails (.selectPreferences userId) then (.default, 0)
      else
        match s.preferences userId with
        | some row => (row.document, row.version)
        | none => (.default, 0)

/-- An active custom mode of the user that can be read. -/
def usableMode (userId : Option UUID) (ref : UUID) : Option CustomModeRecord :=
  userId.bind (fun userId =>
    if fails (.selectCustomMode userId ref) then none
    else (s.customModes userId ref).filter (fun r => r.active))

/-- The mode that a message runs under: its own, or else the saved one. -/
def namedMode (userId : Option UUID) (mode : Option Text) : Option Text :=
  mode.or (preferencesRead s fails userId).1.defaultMode

/-- What a usable mode stands for: a custom mode runs on a built-in path. -/
def modeValue (userId : Option UUID) (m : Text) : Option Text :=
  match parseCustomRef m with
  | none => some m
  | some ref =>
      (usableMode s fails userId ref).map (fun r => builtinMode (.fromRecord r))

/-- The message itself names a custom mode that is malformed, unknown or unreadable. -/
def NamesUnusableMode (userId : Option UUID) (mode : Option Text) : Prop :=
  exists m, mode = some m ∧ isCustomRef m = true ∧
    forall ref, parseCustomRef m = some ref -> usableMode s fails userId ref = none

/-- What the answer to a message has to be. -/
structure ResolvedAs (userId : Option UUID) (mode : Option Text)
    (selectedTools : Option (List Text)) (r : ResolvedMessagePreferences) : Prop where
  mode_kept : forall m, mode = some m -> isCustomRef m = false -> r.mode = some m
  tools_kept : forall tools, selectedTools = some tools -> r.selectedTools = some tools
  mode_builtin : forall m, r.mode = some m -> isCustomRef m = false
  snapshot : r.customMode.isSome = true <->
    exists m ref, namedMode s fails userId mode = some m ∧ parseCustomRef m = some ref ∧
      (usableMode s fails userId ref).isSome = true
  mode_default : r.defaultsApplied.mode = true <->
    mode = none ∧ exists m v, (preferencesRead s fails userId).1.defaultMode = some m ∧
      modeValue s fails userId m = some v ∧ r.mode = some v
  tools_default : r.defaultsApplied.tools = true <->
    selectedTools = none ∧ (preferencesRead s fails userId).1.defaultTools ≠ [] ∧
      r.selectedTools = some (preferencesRead s fails userId).1.defaultTools

/-- Nothing but the message's own custom mode makes the resolution raise. -/
def NeverBlocked (userId : Option UUID) (mode : Option Text)
    (selectedTools : Option (List Text)) : Prop :=
  match (Prog.run storageMachine fails
      (resolveForMessage userId mode selectedTools) s).1 with
  | .error _ => NamesUnusableMode s fails userId mode
  | .ok r => ResolvedAs s fails userId mode selectedTools r

/-- A saved custom default is read from the preferences, but the mode itself is not. -/
def SavedModeUnreadable (userId : Option UUID) (mode : Option Text) : Prop :=
  mode = none ∧ exists u m ref, userId = some u ∧
    (preferencesRead s fails userId).1.defaultMode = some m ∧
    parseCustomRef m = some ref ∧ fails (.selectCustomMode u ref) = true

/-!
# The steps
-/

theorem run_loadOrDefault (userId : Option UUID) :
    Prog.run storageMachine fails (loadOrDefault userId) s =
      (.ok (preferencesRead s fails userId), s) := by
  cases userId with
  | none => rfl
  | some u =>
      show Prog.run storageMachine fails (Prog.op (S := storage) (.selectPreferences u) _) s = _
      rw [Prog.run_op]
      unfold preferencesRead
      dsimp only
      cases hfails : fails (.selectPreferences u) with
      | true => rfl
      | false =>
          rw [if_neg Bool.false_ne_true, if_neg Bool.false_ne_true]
          show Prog.run storageMachine fails (Prog.tryCatch
            (match s.preferences u with
            | some row => _
            | none => _) _) s = _
          cases s.preferences u with
          | none => rfl
          | some row => rfl

theorem nonempty?_eq {m : Text} (h : m ≠ []) : nonempty? (some m) = some m := by
  cases m with
  | nil => exact absurd rfl h
  | cons c rest => rfl

theorem isCustomRef_of_parse {m : Text} {ref : UUID} (h : parseCustomRef m = some ref) :
    isCustomRef m = true := by
  unfold parseCustomRef at h
  dsimp only at h
  split at h
  · rename_i hshape
    rcases List.isPrefixOf_iff_prefix.mp hshape.left with ⟨rest, hrest⟩
    unfold isCustomRef
    rw [← hrest, List.map_append]
    apply List.isPrefixOf_iff_prefix.mpr
    exact ⟨rest.map lowerAscii, by
      rw [show customPrefix.map lowerAscii = customPrefix by decide]⟩
  · cases h

theorem isCustomRef_builtinMode (snapshot : CustomModeSnapshot) :
    isCustomRef (builtinMode snapshot) = false := by
  unfold builtinMode
  cases snapshot.executionStyle with
  | smart => decide
  | direct => decide

theorem run_resolveMode_plain {userId : Option UUID} {explicit : Bool}
    {chosen : Option Text × Bool}
    (h : forall m, chosen.1 = some m -> isCustomRef m = false) :
    Prog.run storageMachine fails (resolveMode userId explicit chosen) s =
      (.ok (chosen.1, chosen.2, none), s) := by
  unfold resolveMode
  cases hchosen : nonempty? chosen.1 with
  | none => rfl
  | some m =>
      have hm : chosen.1 = some m := (Option.filter_eq_some_iff.mp hchosen).left
      have hplain := h m hm
      cases hparse : parseCustomRef m with
      | some ref =>
          rw [isCustomRef_of_parse hparse] at hplain
          cases hplain
      | none =>
          rw [hm]
          simp only [hparse, hplain]
          rfl

theorem ne_nil_of_isCustomRef {m : Text} (h : isCustomRef m = true) : m ≠ [] := by
  rintro rfl
  exact absurd h (by decide)

theorem run_resolveMode_usable {userId : Option UUID} {explicit flag : Bool} {m : Text}
    {ref : UUID} {record : CustomModeRecord} (hparse : parseCustomRef m = some ref)
    (husable : usableMode s fails userId ref = some record) :
    Prog.run storageMachine fails (resolveMode userId explicit (some m, flag)) s =
      (.ok (some (builtinMode (.fromRecord record)), flag, some (.fromRecord record)), s) := by
  cases userId with
  | none => cases husable
  | some u =>
      unfold usableMode at husable
      rw [Option.bind_some] at husable
      split at husable
      · cases husable
      · rename_i hread
        unfold resolveMode
        rw [nonempty?_eq (ne_nil_of_isCustomRef (isCustomRef_of_parse hparse))]
        simp only [hparse]
        show Prog.run storageMachine fails
          (Prog.op (S := storage) (.selectCustomMode u ref) _) s = _
        rw [Prog.run_op, if_neg hread]
        have hexec : storageMachine.exec (.selectCustomMode u ref) s =
            ((s.customModes u ref).filter (fun r => r.active), s) := rfl
        rw [hexec, husable]
        rfl

theorem run_resolveMode_unusable {userId : Option UUID} {flag : Bool} {m : Text}
    (hcustom : isCustomRef m = true)
    (hunusable : forall ref, parseCustomRef m = some ref ->
      usableMode s fails userId ref = none) :
    exists e, Prog.run storageMachine fails (resolveMode userId true (some m, flag)) s =
      (.error e, s) := by
  unfold resolveMode
  rw [nonempty?_eq (ne_nil_of_isCustomRef hcustom)]
  cases hparse : parseCustomRef m with
  | none =>
      simp only [hparse, hcustom]
      exact ⟨_, rfl⟩
  | some ref =>
      simp only [hparse]
      cases userId with
      | none => exact ⟨_, rfl⟩
      | some u =>
          have hnone := hunusable ref hparse
          unfold usableMode at hnone
          rw [Option.bind_some] at hnone
          dsimp only
          change exists e, Prog.run storageMachine fails
            (Prog.op (S := storage) (.selectCustomMode u ref) _) s = (.error e, s)
          rw [Prog.run_op]
          split at hnone
          · rename_i hfails
            rw [if_pos hfails]
            exact ⟨_, rfl⟩
          · rename_i hread
            rw [if_neg hread]
            have hexec : storageMachine.exec (.selectCustomMode u ref) s =
                ((s.customModes u ref).filter (fun r => r.active), s) := rfl
            rw [hexec, hnone]
            exact ⟨_, rfl⟩

theorem run_resolveMode_gone {u : UUID} {flag : Bool} {m : Text} {ref : UUID}
    (hparse : parseCustomRef m = some ref) (hread : fails (.selectCustomMode u ref) = false)
    (hnone : usableMode s fails (some u) ref = none) :
    Prog.run storageMachine fails (resolveMode (some u) false (some m, flag)) s =
      (.ok (none, false, none), s) := by
  unfold usableMode at hnone
  rw [Option.bind_some, hread, if_neg Bool.false_ne_true] at hnone
  unfold resolveMode
  rw [nonempty?_eq (ne_nil_of_isCustomRef (isCustomRef_of_parse hparse))]
  simp only [hparse]
  show Prog.run storageMachine fails
    (Prog.op (S := storage) (.selectCustomMode u ref) _) s = _
  rw [Prog.run_op, hread, if_neg Bool.false_ne_true]
  have hexec : storageMachine.exec (.selectCustomMode u ref) s =
      ((s.customModes u ref).filter (fun r => r.active), s) := rfl
  rw [hexec, hnone]
  rfl

theorem run_resolveMode_unread {u : UUID} {explicit flag : Bool} {m : Text} {ref : UUID}
    (hparse : parseCustomRef m = some ref) (hfails : fails (.selectCustomMode u ref) = true) :
    Prog.run storageMachine fails (resolveMode (some u) explicit (some m, flag)) s =
      (.error .storage, s) := by
  unfold resolveMode
  rw [nonempty?_eq (ne_nil_of_isCustomRef (isCustomRef_of_parse hparse))]
  simp only [hparse]
  show Prog.run storageMachine fails
    (Prog.op (S := storage) (.selectCustomMode u ref) _) s = _
  rw [Prog.run_op, hfails, if_pos rfl]
  rfl

/-!
# The whole resolution
-/

/-- The answer for a resolved mode. -/
def resolvedWith (userId : Option UUID) (selectedTools : Option (List Text))
    (resolved : Option Text × Bool × Option CustomModeSnapshot) :
    ResolvedMessagePreferences :=
  let loaded := preferencesRead s fails userId
  let tools := chooseTools selectedTools loaded.1
  { mode := resolved.1
    selectedTools := tools.1
    defaultsApplied := { mode := resolved.2.1, tools := tools.2 }
    generation := some (generationPreferences loaded.1)
    version := loaded.2
    customMode := resolved.2.2 }

theorem run_resolveForMessage (userId : Option UUID) (mode : Option Text)
    (selectedTools : Option (List Text)) :
    (Prog.run storageMachine fails (resolveForMessage userId mode selectedTools) s).1 =
      (Prog.run storageMachine fails (resolveMode userId mode.isSome
        (chooseMode mode (preferencesRead s fails userId).1)) s).1.map
          (resolvedWith s fails userId selectedTools) := by
  unfold resolveForMessage
  rw [Prog.run_bind, run_loadOrDefault]
  dsimp only
  rw [Prog.run_bind]
  cases Prog.run storageMachine fails (resolveMode userId mode.isSome
    (chooseMode mode (preferencesRead s fails userId).1)) s with
  | mk outcome t =>
      cases outcome with
      | error e => rfl
      | ok resolved => rfl

theorem chooseTools_default (selectedTools : Option (List Text)) (prefs : UserPreferences) :
    (chooseTools selectedTools prefs).2 = true <->
      selectedTools = none ∧ prefs.defaultTools ≠ [] ∧
        (chooseTools selectedTools prefs).1 = some prefs.defaultTools := by
  cases selectedTools with
  | some tools => simp [chooseTools]
  | none => cases htools : prefs.defaultTools <;> simp [chooseTools, htools]

/-- The fields that go by the mode are enough; the tools are resolved on their own. -/
theorem resolvedAs_of_mode {userId : Option UUID} {mode : Option Text}
    {selectedTools : Option (List Text)}
    {resolved : Option Text × Bool × Option CustomModeSnapshot}
    (hkept : forall m, mode = some m -> isCustomRef m = false -> resolved.1 = some m)
    (hbuiltin : forall m, resolved.1 = some m -> isCustomRef m = false)
    (hsnapshot : resolved.2.2.isSome = true <->
      exists m ref, namedMode s fails userId mode = some m ∧ parseCustomRef m = some ref ∧
        (usableMode s fails userId ref).isSome = true)
    (hdefault : resolved.2.1 = true <->
      mode = none ∧ exists m v, (preferencesRead s fails userId).1.defaultMode = some m ∧
        modeValue s fails userId m = some v ∧ resolved.1 = some v) :
    ResolvedAs s fails userId mode selectedTools
      (resolvedWith s fails userId selectedTools resolved) where
  mode_kept := hkept
  tools_kept := by
    rintro tools rfl
    rfl
  mode_builtin := hbuiltin
  snapshot := hsnapshot
  mode_default := hdefault
  tools_default := chooseTools_default selectedTools (preferencesRead s fails userId).1

theorem neverBlocked_plain {userId : Option UUID} {mode : Option Text}
    {selectedTools : Option (List Text)} {chosen : Option Text × Bool}
    (hchosen : chooseMode mode (preferencesRead s fails userId).1 = chosen)
    (hnamed : chosen.1 = namedMode s fails userId mode)
    (hflag : chosen.2 = true <-> mode = none ∧ chosen.1.isSome = true)
    (hplain : forall m, chosen.1 = some m -> isCustomRef m = false) :
    NeverBlocked s fails userId mode selectedTools := by
  have hparse : forall m, chosen.1 = some m -> parseCustomRef m = none := by
    intro m hm
    cases h : parseCustomRef m with
    | none => rfl
    | some ref =>
        have hcustom := isCustomRef_of_parse h
        rw [hplain m hm] at hcustom
        cases hcustom
  unfold NeverBlocked
  rw [run_resolveForMessage, hchosen, run_resolveMode_plain s fails hplain]
  apply resolvedAs_of_mode
  · rintro m rfl _
    exact hnamed
  · exact hplain
  · constructor
    · intro h
      cases h
    · rintro ⟨m, ref, hm, href, _⟩
      rw [hparse m (hnamed.trans hm)] at href
      cases href
  · rw [hflag]
    refine and_congr_right ?_
    rintro rfl
    constructor
    · intro hsome
      rcases Option.isSome_iff_exists.mp hsome with ⟨m, hm⟩
      refine ⟨m, m, hnamed.symm.trans hm, ?_, hm⟩
      unfold modeValue
      rw [hparse m hm]
    · rintro ⟨m, v, _, _, hv⟩
      exact Option.isSome_iff_exists.mpr ⟨v, hv⟩

theorem neverBlocked_usable {userId : Option UUID} {mode : Option Text}
    {selectedTools : Option (List Text)} {m : Text} {ref : UUID} {record : CustomModeRecord}
    {flag : Bool}
    (hchosen : chooseMode mode (preferencesRead s fails userId).1 = (some m, flag))
    (hnamed : namedMode s fails userId mode = some m)
    (hflag : flag = true <-> mode = none)
    (hparse : parseCustomRef m = some ref)
    (husable : usableMode s fails userId ref = some record) :
    NeverBlocked s fails userId mode selectedTools := by
  unfold NeverBlocked
  rw [run_resolveForMessage, hchosen, run_resolveMode_usable s fails hparse husable]
  apply resolvedAs_of_mode
  · rintro m' rfl hplain
    cases hnamed
    rw [isCustomRef_of_parse hparse] at hplain
    cases hplain
  · intro v hv
    cases hv
    exact isCustomRef_builtinMode _
  · constructor
    · intro _
      exact ⟨m, ref, hnamed, hparse, by rw [husable]; rfl⟩
    · intro _
      rfl
  · rw [hflag]
    constructor
    · rintro rfl
      refine ⟨rfl, m, _, hnamed, ?_, rfl⟩
      unfold modeValue
      rw [hparse]
      dsimp only
      rw [husable]
      rfl
    · exact And.left

theorem neverBlocked_explicit {userId : Option UUID} {m : Text}
    {selectedTools : Option (List Text)} :
    NeverBlocked s fails userId (some m) selectedTools := by
  have hchosen : chooseMode (some m) (preferencesRead s fails userId).1 = (some m, false) := by
    unfold chooseMode
    rfl
  cases hcustom : isCustomRef m with
  | false =>
      apply neverBlocked_plain s fails hchosen rfl
      · simp
      · intro m' hm'
        cases hm'
        exact hcustom
  | true =>
      by_cases hunusable : forall ref, parseCustomRef m = some ref ->
          usableMode s fails userId ref = none
      · rcases @run_resolveMode_unusable s fails _ false m hcustom hunusable with ⟨e, hrun⟩
        unfold NeverBlocked
        rw [run_resolveForMessage, hchosen, Option.isSome_some, hrun]
        exact ⟨m, rfl, hcustom, hunusable⟩
      · push Not at hunusable
        rcases hunusable with ⟨ref, hparse, hsome⟩
        rcases Option.ne_none_iff_exists'.mp hsome with ⟨record, husable⟩
        exact neverBlocked_usable s fails hchosen rfl (by simp) hparse husable

/-- A message without a mode, for a valid saved document. -/
theorem neverBlocked_saved_iff {userId : Option UUID} {selectedTools : Option (List Text)}
    (hvalid : ValidDocument (preferencesRead s fails userId).1) :
    NeverBlocked s fails userId none selectedTools <->
      ¬SavedModeUnreadable s fails userId none := by
  cases hsaved : (preferencesRead s fails userId).1.defaultMode with
  | none =>
      refine iff_of_true ?_ ?_
      · have hchosen : chooseMode none (preferencesRead s fails userId).1 = (none, false) := by
          unfold chooseMode
          rw [hsaved]
          rfl
        apply neverBlocked_plain s fails hchosen
        · unfold namedMode
          rw [hsaved]
          rfl
        · simp
        · intro m hm
          cases hm
      · rintro ⟨_, u, m, ref, _, hm, _⟩
        rw [hsaved] at hm
        cases hm
  | some m =>
      have hclean : cleanMode (some m) = some (some m) := by
        rw [← hsaved]
        exact hvalid.defaultMode
      have hchosen : chooseMode none (preferencesRead s fails userId).1 = (some m, true) := by
        unfold chooseMode
        rw [hsaved, nonempty?_eq (cleanMode_some hclean).right.left]
      have hnamed : namedMode s fails userId none = some m := by
        unfold namedMode
        rw [hsaved]
        rfl
      cases hparse : parseCustomRef m with
      | none =>
          refine iff_of_true ?_ ?_
          · apply neverBlocked_plain s fails hchosen hnamed.symm
            · simp
            · intro m' hm'
              cases hm'
              cases hcustom : isCustomRef m with
              | false => rfl
              | true =>
                  have hsome := parseCustomRef_of_cleanMode hclean hcustom
                  rw [hparse] at hsome
                  cases hsome
          · rintro ⟨_, u, m', ref, _, hm', hparse', _⟩
            rw [hsaved] at hm'
            cases hm'
            rw [hparse] at hparse'
            cases hparse'
      | some ref =>
          cases userId with
          | none =>
              -- without a user nothing is read
              cases hsaved
          | some u =>
              cases hread : fails (.selectCustomMode u ref) with
              | true =>
                  refine iff_of_false ?_ (not_not_intro ?_)
                  · intro h
                    unfold NeverBlocked at h
                    rw [run_resolveForMessage, hchosen, run_resolveMode_unread s fails hparse hread]
                      at h
                    rcases h with ⟨_, hmode, _⟩
                    cases hmode
                  · exact ⟨rfl, u, m, ref, rfl, hsaved, hparse, hread⟩
              | false =>
                  refine iff_of_true ?_ ?_
                  · cases husable : usableMode s fails (some u) ref with
                    | some record =>
                        exact neverBlocked_usable s fails hchosen hnamed (by simp) hparse husable
                    | none =>
                        unfold NeverBlocked
                        rw [run_resolveForMessage, hchosen, Option.isSome_none,
                          run_resolveMode_gone s fails hparse hread husable]
                        apply resolvedAs_of_mode
                        · intro m' hm'
                          cases hm'
                        · intro m' hm'
                          cases hm'
                        · constructor
                          · intro h
                            cases h
                          · rintro ⟨m', ref', hm', hparse', hsome⟩
                            rw [hnamed] at hm'
                            cases hm'
                            rw [hparse] at hparse'
                            cases hparse'
                            rw [husable] at hsome
                            cases hsome
                        · constructor
                          · intro h
                            cases h
                          · rintro ⟨_, m', v, _, _, hv⟩
                            cases hv
                  · rintro ⟨_, u', m', ref', hu', hm', hparse', hfails⟩
                    cases hu'
                    rw [hsaved] at hm'
                    cases hm'
                    rw [hparse] at hparse'
                    cases hparse'
                    rw [hread] at hfails
                    cases hfails

end Resolution

/-!
# Stored rows
-/

theorem document_reading (row : TableRow) : row.reading.document = row.toDict.document := by
  unfold TableRow.reading
  rw [fromRow_some]
  rfl

theorem valid_preferencesRead (s : Store) (fails : Op -> Bool)
    (rows : UUID -> Option TableRow) (userId : Option UUID) :
    ValidDocument (preferencesRead (withRows s rows) fails userId).1 := by
  unfold preferencesRead
  cases userId with
  | none => exact valid_default
  | some u =>
      dsimp only
      split
      · exact valid_default
      · cases hrow : rows u with
        | none =>
            simp only [withRows, hrow, Option.map_none]
            exact valid_default
        | some row =>
            simp only [withRows, hrow, Option.map_some]
            rw [document_reading]
            exact row.toDict.valid_document

/--
For all stored rows, custom modes and faults, a message is never blocked unless the custom
mode of the saved default cannot be read.
-/
theorem neverBlocked_iff (s : Store) (rows : UUID -> Option TableRow) (fails : Op -> Bool)
    (userId : Option UUID) (mode : Option Text) (selectedTools : Option (List Text)) :
    NeverBlocked (withRows s rows) fails userId mode selectedTools <->
      ¬SavedModeUnreadable (withRows s rows) fails userId mode := by
  cases mode with
  | some m =>
      refine iff_of_true (neverBlocked_explicit _ fails) ?_
      rintro ⟨hmode, _⟩
      cases hmode
  | none => exact neverBlocked_saved_iff _ fails (valid_preferencesRead s fails rows userId)

/-!
# An outage between the two reads
-/

def savingUser : UUID := .ofInt 1

def customDefaultRow : TableRow :=
  { defaultMode := none
    defaultCustomModeId := some (.ofInt 2)
    defaultTools := []
    answerLength := text "balanced"
    tone := text "professional"
    language := text "auto"
    personalInstructions := []
    citations := text "show"
    documentContext := text "conversation"
    version := 1
    updatedAt := 0 }

def readsOfModesFail : Op -> Bool
  | .selectCustomMode _ _ => true
  | _ => false

/-- A message without a mode is blocked by the default that its user has saved. -/
theorem saved_mode_blocks :
    ¬NeverBlocked (withRows .blank (fun _ => some customDefaultRow)) readsOfModesFail
      (some savingUser) none none := by
  intro h
  have hrun : (Prog.run storageMachine readsOfModesFail
      (resolveForMessage (some savingUser) none none)
      (withRows .blank (fun _ => some customDefaultRow))).1 = .error .storage := by
    decide
  unfold NeverBlocked at h
  rw [hrun] at h
  rcases h with ⟨m, hmode, _⟩
  cases hmode

end PreferencesService
end ConversationService
