import ConversationService.Model.NotesRepository

/-!
# Versions of a notes document

Any number of saves, statement by statement. A save writes with at most one of its
statements, and only over the document whose version it expects. So the version counts the
saves that have written, and the stored document is the one that the last of them returned.
-/

namespace ConversationService

open Python Programs

/-- The version of a document, by which 0 stands for "no document yet". -/
def versionOf (document : Option NotesRow) : Int :=
  match document with
  | some row => row.version
  | none => 0

/-- The save has returned `written = True` for the document of the key. -/
def HasWritten (key : UUID × UUID) (t : NotesTask) : Bool :=
  decide (t.call.key = key) &&
    match t.prog with
    | .ret (_, written) => written
    | _ => false

/-- A write of a save over the document that it expects. -/
structure Replaces (call : NotesSave) (row : NotesRow) (s t : NotesStore) : Prop where
  expected : versionOf (s.notes call.key) = call.expectedVersion
  absent : call.expectedVersion = 0 <-> s.notes call.key = none
  content : row.content = call.content
  version : row.version = call.expectedVersion + 1
  stored : t.notes = Function.update s.notes call.key (some row)

/-- What a save returns that has written nothing: the stored document, with its content. -/
structure FoundWritten (s : NotesStore) (call : NotesSave) (answer : NotesRow × Bool) : Prop where
  unwritten : answer.2 = false
  stored : s.notes call.key = some answer.1
  content : answer.1.content = call.content

/--
A step after which the documents are what they were, and the same saves have written. A
save that returns with it answers `written = False`, having just read its own content.
-/
structure LeavesNotes (pool pool' : NotesPool) : Prop where
  notes : pool'.store.notes = pool.store.notes
  counted : forall key,
    pool'.tasks.countP (HasWritten key) = pool.tasks.countP (HasWritten key)
  answers : Pool.AnswersWith NotesSave.program (FoundWritten pool.store) pool pool'

/-- A step with which one save writes, and returns what it has written. -/
def WritesNotes (pool pool' : NotesPool) : Prop :=
  exists before after call prog row, pool.tasks = before ++ ⟨call, prog⟩ :: after ∧
    pool'.tasks = before ++ ⟨call, .ret (row, true)⟩ :: after ∧
    Replaces call row pool.store pool'.store

/-- What holds of a key after any run from `s`. -/
structure VersionsKept (s : NotesStore) (key : UUID × UUID) (pool : NotesPool) :
    Prop where
  counted : versionOf (pool.store.notes key) =
    versionOf (s.notes key) + pool.tasks.countP (HasWritten key)
  latest : pool.store.notes key = s.notes key ∨
    exists call row, (⟨call, .ret (row, true)⟩ : NotesTask) ∈ pool.tasks ∧
      call.key = key ∧ pool.store.notes key = some row
  once : pool.tasks.Pairwise (fun p q => HasWritten key p = true ->
    HasWritten key q = true -> p.call.expectedVersion ≠ q.call.expectedVersion)

/-!
# The stages of a save
-/

inductive SaveStage where
  | start
  | reread
  | returned (row : NotesRow) (written : Bool)
  | raised (e : NotesExc)

def SaveStage.program (call : NotesSave) : SaveStage -> NotesProg (NotesRow × Bool)
  | .start => call.program
  | .reread => do
      let current <- NotesRepository.get call.key
      NotesRepository.unwritten call.content current
  | .returned row written => .ret (row, written)
  | .raised e => .raise e

/-- The program is what some stage of the save leaves to be run. -/
def AtStage (call : NotesSave) (prog : NotesProg (NotesRow × Bool)) : Prop :=
  exists stage : SaveStage, prog = stage.program call

section Steps

variable {call : NotesSave} {o : notesTable.Op} {s : NotesStore}
  {next : Option (notesTable.Res o) -> NotesProg (NotesRow × Bool)}

/-- One operation of a save either writes as it should or leaves the documents alone. -/
inductive SaveStep (call : NotesSave) (s : NotesStore) :
    NotesProg (NotesRow × Bool) -> NotesStore -> Prop where
  | writes (row : NotesRow) (t : NotesStore) : Replaces call row s t ->
      SaveStep call s (.ret (row, true)) t
  | rereads : SaveStep call s (SaveStage.reread.program call) s
  | finds (row : NotesRow) : s.notes call.key = some row -> row.content = call.content ->
      SaveStep call s (.ret (row, false)) s
  | raises (e : NotesExc) : SaveStep call s (.raise e) s

theorem SaveStep.atStage {prog : NotesProg (NotesRow × Bool)} {t : NotesStore}
    (h : SaveStep call s prog t) : AtStage call prog := by
  cases h with
  | writes row t hreplaces => exact ⟨.returned row true, rfl⟩
  | rereads => exact ⟨.reread, rfl⟩
  | finds row hrow hcontent => exact ⟨.returned row false, rfl⟩
  | raises e => exact ⟨.raised e, rfl⟩

theorem replaces_inserted (hzero : call.expectedVersion = 0)
    (hnone : s.notes call.key = none) :
    Replaces call (s.inserted call.content) s
      (s.put call.key (s.inserted call.content)) where
  expected := by
    rw [hnone, hzero]
    rfl
  absent := ⟨fun _ => hnone, fun _ => hzero⟩
  content := rfl
  version := by
    rw [hzero]
    rfl
  stored := rfl

theorem replaces_updated {row : NotesRow} (hrow : s.notes call.key = some row)
    (hversion : row.version = call.expectedVersion) :
    Replaces call (s.updated row call.content) s
      (s.put call.key (s.updated row call.content)) where
  expected := by
    rw [hrow]
    exact hversion
  absent := by
    have hpositive := row.positive
    constructor
    · intro hzero
      omega
    · intro hnone
      rw [hnone] at hrow
      cases hrow
  content := rfl
  version := by
    rw [← hversion]
    rfl
  stored := rfl

theorem write_of_zero {key : UUID × UUID} {content : Text} {expected : Int}
    (h : expected = 0) : NotesRepository.write key content expected =
      NotesRepository.execute (.insertNotes key content) :=
  if_pos h

theorem write_of_ne {key : UUID × UUID} {content : Text} {expected : Int}
    (h : expected ≠ 0) : NotesRepository.write key content expected =
      NotesRepository.execute (.updateNotes key content expected) :=
  if_neg h

/-- What a save does with the answer of its conditional write. -/
def afterWrite (call : NotesSave) (row : Option NotesRow) : NotesProg (NotesRow × Bool) :=
  match row with
  | some row => .ret (row, true)
  | none => SaveStage.reread.program call

theorem saveStep_insert (hzero : call.expectedVersion = 0) :
    SaveStep call s (afterWrite call (NotesOp.exec (.insertNotes call.key call.content) s).1)
      (NotesOp.exec (.insertNotes call.key call.content) s).2 := by
  cases hrow : s.notes call.key with
  | none =>
      have hexec : NotesOp.exec (.insertNotes call.key call.content) s =
          (some (s.inserted call.content), s.put call.key (s.inserted call.content)) := by
        simp [NotesOp.exec, hrow]
      rw [hexec]
      exact SaveStep.writes _ _ (replaces_inserted hzero hrow)
  | some row =>
      have hexec : NotesOp.exec (.insertNotes call.key call.content) s = (none, s) := by
        simp [NotesOp.exec, hrow]
      rw [hexec]
      exact SaveStep.rereads

theorem saveStep_update :
    SaveStep call s
      (afterWrite call
        (NotesOp.exec (.updateNotes call.key call.content call.expectedVersion) s).1)
      (NotesOp.exec (.updateNotes call.key call.content call.expectedVersion) s).2 := by
  have hstays : forall exec, NotesOp.exec
      (.updateNotes call.key call.content call.expectedVersion) s = exec ->
      exec = (none, s) -> SaveStep call s (afterWrite call exec.1) exec.2 := by
    intro exec _ hexec
    rw [hexec]
    exact SaveStep.rereads
  cases hrow : s.notes call.key with
  | none => exact hstays _ rfl (by simp [NotesOp.exec, hrow])
  | some row =>
      by_cases hmatch : row.version = call.expectedVersion ∧ row.content ≠ call.content
      · have hexec : NotesOp.exec
            (.updateNotes call.key call.content call.expectedVersion) s =
            (some (s.updated row call.content),
              s.put call.key (s.updated row call.content)) := by
          simp [NotesOp.exec, hrow, hmatch]
        rw [hexec]
        exact SaveStep.writes _ _ (replaces_updated hrow hmatch.left)
      · exact hstays _ rfl (by simp [NotesOp.exec, hrow, hmatch])

theorem saveStep_start (h : call.program = .op o next) :
    SaveStep call s (next (some (notesRules.machine.exec o s).1))
      (notesRules.machine.exec o s).2 := by
  unfold NotesSave.program NotesRepository.save at h
  by_cases hzero : call.expectedVersion = 0
  · rw [write_of_zero hzero] at h
    cases h
    exact saveStep_insert hzero
  · rw [write_of_ne hzero] at h
    cases h
    exact saveStep_update

theorem saveStep_reread (h : SaveStage.reread.program call = .op o next) :
    SaveStep call s (next (some (notesRules.machine.exec o s).1))
      (notesRules.machine.exec o s).2 := by
  cases h
  show SaveStep call s (NotesRepository.unwritten call.content (s.notes call.key)) s
  unfold NotesRepository.unwritten
  cases hrow : s.notes call.key with
  | none => exact SaveStep.raises _
  | some row =>
      dsimp only
      split
      · rename_i hcontent
        exact SaveStep.finds row hrow hcontent
      · exact SaveStep.raises _

theorem saveStep_next (h : AtStage call (.op o next)) :
    SaveStep call s (next (some (notesRules.machine.exec o s).1))
      (notesRules.machine.exec o s).2 := by
  rcases h with ⟨stage, hstage⟩
  cases stage with
  | start => exact saveStep_start hstage.symm
  | reread => exact saveStep_reread hstage.symm
  | returned row written => cases hstage
  | raised e => cases hstage

theorem raised_of_fault (h : AtStage call (.op o next)) : next none = .raise .database := by
  rcases h with ⟨stage, hstage⟩
  cases stage with
  | start =>
      unfold SaveStage.program NotesSave.program NotesRepository.save at hstage
      by_cases hzero : call.expectedVersion = 0
      · rw [write_of_zero hzero] at hstage
        cases hstage
        rfl
      · rw [write_of_ne hzero] at hstage
        cases hstage
        rfl
  | reread =>
      cases hstage
      rfl
  | returned row written => cases hstage
  | raised e => cases hstage

end Steps

/-!
# Steps of a pool
-/

section Pools

variable {s t : NotesStore} {call : NotesSave} {key : UUID × UUID}
  {before after : List NotesTask}

theorem hasWritten_op (call : NotesSave) (o : notesTable.Op)
    (next : Option (notesTable.Res o) -> NotesProg (NotesRow × Bool)) (key : UUID × UUID) :
    HasWritten key ⟨call, .op o next⟩ = false :=
  Bool.and_false _

theorem program_eq_op (call : NotesSave) :
    exists o next, call.program = .op o next := by
  unfold NotesSave.program NotesRepository.save
  by_cases hzero : call.expectedVersion = 0
  · rw [write_of_zero hzero]
    exact ⟨_, _, rfl⟩
  · rw [write_of_ne hzero]
    exact ⟨_, _, rfl⟩

theorem hasWritten_start (call : NotesSave) (key : UUID × UUID) :
    HasWritten key ⟨call, notesRules.program call⟩ = false := by
  rcases program_eq_op call with ⟨o, next, hprog⟩
  show HasWritten key ⟨call, call.program⟩ = false
  rw [hprog]
  exact hasWritten_op _ _ _ _

theorem hasWritten_ret_iff {row : NotesRow} :
    HasWritten key ⟨call, .ret (row, true)⟩ = true <-> call.key = key := by
  simp [HasWritten]

theorem countP_replace {p p' : NotesTask}
    (h : HasWritten key p' = HasWritten key p) :
    (before ++ p' :: after).countP (HasWritten key) =
      (before ++ p :: after).countP (HasWritten key) := by
  rw [List.countP_append, List.countP_append, List.countP_cons, List.countP_cons, h]

theorem versionOf_written {row : NotesRow} (h : Replaces call row s t) :
    versionOf (t.notes call.key) = versionOf (s.notes call.key) + 1 := by
  rw [h.stored, Function.update_self, h.expected]
  exact h.version

theorem versionOf_other {row : NotesRow} (h : Replaces call row s t)
    (hkey : key ≠ call.key) : t.notes key = s.notes key := by
  rw [h.stored]
  exact Function.update_of_ne hkey _ _

theorem SaveStep.versionOf_le {prog : NotesProg (NotesRow × Bool)}
    (h : SaveStep call s prog t) (key : UUID × UUID) :
    versionOf (s.notes key) ≤ versionOf (t.notes key) := by
  cases h with
  | writes row t hreplaces =>
      by_cases hkey : key = call.key
      · subst hkey
        rw [versionOf_written hreplaces]
        omega
      · rw [versionOf_other hreplaces hkey]
  | rereads => exact Int.le_refl _
  | finds row hrow hcontent => exact Int.le_refl _
  | raises e => exact Int.le_refl _

theorem SaveStep.cases {prog : NotesProg (NotesRow × Bool)} (h : SaveStep call s prog t) :
    (exists row, prog = .ret (row, true) ∧ Replaces call row s t) ∨
      (t = s ∧ (forall key, HasWritten key ⟨call, prog⟩ = false) ∧
        forall answer, prog = .ret answer -> FoundWritten s call answer) := by
  cases h with
  | writes row t hreplaces => exact Or.inl ⟨row, rfl, hreplaces⟩
  | rereads =>
      refine Or.inr ⟨rfl, fun key => hasWritten_op _ _ _ _, ?_⟩
      intro answer hanswer
      cases hanswer
  | finds row hrow hcontent =>
      refine Or.inr ⟨rfl, fun key => Bool.and_false _, ?_⟩
      intro answer hanswer
      cases hanswer
      exact ⟨rfl, hrow, hcontent⟩
  | raises e =>
      refine Or.inr ⟨rfl, fun key => Bool.and_false _, ?_⟩
      intro answer hanswer
      cases hanswer

/-- What is known of one task: its stage, and that its write has been counted. -/
structure SaveKnows (s : NotesStore) (t : NotesTask) : Prop where
  stage : AtStage t.call t.prog
  below : forall key, HasWritten key t = true ->
    t.call.expectedVersion < versionOf (s.notes key)

/-- No two saves have written over the same version. -/
def ApartSaves (p q : NotesTask) : Prop :=
  forall key, HasWritten key p = true -> HasWritten key q = true ->
    p.call.expectedVersion ≠ q.call.expectedVersion

/-- The version counts the writes, and the document is that of the last one. -/
def NotesAccounted (s : NotesStore) (pool : NotesPool) : Prop :=
  forall key, versionOf (pool.store.notes key) =
      versionOf (s.notes key) + pool.tasks.countP (HasWritten key) ∧
    (pool.store.notes key = s.notes key ∨
      exists call row, (⟨call, .ret (row, true)⟩ : NotesTask) ∈ pool.tasks ∧
        call.key = key ∧ pool.store.notes key = some row)

theorem call_of_hasWritten {p : NotesTask} (h : HasWritten key p = true) :
    p.call.key = key :=
  of_decide_eq_true (Bool.and_eq_true_iff.mp h).left

theorem notesAccounted_replace {u u' : NotesStore} {p p' : NotesTask}
    (h : NotesAccounted s ⟨u, before ++ p :: after⟩) (hnotes : u'.notes = u.notes)
    (hp : forall key, HasWritten key p = false)
    (hp' : forall key, HasWritten key p' = false) :
    NotesAccounted s ⟨u', before ++ p' :: after⟩ := by
  intro key
  rcases h key with ⟨hcount, hlatest⟩
  rw [hnotes]
  refine ⟨?_, ?_⟩
  · rw [countP_replace (p := p) ((hp' key).trans (hp key).symm)]
    exact hcount
  · rcases hlatest with hsame | ⟨call, row, hmem, hkey, hrow⟩
    · exact Or.inl hsame
    · refine Or.inr ⟨call, row, ?_, hkey, hrow⟩
      rcases Pool.mem_replace hmem with heq | hother
      · have hwritten := hp key
        rw [← heq, hasWritten_ret_iff.mpr hkey] at hwritten
        cases hwritten
      · exact Pool.mem_split_of_mem hother

theorem notesAccounted_write {u u' : NotesStore} {o : notesTable.Op}
    {next : Option (notesTable.Res o) -> NotesProg (NotesRow × Bool)} {row : NotesRow}
    (h : NotesAccounted s ⟨u, before ++ ⟨call, .op o next⟩ :: after⟩)
    (hreplaces : Replaces call row u u') :
    NotesAccounted s ⟨u', before ++ ⟨call, .ret (row, true)⟩ :: after⟩ := by
  intro key
  rcases h key with ⟨hcount, hlatest⟩
  by_cases hkey : key = call.key
  · subst hkey
    refine ⟨?_, Or.inr ⟨call, row, by simp, rfl, ?_⟩⟩
    · have hwrites := versionOf_written hreplaces
      have hnew : HasWritten call.key ⟨call, .ret (row, true)⟩ = true :=
        hasWritten_ret_iff.mpr rfl
      have hold := hasWritten_op call o next call.key
      simp only [List.countP_append, List.countP_cons, hold, hnew] at hcount ⊢
      push_cast at hcount ⊢
      omega
    · rw [hreplaces.stored, Function.update_self]
  · have hsame := versionOf_other hreplaces hkey
    have hnew : HasWritten key ⟨call, .ret (row, true)⟩ = false := by
      cases hwritten : HasWritten key ⟨call, .ret (row, true)⟩ with
      | false => rfl
      | true => exact absurd (hasWritten_ret_iff.mp hwritten).symm hkey
    rw [hsame]
    refine ⟨?_, ?_⟩
    · rw [countP_replace (p := ⟨call, .op o next⟩)
        (hnew.trans (hasWritten_op call o next key).symm)]
      exact hcount
    · rcases hlatest with hfirst | ⟨call', row', hmem, hkey', hrow'⟩
      · exact Or.inl hfirst
      · refine Or.inr ⟨call', row', ?_, hkey', hrow'⟩
        rcases Pool.mem_replace hmem with heq | hother
        · cases heq
        · exact Pool.mem_split_of_mem hother

theorem saveKnows_next {u : NotesStore} {o : notesTable.Op}
    {next : Option (notesTable.Res o) -> NotesProg (NotesRow × Bool)}
    (h : SaveStep call u (next (some (notesRules.machine.exec o u).1))
      (notesRules.machine.exec o u).2) :
    SaveKnows (notesRules.machine.exec o u).2
      ⟨call, next (some (notesRules.machine.exec o u).1)⟩ := by
  refine ⟨h.atStage, ?_⟩
  intro key hwritten
  rcases h.cases with ⟨row, hprog, hreplaces⟩ | ⟨_, hnot, _⟩
  · have hkey : call.key = key := call_of_hasWritten hwritten
    rw [← hkey, versionOf_written hreplaces, hreplaces.expected]
    show call.expectedVersion < call.expectedVersion + 1
    omega
  · rw [hnot key] at hwritten
    cases hwritten

theorem localProof_notes (s : NotesStore) :
    Pool.LocalProof notesRules (NotesAccounted s) SaveKnows ApartSaves where
  symm := by
    intro p q h key hq hp heq
    exact h key hp hq heq.symm
  own := by
    intro before after call o next u h _
    have hstage : AtStage call (.op o next) := (h.each ⟨call, .op o next⟩ (by simp)).stage
    have hstep := saveStep_next (s := u) hstage
    refine ⟨?_, saveKnows_next hstep⟩
    rcases hstep.cases with ⟨row, hprog, hreplaces⟩ | ⟨hstore, hnot, _⟩
    · rw [hprog]
      exact notesAccounted_write h.shared hreplaces
    · exact notesAccounted_replace h.shared (congrArg NotesStore.notes hstore)
        (hasWritten_op call o next) hnot
  ownFault := by
    intro before after call o next u h _
    have hstage : AtStage call (.op o next) := (h.each ⟨call, .op o next⟩ (by simp)).stage
    have hnone := raised_of_fault hstage
    refine ⟨?_, ?_⟩
    · rw [hnone]
      exact notesAccounted_replace h.shared rfl (hasWritten_op call o next)
        (fun key => Bool.and_false _)
    · rw [hnone]
      refine ⟨⟨.raised .database, rfl⟩, ?_⟩
      intro key hwritten
      exact absurd hwritten (by simp [HasWritten])
  stable := by
    intro pool call o next q h hmem _ hq _
    have hknows := h.each q hq
    refine ⟨hknows.stage, ?_⟩
    intro key hwritten
    have hstep := saveStep_next (s := pool.store) (h.each _ hmem).stage
    exact lt_of_lt_of_le (hknows.below key hwritten) (hstep.versionOf_le key)
  apartNext := by
    intro pool call o next q h hmem _ hq _ key hp hwritten heq
    have hstep := saveStep_next (s := pool.store) (h.each _ hmem).stage
    rcases hstep.cases with ⟨row, hprog, hreplaces⟩ | ⟨_, hnot, _⟩
    · have hkey : call.key = key := call_of_hasWritten hp
      have hbelow := (h.each q hq).below key hwritten
      have hexpected := hreplaces.expected
      rw [hkey] at hexpected
      have hsame : call.expectedVersion = q.call.expectedVersion := heq
      rw [hexpected, hsame] at hbelow
      exact lt_irrefl _ hbelow
    · rw [hnot key] at hp
      cases hp
  apartFault := by
    intro pool call o next q h hmem _ _ _ key hp
    rw [raised_of_fault (h.each _ hmem).stage] at hp
    exact absurd hp (by simp [HasWritten])
  stopped := by
    intro before after call o next u h _ _ key
    rcases h.shared key with ⟨hcount, hlatest⟩
    refine ⟨?_, ?_⟩
    · have hold := hasWritten_op call o next key
      simp only [List.countP_append, List.countP_cons, hold] at hcount ⊢
      exact hcount
    · rcases hlatest with hsame | ⟨call', row, hmem, hkey, hrow⟩
      · exact Or.inl hsame
      · refine Or.inr ⟨call', row, ?_, hkey, hrow⟩
        rcases Pool.mem_replace hmem with heq | hother
        · cases heq
        · exact hother
  started := by
    intro pool call h _
    refine ⟨?_, ⟨⟨.start, rfl⟩, ?_⟩, ?_⟩
    · intro key
      rcases h.shared key with ⟨hcount, hlatest⟩
      refine ⟨?_, ?_⟩
      · have hnew := hasWritten_start call key
        show versionOf (pool.store.notes key) = versionOf (s.notes key) +
          (pool.tasks ++ [(⟨call, notesRules.program call⟩ : NotesTask)]).countP (HasWritten key)
        rw [List.countP_append, List.countP_singleton, hnew]
        exact hcount
      · rcases hlatest with hsame | ⟨call', row, hmem, hkey, hrow⟩
        · exact Or.inl hsame
        · exact Or.inr ⟨call', row, List.mem_append_left _ hmem, hkey, hrow⟩
    · intro key hwritten
      rw [hasWritten_start call key] at hwritten
      cases hwritten
    · intro q _ key _ hwritten
      rw [hasWritten_start call key] at hwritten
      cases hwritten
  moved := by
    intro tasks u v h hmove
    refine ⟨?_, ?_⟩
    · intro key
      rw [show v.notes = u.notes from hmove.left]
      exact h.shared key
    · intro q hq
      have hknows := h.each q hq
      refine ⟨hknows.stage, ?_⟩
      rw [show v.notes = u.notes from hmove.left]
      exact hknows.below

theorem step_notes {pool pool' : NotesPool} (hstep : Pool.Step notesRules pool pool')
    (hstages : forall p, p ∈ pool.tasks -> AtStage p.call p.prog) :
    LeavesNotes pool pool' ∨ WritesNotes pool pool' := by
  cases hstep with
  | perform before after call o next u _ =>
      have hstage : AtStage call (.op o next) := hstages ⟨call, .op o next⟩ (by simp)
      rcases (saveStep_next (s := u) hstage).cases with
        ⟨row, hprog, hreplaces⟩ | ⟨hstore, hnot, hfound⟩
      · refine Or.inr ⟨before, after, call, .op o next, row, rfl, ?_, hreplaces⟩
        rw [hprog]
      · refine Or.inl ⟨congrArg NotesStore.notes hstore, ?_, ?_⟩
        · intro key
          exact countP_replace ((hnot key).trans (hasWritten_op call o next key).symm)
        · exact .next before after call o next _ u _ hfound
  | fault before after call o next u _ =>
      have hstage : AtStage call (.op o next) := hstages ⟨call, .op o next⟩ (by simp)
      have hnone := raised_of_fault hstage
      refine Or.inl ⟨rfl, ?_, ?_⟩
      · intro key
        apply countP_replace
        rw [hnone, hasWritten_op call o next key]
        exact Bool.and_false _
      · apply Pool.AnswersWith.next before after call o next _ u u
        intro answer hanswer
        rw [hnone] at hanswer
        cases hanswer
  | stop before after call o next u _ _ =>
      refine Or.inl ⟨rfl, ?_, ?_⟩
      · intro key
        have hold := hasWritten_op call o next key
        simp only [List.countP_append, List.countP_cons, hold]
        rfl
      · exact .stop before after ⟨call, .op o next⟩ u
  | start tasks call u _ =>
      refine Or.inl ⟨rfl, ?_, ?_⟩
      · intro key
        have hnew := hasWritten_start call key
        show (tasks ++ [(⟨call, notesRules.program call⟩ : NotesTask)]).countP
          (HasWritten key) = _
        rw [List.countP_append, List.countP_singleton, hnew]
        rfl
      · apply Pool.AnswersWith.start tasks call u
        intro answer hanswer
        rcases program_eq_op call with ⟨o, next, hstart⟩
        rw [hstart] at hanswer
        cases hanswer
  | move tasks u v hmove => exact Or.inl ⟨hmove.left, fun _ => rfl, .move tasks u v⟩

/--
Whatever the interleaving, the version counts the saves that have written, no two of them
over the same version, the stored document is that of the last one, and each step either
leaves the documents alone or is the write of one save over the document that it expects.
-/
theorem notes_versions_kept {pool : NotesPool}
    (hreach : Pool.Reaches notesRules ⟨s, []⟩ pool) :
    (forall key, VersionsKept s key pool) ∧
      forall pool', Pool.Step notesRules pool pool' ->
        LeavesNotes pool pool' ∨ WritesNotes pool pool' := by
  have hstart : Pool.Holds (NotesAccounted s) SaveKnows ApartSaves ⟨s, []⟩ := by
    refine ⟨?_, fun _ ht => (by cases ht), List.Pairwise.nil⟩
    intro key
    exact ⟨(Int.add_zero _).symm, Or.inl rfl⟩
  have hholds := Pool.holds_reaches (localProof_notes s) hreach hstart
  refine ⟨?_, ?_⟩
  · intro key
    rcases hholds.shared key with ⟨hcounted, hlatest⟩
    exact ⟨hcounted, hlatest, hholds.apart.imp (fun h => h key)⟩
  · intro pool' hstep
    exact step_notes hstep (fun p hp => (hholds.each p hp).stage)

end Pools

/-!
# Two writers
-/

def twoTabs : List (Pool.Act NotesSave) :=
  [.start ⟨(.ofInt 1, .ofInt 2), text "first", 0⟩,
    .start ⟨(.ofInt 1, .ofInt 2), text "second", 0⟩,
    .perform 0, .perform 1, .perform 1]

def NotesStore.blank : NotesStore := ⟨0, fun _ => none⟩

def afterTwoTabs : NotesPool :=
  twoTabs.foldl (Pool.play notesRules) ⟨.blank, []⟩

/-- One of them has written, and the other one is told so. -/
theorem notes_versions_kept_twoTabs :
    VersionsKept .blank (.ofInt 1, .ofInt 2) afterTwoTabs ∧
      afterTwoTabs.tasks.countP (HasWritten (.ofInt 1, .ofInt 2)) = 1 := by
  have hallows : Pool.AllowsAll notesRules ⟨.blank, []⟩ twoTabs := by
    apply Pool.allowsAll_of_forall
    intro act hact pool
    cases act with
    | start call => trivial
    | perform i => exact fun _ _ => trivial
    | fault i => exact fun _ _ _ _ => trivial
    | stop i => exact fun _ _ => ⟨trivial, trivial⟩
  refine ⟨?_, by decide⟩
  exact (notes_versions_kept (Pool.reaches_schedule hallows)).left (.ofInt 1, .ofInt 2)

end ConversationService
