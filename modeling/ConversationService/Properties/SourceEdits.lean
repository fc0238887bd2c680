import ConversationService.Model.SourceEditRepository

/-!
# Source edits that their clients saw

Any number of clients, statement by statement. A statement writes only over the version
that its client saw. Versions start again when an edit has been discarded and is made
anew, so this is the edit that the client saw as long as no client comes back to a block
whose edit has been made anew in between.
-/

namespace ConversationService

open Python Programs

/-- The client has seen this content at this version. -/
def EditCall.SawContent (call : EditCall) (record : SourceEditRecord) : Prop :=
  exists row, call.seen = some row ∧ row.version = record.row.version ∧
    row.content = record.row.content

/-- `written = True`, or `True` from a deletion. -/
def EditAnswer.writes : EditAnswer -> Bool
  | .saved _ written => written
  | .deleted removed => removed

/-- The effect of a statement that writes, with what its call returns. -/
inductive EditWrite (call : EditCall) (s : EditStore) : EditAnswer -> EditStore -> Prop where
  | created (submission : EditSubmission) : call.submission = some submission ->
      call.expectedVersion = 0 -> s.get call.key = none ->
      EditWrite call s (.saved (s.inserted call.key submission).row true)
        (s.put call.key (s.inserted call.key submission))
  | replaced (submission : EditSubmission) (record : SourceEditRecord) :
      call.submission = some submission -> s.get call.key = some record ->
      record.row.version = call.expectedVersion ->
      EditWrite call s (.saved (s.updated record submission.content).row true)
        (s.put call.key (s.updated record submission.content))
  | discarded (record : SourceEditRecord) : call.submission = none ->
      s.get call.key = some record -> record.row.version = call.expectedVersion ->
      EditWrite call s (.deleted true) (s.remove call.key)

/--
A step after which the edits are what they were. A call that returns with it does not say
that it has written.
-/
structure LeavesEdits (pool pool' : EditPool) : Prop where
  edits : pool'.store.edits = pool.store.edits
  answers : Pool.AnswersWith EditCall.program (fun _ answer => answer.writes = false) pool pool'

/-- A step with which one call writes, over nothing or over what its client saw. -/
def WritesSeenEdit (pool pool' : EditPool) : Prop :=
  exists before after call prog answer, pool.tasks = before ++ ⟨call, prog⟩ :: after ∧
    pool'.tasks = before ++ ⟨call, .ret answer⟩ :: after ∧
    EditWrite call pool.store answer pool'.store ∧
    forall record, pool.store.get call.key = some record -> call.SawContent record

/-- The version over which an operation may write. -/
def EditOp.overwrites : EditOp -> Option Int
  | .updateEdit _ _ expected => some expected
  | .deleteEdit _ expected => some expected
  | _ => none

/--
An edit with the version that the client saw is the one that it saw, perhaps changed, and
not another one that has been made after the first was discarded.
-/
def SeesSameEdit (pool : EditPool) (t : EditTask) : Prop :=
  forall o next expected record, t.prog = .op o next -> o.overwrites = some expected ->
    pool.store.get t.call.key = some record -> record.row.version = expected ->
    exists old, (t.call.key, old) ∈ pool.store.past ∧ t.call.seen = some old.row ∧
      old.id = record.id

/-!
# The stages of a call
-/

inductive EditStage where
  | start
  | reread
  | returned (answer : EditAnswer)
  | raised (e : EditExc)

/-- What a call does when its conditional write has written nothing. -/
def EditCall.reread (call : EditCall) : EditProg EditAnswer := do
  let current <- SourceEditRepository.get call.key
  match call.submission with
  | some submission =>
      SourceEditRepository.unwritten submission call.expectedVersion current
  | none => SourceEditRepository.undeleted current

def EditStage.program (call : EditCall) : EditStage -> EditProg EditAnswer
  | .start => call.program
  | .reread => call.reread
  | .returned answer => .ret answer
  | .raised e => .raise e

/-- The program is what some stage of the call leaves to be run. -/
def AtEditStage (call : EditCall) (prog : EditProg EditAnswer) : Prop :=
  exists stage : EditStage, prog = stage.program call

/-- One operation of a call either writes or leaves the edits alone. -/
inductive EditStep (call : EditCall) (s : EditStore) :
    EditProg EditAnswer -> EditStore -> Prop where
  | writes (answer : EditAnswer) (t : EditStore) : EditWrite call s answer t ->
      EditStep call s (.ret answer) t
  | rereads : EditStep call s call.reread s
  | returns (answer : EditAnswer) : answer.writes = false -> EditStep call s (.ret answer) s
  | raises (e : EditExc) : EditStep call s (.raise e) s

theorem EditStep.atStage {call : EditCall} {s t : EditStore} {prog : EditProg EditAnswer}
    (h : EditStep call s prog t) : AtEditStage call prog := by
  cases h with
  | writes answer t hwrite => exact ⟨.returned answer, rfl⟩
  | rereads => exact ⟨.reread, rfl⟩
  | returns answer hwrites => exact ⟨.returned answer, rfl⟩
  | raises e => exact ⟨.raised e, rfl⟩

section Steps

variable {call : EditCall} {o : editTable.Op} {s : EditStore}
  {next : Option (editTable.Res o) -> EditProg EditAnswer}
  {permits : EditPool -> EditTask -> Prop}

/-- What a save does with the answer of its conditional write. -/
def EditCall.afterWrite (call : EditCall) (row : Option SourceEditRow) :
    EditProg EditAnswer :=
  match row with
  | some row => .ret (.saved row true)
  | none => call.reread

theorem editStep_insert {submission : EditSubmission}
    (hsave : call.submission = some submission) (hzero : call.expectedVersion = 0) :
    EditStep call s
      (call.afterWrite (EditOp.exec (.insertEdit call.key submission) s).1)
      (EditOp.exec (.insertEdit call.key submission) s).2 := by
  have hstays : forall exec, exec = (none, s) ->
      EditStep call s (call.afterWrite exec.1) exec.2 := by
    intro exec hexec
    rw [hexec]
    exact EditStep.rereads
  by_cases hcap : s.count call.key.owner call.key.conversationId <
      submission.maxPerConversation
  · cases hrow : s.get call.key with
    | none =>
        have hexec : EditOp.exec (.insertEdit call.key submission) s =
            (some (s.inserted call.key submission).row,
              s.put call.key (s.inserted call.key submission)) := by
          simp [EditOp.exec, hcap, hrow]
        rw [hexec]
        exact EditStep.writes _ _ (EditWrite.created submission hsave hzero hrow)
    | some record => exact hstays _ (by simp [EditOp.exec, hcap, hrow])
  · exact hstays _ (by simp [EditOp.exec, hcap])

theorem editStep_update {submission : EditSubmission}
    (hsave : call.submission = some submission) :
    EditStep call s
      (call.afterWrite
        (EditOp.exec (.updateEdit call.key submission.content call.expectedVersion) s).1)
      (EditOp.exec (.updateEdit call.key submission.content call.expectedVersion) s).2 := by
  have hstays : forall exec, exec = (none, s) ->
      EditStep call s (call.afterWrite exec.1) exec.2 := by
    intro exec hexec
    rw [hexec]
    exact EditStep.rereads
  cases hrow : s.get call.key with
  | none => exact hstays _ (by simp [EditOp.exec, hrow])
  | some record =>
      by_cases hmatch : record.row.version = call.expectedVersion ∧
          record.row.content ≠ submission.content
      · have hexec : EditOp.exec
            (.updateEdit call.key submission.content call.expectedVersion) s =
            (some (s.updated record submission.content).row,
              s.put call.key (s.updated record submission.content)) := by
          simp [EditOp.exec, hrow, hmatch]
        rw [hexec]
        exact EditStep.writes _ _
          (EditWrite.replaced submission record hsave hrow hmatch.left)
      · exact hstays _ (by simp [EditOp.exec, hrow, hmatch])

/-- What a deletion does with the answer of its statement. -/
def EditCall.afterDelete (call : EditCall) (removed : Bool) : EditProg EditAnswer :=
  if removed then .ret (.deleted true) else call.reread

theorem editStep_delete (hdelete : call.submission = none) :
    EditStep call s
      (call.afterDelete (EditOp.exec (.deleteEdit call.key call.expectedVersion) s).1)
      (EditOp.exec (.deleteEdit call.key call.expectedVersion) s).2 := by
  have hstays : forall exec, exec = (false, s) ->
      EditStep call s (call.afterDelete exec.1) exec.2 := by
    intro exec hexec
    rw [hexec]
    exact EditStep.rereads
  cases hrow : s.get call.key with
  | none => exact hstays _ (by simp [EditOp.exec, hrow])
  | some record =>
      by_cases hmatch : record.row.version = call.expectedVersion
      · have hexec : EditOp.exec (.deleteEdit call.key call.expectedVersion) s =
            (true, s.remove call.key) := by
          simp [EditOp.exec, hrow, hmatch]
        rw [hexec]
        exact EditStep.writes _ _ (EditWrite.discarded record hdelete hrow hmatch)
      · exact hstays _ (by simp [EditOp.exec, hrow, hmatch])

theorem write_eq_insertEdit {key : BlockKey} {submission : EditSubmission} {expected : Int}
    (h : expected = 0) : SourceEditRepository.write key submission expected =
      SourceEditRepository.execute (.insertEdit key submission) :=
  if_pos h

theorem write_eq_updateEdit {key : BlockKey} {submission : EditSubmission} {expected : Int}
    (h : expected ≠ 0) : SourceEditRepository.write key submission expected =
      SourceEditRepository.execute (.updateEdit key submission.content expected) :=
  if_neg h

/-- A call begins with one of its conditional statements. -/
inductive StartsWith (call : EditCall) : EditOp -> Prop where
  | insert (submission : EditSubmission) : call.submission = some submission ->
      call.expectedVersion = 0 -> StartsWith call (.insertEdit call.key submission)
  | update (submission : EditSubmission) : call.submission = some submission ->
      StartsWith call (.updateEdit call.key submission.content call.expectedVersion)
  | delete : call.submission = none ->
      StartsWith call (.deleteEdit call.key call.expectedVersion)

theorem afterWrite_save {submission : EditSubmission}
    (hsave : call.submission = some submission) (row : Option SourceEditRow) :
    call.afterWrite row =
      (match row with
      | some row => .ret (.saved row true)
      | none => do
          let current <- SourceEditRepository.get call.key
          SourceEditRepository.unwritten submission call.expectedVersion current) := by
  unfold EditCall.afterWrite EditCall.reread
  rw [hsave]

theorem afterDelete_delete (hdelete : call.submission = none) (removed : Bool) :
    call.afterDelete removed =
      (if removed then .ret (.deleted true)
      else do
        let current <- SourceEditRepository.get call.key
        SourceEditRepository.undeleted current) := by
  unfold EditCall.afterDelete EditCall.reread
  rw [hdelete]

theorem startsWith_program (call : EditCall) :
    exists o next, call.program = .op o next ∧ StartsWith call o ∧
      next none = .raise .database ∧
      forall s, EditStep call s (next (some (editMachine.exec o s).1))
        (editMachine.exec o s).2 := by
  unfold EditCall.program
  cases hsave : call.submission with
  | none =>
      refine ⟨_, _, rfl, StartsWith.delete hsave, rfl, fun s => ?_⟩
      have hstep := editStep_delete (s := s) hsave
      rw [afterDelete_delete hsave] at hstep
      exact hstep
  | some submission =>
      dsimp only
      unfold SourceEditRepository.save
      by_cases hzero : call.expectedVersion = 0
      · rw [write_eq_insertEdit hzero]
        refine ⟨_, _, rfl, StartsWith.insert submission hsave hzero, rfl, fun s => ?_⟩
        have hstep := editStep_insert (s := s) hsave hzero
        rw [afterWrite_save hsave] at hstep
        exact hstep
      · rw [write_eq_updateEdit hzero]
        refine ⟨_, _, rfl, StartsWith.update submission hsave, rfl, fun s => ?_⟩
        have hstep := editStep_update (s := s) hsave
        rw [afterWrite_save hsave] at hstep
        exact hstep

theorem editStep_start (h : call.program = .op o next) :
    StartsWith call o ∧ next none = .raise .database ∧
      forall s, EditStep call s (next (some (editMachine.exec o s).1))
        (editMachine.exec o s).2 := by
  rcases startsWith_program call with ⟨o', next', hprog, hstarts, hnone, hstep⟩
  rw [hprog] at h
  cases h
  exact ⟨hstarts, hnone, hstep⟩

/-- A call ends in this way behind its second read. -/
def EndsQuietly (prog : EditProg EditAnswer) : Prop :=
  (exists answer, prog = .ret answer ∧ answer.writes = false) ∨ exists e, prog = .raise e

theorem endsQuietly_unwritten (submission : EditSubmission) (expected : Int)
    (current : Option SourceEditRow) :
    EndsQuietly (SourceEditRepository.unwritten submission expected current) := by
  unfold SourceEditRepository.unwritten
  cases current with
  | none =>
      dsimp only
      split
      · exact Or.inr ⟨_, rfl⟩
      · exact Or.inr ⟨_, rfl⟩
  | some row =>
      dsimp only
      split
      · exact Or.inl ⟨_, rfl, rfl⟩
      · exact Or.inr ⟨_, rfl⟩

theorem endsQuietly_undeleted (current : Option SourceEditRow) :
    EndsQuietly (SourceEditRepository.undeleted current) := by
  cases current with
  | none => exact Or.inl ⟨_, rfl, rfl⟩
  | some row => exact Or.inr ⟨_, rfl⟩

theorem editStep_reread (h : call.reread = .op o next) :
    next none = .raise .database ∧
      forall s, (editMachine.exec o s).2 = s ∧
        EndsQuietly (next (some (editMachine.exec o s).1)) := by
  cases h
  refine ⟨rfl, fun s => ⟨rfl, ?_⟩⟩
  show EndsQuietly
    (match call.submission with
    | some submission => SourceEditRepository.unwritten submission call.expectedVersion
        ((s.get call.key).map SourceEditRecord.row)
    | none => SourceEditRepository.undeleted ((s.get call.key).map SourceEditRecord.row))
  cases call.submission with
  | none => exact endsQuietly_undeleted _
  | some submission => exact endsQuietly_unwritten _ _ _

theorem EndsQuietly.editStep {prog : EditProg EditAnswer} (h : EndsQuietly prog) :
    EditStep call s prog s := by
  rcases h with ⟨answer, hprog, hwrites⟩ | ⟨e, hprog⟩
  · rw [hprog]
    exact EditStep.returns answer hwrites
  · rw [hprog]
    exact EditStep.raises e

theorem editStep_next (permits : EditPool -> EditTask -> Prop)
    (h : AtEditStage call (.op o next)) :
    next none = .raise .database ∧
      forall s, EditStep call s (next (some ((editRules permits).machine.exec o s).1))
        ((editRules permits).machine.exec o s).2 := by
  rcases h with ⟨stage, hstage⟩
  cases stage with
  | start => exact (editStep_start hstage.symm).right
  | reread =>
      rcases editStep_reread hstage.symm with ⟨hnone, hquiet⟩
      refine ⟨hnone, fun s => ?_⟩
      show EditStep call s (next (some (editMachine.exec o s).1)) (editMachine.exec o s).2
      rw [(hquiet s).left]
      exact (hquiet s).right.editStep
  | returned answer => cases hstage
  | raised e => cases hstage

theorem EditWrite.answer_writes {answer : EditAnswer} {t : EditStore}
    (h : EditWrite call s answer t) : answer.writes = true := by
  cases h <;> rfl

theorem EditWrite.version {answer : EditAnswer} {t : EditStore}
    (h : EditWrite call s answer t) {record : SourceEditRecord}
    (hrecord : s.get call.key = some record) :
    record.row.version = call.expectedVersion := by
  cases h with
  | created submission hsave hzero hnone =>
      rw [hnone] at hrecord
      cases hrecord
  | replaced submission record' hsave hfound hversion =>
      rw [hfound] at hrecord
      cases hrecord
      exact hversion
  | discarded record' hdelete hfound hversion =>
      rw [hfound] at hrecord
      cases hrecord
      exact hversion

/-- A call that writes over an edit does so with a statement that may. -/
theorem overwrites_of_write (h : AtEditStage call (.op o next)) {answer : EditAnswer}
    {t : EditStore} (hwrite : EditWrite call s answer t)
    (hanswer : next (some ((editRules permits).machine.exec o s).1) = .ret answer)
    {record : SourceEditRecord} (hrecord : s.get call.key = some record) :
    EditOp.overwrites o = some call.expectedVersion := by
  have hversion := hwrite.version hrecord
  have hpositive := record.row.positive
  rcases h with ⟨stage, hstage⟩
  cases stage with
  | start =>
      have hstarts : StartsWith call o := (editStep_start hstage.symm).left
      cases hstarts with
      | insert submission hsave hzero =>
          rw [hzero] at hversion
          omega
      | update submission hsave => rfl
      | delete hdelete => rfl
  | reread =>
      rcases (editStep_reread hstage.symm).right s with ⟨_, hquiet⟩
      change next (some (editMachine.exec o s).1) = .ret answer at hanswer
      rw [hanswer] at hquiet
      rcases hquiet with ⟨answer', heq, hwrites⟩ | ⟨e, heq⟩
      · cases heq
        rw [hwrite.answer_writes] at hwrites
        cases hwrites
      · cases heq
  | returned answer => cases hstage
  | raised e => cases hstage

end Steps

/-!
# What has been stored
-/

/--
The stored edits are among the past ones. Of the edits with one id, no version is above
the stored one, and each version has one content.
-/
structure PastKnown (s : EditStore) : Prop where
  stored : forall key record, s.get key = some record -> (key, record) ∈ s.past
  below : forall key old record, (key, old) ∈ s.past -> s.get key = some record ->
    old.id = record.id -> old.row.version ≤ record.row.version
  same : forall key old old', (key, old) ∈ s.past -> (key, old') ∈ s.past ->
    old.id = old'.id -> old.row.version = old'.row.version ->
    old.row.content = old'.row.content

section Past

variable {s t : EditStore} {key : BlockKey} {call : EditCall}

theorem pastKnown_blank : PastKnown .blank where
  stored := by
    intro key record h
    cases h
  below := by
    intro key old record h
    cases h
  same := by
    intro key old old' h
    cases h

theorem pastKnown_put (h : PastKnown s) {record : SourceEditRecord}
    (hnew : forall old, (key, old) ∈ s.past -> old.id = record.id ->
      old.row.version < record.row.version) : PastKnown (s.put key record) where
  stored := by
    intro key' record' hget
    by_cases hkey : key' = key
    · subst hkey
      rw [EditStore.get_put_self] at hget
      cases hget
      exact List.mem_cons_self
    · rw [EditStore.get_put_ne s record hkey] at hget
      exact List.mem_cons_of_mem _ (h.stored key' record' hget)
  below := by
    intro key' old record' hold hget hid
    by_cases hkey : key' = key
    · subst hkey
      rw [EditStore.get_put_self] at hget
      cases hget
      rcases List.mem_cons.mp hold with heq | hpast
      · cases heq
        exact Int.le_refl _
      · exact le_of_lt (hnew old hpast hid)
    · rw [EditStore.get_put_ne s record hkey] at hget
      rcases List.mem_cons.mp hold with heq | hpast
      · cases heq
        exact absurd rfl hkey
      · exact h.below key' old record' hpast hget hid
  same := by
    intro key' old old' hold hold' hid hversion
    rcases List.mem_cons.mp hold with heq | hpast
    · cases heq
      rcases List.mem_cons.mp hold' with heq' | hpast'
      · cases heq'
        rfl
      · have hlt := hnew old' hpast' hid.symm
        omega
    · rcases List.mem_cons.mp hold' with heq' | hpast'
      · cases heq'
        have hlt := hnew old hpast hid
        omega
      · exact h.same key' old old' hpast hpast' hid hversion

theorem pastKnown_remove (h : PastKnown s) : PastKnown (s.remove key) where
  stored := by
    intro key' record hget
    by_cases hkey : key' = key
    · subst hkey
      rw [EditStore.get_remove_self] at hget
      cases hget
    · rw [EditStore.get_remove_ne s hkey] at hget
      exact h.stored key' record hget
  below := by
    intro key' old record hold hget hid
    by_cases hkey : key' = key
    · subst hkey
      rw [EditStore.get_remove_self] at hget
      cases hget
    · rw [EditStore.get_remove_ne s hkey] at hget
      exact h.below key' old record hold hget hid
  same := h.same

/-- The id that a save has drawn has not been stored. -/
def EditCall.Fresh (call : EditCall) (s : EditStore) : Prop :=
  forall submission entry, call.submission = some submission -> entry ∈ s.past ->
    entry.2.id ≠ submission.id

theorem pastKnown_write (h : PastKnown s) (hfresh : call.Fresh s) {answer : EditAnswer}
    (hwrite : EditWrite call s answer t) : PastKnown t := by
  cases hwrite with
  | created submission hsave hzero hnone =>
      apply pastKnown_put h
      intro old hold hid
      exact absurd hid (hfresh submission _ hsave hold)
  | replaced submission record hsave hfound hversion =>
      apply pastKnown_put h
      intro old hold hid
      have hle := h.below call.key old record hold hfound hid
      exact Int.lt_add_one_of_le hle
  | discarded record hdelete hfound hversion => exact pastKnown_remove h

theorem past_write (h : PastKnown s) {answer : EditAnswer}
    (hwrite : EditWrite call s answer t) {entry : BlockKey × SourceEditRecord}
    (hentry : entry ∈ t.past) :
    (exists old, old ∈ s.past ∧ old.2.id = entry.2.id) ∨
      exists submission, call.submission = some submission ∧ entry.2.id = submission.id := by
  cases hwrite with
  | created submission hsave hzero hnone =>
      rcases List.mem_cons.mp hentry with heq | hold
      · right
        rw [heq]
        exact ⟨submission, hsave, rfl⟩
      · exact Or.inl ⟨entry, hold, rfl⟩
  | replaced submission record hsave hfound hversion =>
      left
      rcases List.mem_cons.mp hentry with heq | hold
      · rw [heq]
        exact ⟨(call.key, record), h.stored _ _ hfound, rfl⟩
      · exact ⟨entry, hold, rfl⟩
  | discarded record hdelete hfound hversion => exact Or.inl ⟨entry, hentry, rfl⟩

theorem past_subset {answer : EditAnswer} (hwrite : EditWrite call s answer t)
    {entry : BlockKey × SourceEditRecord} (hentry : entry ∈ s.past) : entry ∈ t.past := by
  cases hwrite with
  | created submission hsave hzero hnone => exact List.mem_cons_of_mem _ hentry
  | replaced submission record hsave hfound hversion =>
      exact List.mem_cons_of_mem _ hentry
  | discarded record hdelete hfound hversion => exact hentry

theorem SendsWhatItSaw.mono (h : call.SendsWhatItSaw s)
    (hpast : forall entry, entry ∈ s.past -> entry ∈ t.past) : call.SendsWhatItSaw t := by
  unfold EditCall.SendsWhatItSaw at h ⊢
  cases hseen : call.seen with
  | none =>
      rw [hseen] at h
      exact h
  | some row =>
      rw [hseen] at h
      rcases h with ⟨hversion, record, hrecord, hrow⟩
      exact ⟨hversion, record, hpast _ hrecord, hrow⟩

theorem sawContent_of_same (h : PastKnown s) (hsends : call.SendsWhatItSaw s)
    {record : SourceEditRecord} (hrecord : s.get call.key = some record)
    (hversion : record.row.version = call.expectedVersion)
    (hsame : exists old, (call.key, old) ∈ s.past ∧ call.seen = some old.row ∧
      old.id = record.id) : call.SawContent record := by
  rcases hsame with ⟨old, hold, hseen, hid⟩
  unfold EditCall.SendsWhatItSaw at hsends
  rw [hseen] at hsends
  have hversions : old.row.version = record.row.version := by
    rw [hversion]
    exact hsends.left.symm
  exact ⟨old.row, hseen, hversions,
    h.same call.key old record hold (h.stored _ _ hrecord) hid hversions⟩

end Past

/-!
# All interleavings
-/

section Pools

variable {before after : List EditTask} {call : EditCall} {s : EditStore}

structure EditKnows (s : EditStore) (t : EditTask) : Prop where
  stage : AtEditStage t.call t.prog
  sends : t.call.SendsWhatItSaw s
  fresh : t.prog.Running -> t.call.Fresh s

/-- Two saves have not drawn the same id. -/
def ApartEdits (p q : EditTask) : Prop :=
  forall a b, p.call.submission = some a -> q.call.submission = some b -> a.id ≠ b.id

theorem editStep_cases {t : EditStore} {prog : EditProg EditAnswer}
    (h : EditStep call s prog t) :
    (exists answer, prog = .ret answer ∧ EditWrite call s answer t) ∨
      (t = s ∧ forall answer, prog = .ret answer -> answer.writes = false) := by
  cases h with
  | writes answer t hwrite => exact Or.inl ⟨answer, rfl, hwrite⟩
  | rereads =>
      refine Or.inr ⟨rfl, ?_⟩
      intro answer hanswer
      cases hanswer
  | returns answer hwrites =>
      refine Or.inr ⟨rfl, ?_⟩
      intro answer' hanswer
      cases hanswer
      exact hwrites
  | raises e =>
      refine Or.inr ⟨rfl, ?_⟩
      intro answer hanswer
      cases hanswer

theorem localProof_edits (permits : EditPool -> EditTask -> Prop) :
    Pool.LocalProof (editRules permits) (fun pool => PastKnown pool.store) EditKnows
      ApartEdits where
  symm := by
    intro p q h a b hq hp heq
    exact h b a hp hq heq.symm
  own := by
    intro before after call o next s h _
    have hknows : EditKnows s ⟨call, .op o next⟩ := h.each ⟨call, .op o next⟩ (by simp)
    have hstep := (editStep_next permits hknows.stage).right s
    rcases editStep_cases hstep with ⟨answer, hprog, hwrite⟩ | ⟨hstore, _⟩
    · refine ⟨pastKnown_write h.shared (hknows.fresh trivial) hwrite, hstep.atStage,
        SendsWhatItSaw.mono hknows.sends (fun _ => past_subset hwrite), ?_⟩
      intro hrunning
      rw [hprog] at hrunning
      exact hrunning.elim
    · rw [hstore]
      refine ⟨h.shared, ?_, hknows.sends, fun _ => hknows.fresh trivial⟩
      exact hstep.atStage
  ownFault := by
    intro before after call o next s h _
    have hknows : EditKnows s ⟨call, .op o next⟩ := h.each ⟨call, .op o next⟩ (by simp)
    have hnone := (editStep_next permits hknows.stage).left
    refine ⟨h.shared, ?_, hknows.sends, fun _ => hknows.fresh trivial⟩
    exact ⟨.raised .database, hnone⟩
  stable := by
    intro pool call o next q h hmem _ hq hapart
    have hknows := h.each q hq
    have hstep := (editStep_next permits (h.each _ hmem).stage).right pool.store
    rcases editStep_cases hstep with ⟨answer, _, hwrite⟩ | ⟨hstore, _⟩
    · refine ⟨hknows.stage, SendsWhatItSaw.mono hknows.sends (fun _ => past_subset hwrite),
        ?_⟩
      intro hrunning submission entry hsave hentry
      rcases past_write h.shared hwrite hentry with ⟨old, hold, hid⟩ | ⟨other, hother, hid⟩
      · rw [← hid]
        exact hknows.fresh hrunning submission old hsave hold
      · rw [hid]
        exact hapart other submission hother hsave
    · rw [hstore]
      exact hknows
  apartNext := fun _ _ _ _ _ _ _ _ _ hapart => hapart
  apartFault := fun _ _ _ _ _ _ _ _ _ hapart => hapart
  stopped := fun _ _ _ _ _ _ h _ _ => h.shared
  started := by
    intro pool call h hstart
    refine ⟨h.shared, ⟨⟨.start, rfl⟩, hstart.left, ?_⟩, ?_⟩
    · intro _ submission entry hsave hentry
      exact (hstart.right submission hsave).left entry hentry
    · intro q hq a b ha hb
      exact (hstart.right b hb).right q a hq ha
  moved := by
    intro tasks s t h hmove
    rcases hmove with ⟨hedits, hpast, _⟩
    have hget : forall key, t.get key = s.get key := by
      intro key
      unfold EditStore.get
      rw [hedits]
    refine ⟨⟨?_, ?_, ?_⟩, ?_⟩
    · intro key record hrecord
      rw [hpast]
      exact h.shared.stored key record ((hget key).symm.trans hrecord)
    · intro key old record hold hrecord
      rw [hpast] at hold
      exact h.shared.below key old record hold ((hget key).symm.trans hrecord)
    · intro key old old' hold hold'
      rw [hpast] at hold hold'
      exact h.shared.same key old old' hold hold'
    · intro q hq
      have hknows := h.each q hq
      refine ⟨hknows.stage, SendsWhatItSaw.mono hknows.sends ?_, ?_⟩
      · intro entry hentry
        rw [hpast]
        exact hentry
      · intro hrunning submission entry hsave hentry
        rw [hpast] at hentry
        exact hknows.fresh hrunning submission entry hsave hentry

theorem notReturned_start {answer : EditAnswer} : call.program ≠ .ret answer := by
  intro h
  rcases startsWith_program call with ⟨o, next, hprog, _⟩
  rw [hprog] at h
  cases h

theorem step_edits {pool pool' : EditPool}
    (hstep : Pool.Step (editRules SeesSameEdit) pool pool') (hpast : PastKnown pool.store)
    (hknows : forall t, t ∈ pool.tasks -> EditKnows pool.store t) :
    LeavesEdits pool pool' ∨ WritesSeenEdit pool pool' := by
  cases hstep with
  | perform before after call o next s hsees =>
      have hknow := hknows ⟨call, .op o next⟩ (by simp)
      have hnext := (editStep_next SeesSameEdit hknow.stage).right s
      rcases editStep_cases hnext with ⟨answer, hprog, hwrite⟩ | ⟨hstore, hquiet⟩
      · refine Or.inr ⟨before, after, call, .op o next, answer, rfl, ?_, hwrite, ?_⟩
        · rw [hprog]
        · intro record hrecord
          have hversion := hwrite.version hrecord
          have hmay := overwrites_of_write hknow.stage hwrite hprog hrecord
          exact sawContent_of_same hpast hknow.sends hrecord hversion
            (hsees o next _ record rfl hmay hrecord hversion)
      · exact Or.inl ⟨congrArg EditStore.edits hstore,
          .next before after call o next _ s _ hquiet⟩
  | fault before after call o next s _ =>
      have hknow := hknows ⟨call, .op o next⟩ (by simp)
      have hnone := (editStep_next SeesSameEdit hknow.stage).left
      refine Or.inl ⟨rfl, .next before after call o next _ s s ?_⟩
      intro answer hanswer
      rw [hnone] at hanswer
      cases hanswer
  | stop before after call o next s _ _ =>
      exact Or.inl ⟨rfl, .stop before after ⟨call, .op o next⟩ s⟩
  | start tasks call s _ =>
      exact Or.inl ⟨rfl, .start tasks call s (fun _ => notReturned_start)⟩
  | move tasks s t hmove => exact Or.inl ⟨hmove.left, .move tasks s t⟩

/--
As long as the edits that are written over are the ones that were seen, and not others
made anew since, each step leaves the edits alone or is a write over nothing or over the
content that its client saw.
-/
theorem edits_seen_kept {pool pool' : EditPool}
    (hreach : Pool.Reaches (editRules SeesSameEdit) ⟨.blank, []⟩ pool)
    (hstep : Pool.Step (editRules SeesSameEdit) pool pool') :
    LeavesEdits pool pool' ∨ WritesSeenEdit pool pool' := by
  have hholds := Pool.holds_reaches (localProof_edits SeesSameEdit) hreach
    ⟨pastKnown_blank, fun _ ht => (by cases ht), List.Pairwise.nil⟩
  exact step_edits hstep hholds.shared hholds.each

end Pools

/-!
# An edit that is made anew
-/

def firstBlock : BlockKey := ⟨.ofInt 1, .ofInt 2, .ofInt 3, text "b"⟩

def shortSave (id : Nat) (content : String) : EditSubmission :=
  { id := .ofInt id
    content := text content
    language := []
    sourceFormat := .code
    originalSha256 := []
    maxPerConversation := 10 }

def firstEdit : SourceEditRow :=
  (EditStore.blank.inserted firstBlock (shortSave 4 "x")).row

/-- The client that saw the first edit comes back. -/
def comesBack : EditCall :=
  ⟨firstBlock, some (shortSave 6 "z"), some firstEdit, 1⟩

def made : List (Pool.Act EditCall) :=
  [.start ⟨firstBlock, some (shortSave 4 "x"), none, 0⟩, .perform 0]

/-- The edit is made, discarded and made anew. -/
def madeAnew : List (Pool.Act EditCall) :=
  made ++ [.start ⟨firstBlock, none, some firstEdit, 1⟩, .perform 1,
    .start ⟨firstBlock, some (shortSave 5 "y"), none, 0⟩, .perform 2]

def sendsWhatItSaw? (s : EditStore) (call : EditCall) : Bool :=
  match call.seen with
  | none => decide (call.expectedVersion = 0)
  | some row => decide (call.expectedVersion = row.version) &&
      s.past.any (fun entry => decide (entry.1 = call.key) && decide (entry.2.row = row))

def drawsFreshId? (pool : EditPool) (call : EditCall) : Bool :=
  match call.submission with
  | none => true
  | some submission =>
      pool.store.past.all (fun entry => decide (entry.2.id ≠ submission.id)) &&
        pool.tasks.all (fun t => t.call.submission.all (fun other =>
          decide (other.id ≠ submission.id)))

theorem sendsWhatItSaw_of_check {s : EditStore} {call : EditCall}
    (h : sendsWhatItSaw? s call = true) : call.SendsWhatItSaw s := by
  unfold sendsWhatItSaw? at h
  unfold EditCall.SendsWhatItSaw
  cases hseen : call.seen with
  | none =>
      rw [hseen] at h
      exact of_decide_eq_true h
  | some row =>
      rw [hseen] at h
      rcases Bool.and_eq_true_iff.mp h with ⟨hversion, hpast⟩
      rcases List.any_eq_true.mp hpast with ⟨⟨key, record⟩, hmem, hentry⟩
      rcases Bool.and_eq_true_iff.mp hentry with ⟨hkey, hrow⟩
      have hsame : key = call.key := of_decide_eq_true hkey
      subst hsame
      exact ⟨of_decide_eq_true hversion, record, hmem, of_decide_eq_true hrow⟩

theorem drawsFreshId_of_check {pool : EditPool} {call : EditCall}
    (h : drawsFreshId? pool call = true) : call.DrawsFreshId pool := by
  intro submission hsave
  unfold drawsFreshId? at h
  rw [hsave] at h
  rcases Bool.and_eq_true_iff.mp h with ⟨hpast, htasks⟩
  refine ⟨?_, ?_⟩
  · intro entry hentry
    exact of_decide_eq_true (List.all_eq_true.mp hpast entry hentry)
  · intro t other ht hother
    have hall := List.all_eq_true.mp htasks t ht
    rw [hother] at hall
    exact of_decide_eq_true hall

/-- If the block has an edit, the client has seen one with its id. -/
def seesSameEdit? (pool : EditPool) (t : EditTask) : Bool :=
  match pool.store.get t.call.key with
  | some record =>
      pool.store.past.any (fun entry =>
        decide (entry.1 = t.call.key) && decide (t.call.seen = some entry.2.row) &&
          decide (entry.2.id = record.id))
  | none => true

theorem seesSameEdit_of_check {pool : EditPool} {t : EditTask}
    (h : seesSameEdit? pool t = true) : SeesSameEdit pool t := by
  intro o next expected record _ _ hrecord _
  unfold seesSameEdit? at h
  rw [hrecord] at h
  rcases List.any_eq_true.mp h with ⟨⟨key, old⟩, hmem, hentry⟩
  rcases Bool.and_eq_true_iff.mp hentry with ⟨hboth, hid⟩
  rcases Bool.and_eq_true_iff.mp hboth with ⟨hkey, hseen⟩
  have hsame : key = t.call.key := of_decide_eq_true hkey
  subst hsame
  exact ⟨old, hmem, of_decide_eq_true hseen, of_decide_eq_true hid⟩

def editActs (ok : EditPool -> EditTask -> Bool) (pool : EditPool) :
    Pool.Act EditCall -> Bool
  | .start call => sendsWhatItSaw? pool.store call && drawsFreshId? pool call
  | .perform i => (pool.tasks[i]?).all (ok pool)
  | _ => false

theorem allows_of_editActs {permits : EditPool -> EditTask -> Prop}
    {ok : EditPool -> EditTask -> Bool}
    (hok : forall pool t, ok pool t = true -> permits pool t) {pool : EditPool}
    {act : Pool.Act EditCall} (h : editActs ok pool act = true) :
    Pool.Allows (editRules permits) pool act := by
  cases act with
  | start call =>
      rcases Bool.and_eq_true_iff.mp h with ⟨hsends, hfresh⟩
      exact ⟨sendsWhatItSaw_of_check hsends, drawsFreshId_of_check hfresh⟩
  | perform i =>
      intro t ht
      change (pool.tasks[i]?).all (ok pool) = true at h
      rw [ht] at h
      exact hok pool t h
  | fault i => cases h
  | stop i => cases h

def cameBack (acts : List (Pool.Act EditCall)) : EditPool :=
  (acts ++ [Pool.Act.start comesBack]).foldl (Pool.play (editRules SeesSameEdit)) ⟨.blank, []⟩

theorem edits_seen_kept_changed :
    LeavesEdits (cameBack made)
        (Pool.play (editRules SeesSameEdit) (cameBack made) (.perform 1)) ∨
      WritesSeenEdit (cameBack made)
        (Pool.play (editRules SeesSameEdit) (cameBack made) (.perform 1)) := by
  have hchecks : Pool.checks (editRules SeesSameEdit) (editActs seesSameEdit?)
      ⟨.blank, []⟩ (made ++ [Pool.Act.start comesBack]) = true := by
    decide
  have hsees : seesSameEdit? (cameBack made) ⟨comesBack, comesBack.program⟩ = true := by
    decide
  exact edits_seen_kept
    (Pool.reaches_schedule (Pool.allowsAll_of_checks
      (fun _ _ h => allows_of_editActs (fun _ _ => seesSameEdit_of_check) h) hchecks))
    (Pool.step_perform (t := ⟨comesBack, comesBack.program⟩) rfl trivial
      (seesSameEdit_of_check hsees))

/-- The client writes over an edit that it has not seen. -/
theorem unseen_edit_replaced :
    ¬forall pool pool' : EditPool,
      Pool.Reaches (editRules (fun _ _ => True)) ⟨.blank, []⟩ pool ->
      Pool.Step (editRules (fun _ _ => True)) pool pool' ->
      LeavesEdits pool pool' ∨ WritesSeenEdit pool pool' := by
  intro hall
  let rules := editRules (fun _ _ => True)
  let pool := (madeAnew ++ [Pool.Act.start comesBack]).foldl (Pool.play rules) ⟨.blank, []⟩
  have hchecks : Pool.checks rules (editActs (fun _ _ => true)) ⟨.blank, []⟩
      (madeAnew ++ [Pool.Act.start comesBack]) = true := by
    decide
  have hreach : Pool.Reaches rules ⟨.blank, []⟩ pool :=
    Pool.reaches_schedule (Pool.allowsAll_of_checks
      (fun _ _ h => allows_of_editActs (fun _ _ _ => trivial) h) hchecks)
  have hstep : Pool.Step rules pool (Pool.play rules pool (.perform 3)) :=
    Pool.step_perform (t := ⟨comesBack, comesBack.program⟩) rfl trivial trivial
  have hstored : (pool.store.get firstBlock).map (fun record => record.row.content) =
      some (text "y") := by
    decide
  have hreplaced : ((Pool.play rules pool (.perform 3)).store.get firstBlock).map
      (fun record => record.row.content) = some (text "z") := by
    decide
  have hseen : (pool.tasks.all (fun t => decide (t.call.key = firstBlock) &&
      t.call.seen.all (fun row => decide (row.content ≠ text "y")))) = true := by
    decide
  rcases hall pool _ hreach hstep with hleaves | ⟨before, after, call, prog, answer, htasks,
    _, _, hsaw⟩
  · have hsame : (Pool.play rules pool (.perform 3)).store.get firstBlock =
        pool.store.get firstBlock := by
      unfold EditStore.get
      rw [hleaves.edits]
    rw [hsame, hstored] at hreplaced
    exact absurd hreplaced (by decide)
  · have hmem : (⟨call, prog⟩ : EditTask) ∈ pool.tasks := by
      rw [htasks]
      simp
    rcases Bool.and_eq_true_iff.mp (List.all_eq_true.mp hseen _ hmem) with ⟨hkey, hrows⟩
    have hkey' : call.key = firstBlock := of_decide_eq_true hkey
    rcases Option.map_eq_some_iff.mp hstored with ⟨record, hrecord, hcontent⟩
    rw [← hkey'] at hrecord
    rcases hsaw record hrecord with ⟨row, hrow, _, hsame⟩
    rw [hrow] at hrows
    rw [hcontent] at hsame
    exact of_decide_eq_true hrows hsame

end ConversationService
