import ConversationService.Effects.RenderAttempts
import ConversationService.Properties.ManualRetries

/-!
# The life cycle of a render

As long as no two workers advance one artifact at a time and every accepted submission is
recorded, the statuses of an artifact only change along its life cycle, and the attempts
to render it are bounded, whatever the render backend and the object store answer.
-/

namespace ConversationService

open Python ClusteredTable Programs

def begun : List ArtifactEvent -> Nat
  | [] => 0
  | .submitted _ :: earlier => begun earlier + 1
  | .registered _ :: _ => 0
  | .retried _ :: _ => 0
  | .missed _ :: _ => 0
  | _ :: earlier => begun earlier

def RecordsNext (t : ArtifactTask) (id : UUID) (attempts : Nat) : Prop :=
  Prog.GoesOn (S := artifactStorage) (fun o => o.QueuesAs id attempts) t.prog

/--
Advances of one artifact do not overlap, and between a submission and its record nothing
raises and no process stops.
-/
def lifecycleRules (svc : ArtifactService) :
    Rules ArtifactCall artifactStorage ArtifactExc ArtifactAnswer ArtifactStore :=
  { artifactRules svc (fun _ _ => True) True with
    mayFail := fun o => forall id attempts, ¬ArtifactOp.QueuesAs o id attempts
    mayStart := fun pool call => forall id t, t ∈ pool.tasks -> call.Advances id ->
      t.call.Advances id -> ¬t.prog.Running
    mayStopAt := fun _ t => forall id attempts, ¬RecordsNext t id attempts }

structure RenderSound (cfg : ArtifactSettings) (s : ArtifactStore) : Prop where
  /-- a ready animation has its file -/
  stored : forall id row, s.row id = some row -> row.status = .ready ->
    row.artifactType = .manim -> exists key checksum size, row.objectKey = some key ∧
      row.checksumSha256 = some checksum ∧ row.sizeBytes = some size ∧ 0 < size
  bounded : forall id, begun (s.eventsOf id) ≤ cfg.maxAutoAttempts
  /-- one row for each owner, type and fingerprint -/
  unique : forall id id' row row', s.row id = some row -> s.row id' = some row' ->
    row.ownerUserId = row'.ownerUserId -> row.artifactType = row'.artifactType ->
    row.fingerprint = row'.fingerprint -> id = id'

/-- What a step may do to an artifact that is ready or failed, and what a registration may. -/
structure RenderMoves (svc : ArtifactService) (pool pool' : ArtifactPool) : Prop where
  ready : forall id row, pool.store.row id = some row -> row.status = .ready ->
    (exists row', pool'.store.row id = some row' ∧ row'.status = .ready) ∨
      Pool.StepBy (lifecycleRules svc) (.markObjectMissing id) pool pool'
  failed : forall id row, pool.store.row id = some row -> row.status = .failed ->
    (exists row', pool'.store.row id = some row' ∧ row'.status = .failed) ∨
      exists owner, Pool.StepBy (lifecycleRules svc) (.retry owner id) pool pool'
  registered : forall request, Pool.StepBy (lifecycleRules svc) (.register request) pool pool' ->
    forall id row, pool.store.row id = some row -> pool'.store.row id = some row

/-!
# The rows
-/

section Rows

variable {cfg : ArtifactSettings} {s t : ArtifactStore} {call : ArtifactCall} {o : ArtifactOp}

def ArtifactRow.HasFile (row : ArtifactRow) : Prop :=
  row.status = .ready -> row.artifactType = .manim -> exists key checksum size,
    row.objectKey = some key ∧ row.checksumSha256 = some checksum ∧
      row.sizeBytes = some size ∧ 0 < size

def ArtifactRow.content (row : ArtifactRow) : UUID × ArtifactType × Text :=
  (row.ownerUserId, row.artifactType, row.fingerprint)

theorem content_apply (change : ArtifactChange) (now : Nat) (row : ArtifactRow) :
    (change.apply now row).content = row.content := by
  cases change with
  | _ => rfl

theorem hasFile_apply {change : ArtifactChange} {id : UUID} {allowedFrom : List ArtifactStatus}
    (hsent : change.SentBy cfg call id allowedFrom) (now : Nat) (row : ArtifactRow) :
    (change.apply now row).HasFile := by
  intro hready hmanim
  cases change with
  | ready objectKey thumbnailKey size checksum =>
      refine ⟨objectKey, checksum, size, rfl, rfl, rfl, ?_⟩
      exact Nat.lt_of_lt_of_le (by decide) hsent.right.right.right
  | moveTo status =>
      have hstatus := hsent.right.right
      rw [show status = .ready from hready] at hstatus
      simp at hstatus
  | queue jobId attempts => cases hready
  | requeue => cases hready
  | fail code => cases hready
  | retry retries => cases hready
  | missing => cases hready

theorem row_origin {id : UUID} {row : ArtifactRow} (hstep : ArtifactStep s o t id)
    (hsent : o.SentBy cfg call) (hrow : t.row id = some row) :
    (exists old, s.row id = some old ∧ row.content = old.content ∧
      (old.HasFile -> row.HasFile)) ∨
    exists new ref, o = .register id new ref ∧ s.row id = none ∧ s.hasContent new = false ∧
      row.content = new.content ∧ row.HasFile := by
  cases hstep with
  | same hsame hevents => exact Or.inl ⟨row, hsame.symm.trans hrow, rfl, fun h => h⟩
  | submitted row' job ho hanswer hsame hevents =>
      exact Or.inl ⟨row, hsame.symm.trans hrow, rfl, fun h => h⟩
  | registered new ref ho hnone hcontent hput hevents =>
      rw [hput] at hrow
      cases hrow
      refine Or.inr ⟨new, ref, ho, hnone, hcontent, rfl, ?_⟩
      intro hready hmanim
      subst ho
      rcases hsent.right.status with hpending | ⟨_, hmermaid⟩
      · cases hpending.symm.trans hready
      · cases hmermaid.symm.trans hmanim
  | claimed worker lease old ho hold hactive hfree hput hevents =>
      rw [hput] at hrow
      cases hrow
      exact Or.inl ⟨old, hold, rfl, fun h => h⟩
  | changed allowedFrom change old ho hold hallowed hput hevents =>
      rw [hput] at hrow
      cases hrow
      subst ho
      exact Or.inl ⟨old, hold, content_apply _ _ _, fun _ => hasFile_apply hsent _ _⟩
  | leased lease old ho hlease hold hput hevents =>
      rw [hput] at hrow
      cases hrow
      exact Or.inl ⟨old, hold, rfl, fun h => h⟩

/-- What holds of all rows, whoever runs. -/
structure RowsSound (s : ArtifactStore) : Prop where
  files : forall id row, s.row id = some row -> row.HasFile
  unique : forall id id' row row', s.row id = some row -> s.row id' = some row' ->
    row.content = row'.content -> id = id'

theorem content_of_hasContent {new row : ArtifactRow} {id : UUID}
    (hcontent : s.hasContent new = false) (hrow : s.row id = some row) :
    row.content ≠ new.content := by
  intro heq
  have hmem : (id, row) ∈ s.artifacts.rows :=
    (Partition.get_eq_some_iff s.artifacts id row).mp hrow
  have hnot := List.any_eq_false.mp hcontent (id, row) hmem
  apply hnot
  unfold ArtifactRow.content at heq
  simp only [Prod.mk.injEq] at heq
  simp [heq.left, heq.right.left, heq.right.right]

theorem rowsSound_exec (h : RowsSound s) (hsent : o.SentBy cfg call) :
    RowsSound (o.exec s).2 := by
  constructor
  · intro id row hrow
    rcases row_origin (artifactStep_exec s _ o) hsent hrow with
      ⟨old, hold, _, hfile⟩ | ⟨_, _, _, _, _, _, hfile⟩
    · exact hfile (h.files id old hold)
    · exact hfile
  · intro id id' row row' hrow hrow' hcontent
    rcases row_origin (artifactStep_exec s _ o) hsent hrow with
      ⟨old, hold, heq, _⟩ | ⟨new, ref, ho, _, hfresh, heq, _⟩
    · rcases row_origin (artifactStep_exec s _ o) hsent hrow' with
        ⟨old', hold', heq', _⟩ | ⟨new, ref, ho, _, hfresh, heq', _⟩
      · exact h.unique id id' old old' hold hold' (by rw [← heq, ← heq', hcontent])
      · exact absurd (by rw [← heq, ← heq', hcontent]) (content_of_hasContent hfresh hold)
    · rcases row_origin (artifactStep_exec s _ o) hsent hrow' with
        ⟨old', hold', heq', _⟩ | ⟨new', ref', ho', _, _, _, _⟩
      · exact absurd (by rw [← heq, ← heq', hcontent]) (content_of_hasContent hfresh hold')
      · rw [ho] at ho'
        cases ho'
        rfl

/-- A finished artifact only leaves its status by a report or by a retry. -/
theorem terminal_exec {id : UUID} {row : ArtifactRow} (hsent : o.SentBy cfg call)
    (hrow : s.row id = some row) (hterminal : row.status ∈ ArtifactStatus.terminal) :
    (exists row', (o.exec s).2.row id = some row' ∧ row'.status = row.status) ∨
      (row.status = .ready ∧ call = .markObjectMissing id) ∨
      (row.status = .failed ∧ exists owner, call = .retry owner id) := by
  cases artifactStep_exec s id o with
  | same hsame hevents => exact Or.inl ⟨row, hsame.trans hrow, rfl⟩
  | submitted row' job ho hanswer hsame hevents => exact Or.inl ⟨row, hsame.trans hrow, rfl⟩
  | registered new ref ho hnone hcontent hput hevents =>
      rw [hnone] at hrow
      cases hrow
  | claimed worker lease old ho hold hactive hfree hput hevents =>
      rw [hold] at hrow
      cases hrow
      exact Or.inl ⟨_, hput, rfl⟩
  | changed allowedFrom change old ho hold hallowed hput hevents =>
      rw [hold] at hrow
      cases hrow
      subst ho
      rcases terminal_change hsent hterminal hallowed with
        ⟨_, hready, hcall⟩ | ⟨_, hfailed, hcall⟩
      · exact Or.inr (Or.inl ⟨hready, hcall⟩)
      · exact Or.inr (Or.inr ⟨hfailed, hcall⟩)
  | leased lease old ho hlease hold hput hevents =>
      rw [hold] at hrow
      cases hrow
      exact Or.inl ⟨_, hput, rfl⟩

theorem register_exec {id : UUID} {row : ArtifactRow} {request : ArtifactService.Registration}
    (hsent : o.SentBy cfg (.register request)) (hrow : s.row id = some row) :
    (o.exec s).2.row id = some row := by
  cases artifactStep_exec s id o with
  | same hsame hevents => exact hsame.trans hrow
  | submitted row' job ho hanswer hsame hevents => exact hsame.trans hrow
  | registered new ref ho hnone hcontent hput hevents =>
      rw [hnone] at hrow
      cases hrow
  | claimed worker lease old ho hold hactive hfree hput hevents =>
      subst ho
      cases hsent
  | changed allowedFrom change old ho hold hallowed hput hevents =>
      subst ho
      cases change with
      | retry retries =>
          rcases hsent.left with ⟨owner, hcall⟩
          cases hcall
      | missing => cases hsent.left
      | _ =>
          rcases hsent.left with ⟨worker, hcall⟩
          cases hcall
  | leased lease old ho hlease hold hput hevents =>
      cases o with
      | release id' =>
          rcases hsent with ⟨worker, hcall⟩
          cases hcall
      | backoff id' delay =>
          rcases hsent with ⟨worker, hcall⟩
          cases hcall
      | _ => cases ho

end Rows

/-!
# The attempts
-/

section Attempts

variable {svc : ArtifactService}

/-- Some task is about to record so many attempts. -/
def IsRecording (tasks : List ArtifactTask) (id : UUID) (attempts : Nat) : Prop :=
  exists t, t ∈ tasks ∧ RecordsNext t id attempts

/-- The row has counted what was begun, but for an attempt that is about to be recorded. -/
structure AttemptsCounted (cfg : ArtifactSettings) (s : ArtifactStore)
    (tasks : List ArtifactTask) (id : UUID) : Prop where
  absent : s.row id = none -> begun (s.eventsOf id) = 0
  counted : forall row, s.row id = some row -> row.attemptCount ≤ cfg.maxAutoAttempts ∧
    (begun (s.eventsOf id) ≤ row.attemptCount ∨
      begun (s.eventsOf id) = row.attemptCount + 1 ∧
        IsRecording tasks id (row.attemptCount + 1))

def ArtifactStore.IsPending (s : ArtifactStore) (fact : PendingFact) : Prop :=
  exists row, s.row fact.1 = some row ∧ row.status = .pending ∧ row.attemptCount = fact.2

/-- What a running task knows to be pending is pending. -/
structure AttemptsKnown (svc : ArtifactService) (s : ArtifactStore) (t : ArtifactTask) :
    Prop where
  sent : Prog.AllOps (ArtifactOp.SentBy svc.cfg t.call) t.prog
  records : RecordsAtOnce t.prog
  knows : exists known, SubmitsKnown known t.prog (fun _ _ => True) ∧
    forall fact, known fact -> t.call.Advances fact.1 ∧
      (t.prog.Running -> s.IsPending fact)

/-- No two running tasks advance the same artifact. -/
def AdvanceApart (p q : ArtifactTask) : Prop :=
  forall id, p.call.Advances id -> q.call.Advances id -> p.prog.Running -> ¬q.prog.Running

section OneOperation

variable {s : ArtifactStore} {call : ArtifactCall} {o : ArtifactOp} {fact : PendingFact}

theorem isPending_other (h : s.IsPending fact) (hsent : o.SentBy svc.cfg call)
    (hother : ¬call.Advances fact.1) : (o.exec s).2.IsPending fact := by
  rcases h with ⟨row, hrow, hpending, hattempts⟩
  cases artifactStep_exec s fact.1 o with
  | same hsame hevents => exact ⟨row, hsame.trans hrow, hpending, hattempts⟩
  | submitted row' job ho hanswer hsame hevents =>
      exact ⟨row, hsame.trans hrow, hpending, hattempts⟩
  | registered new ref ho hnone hcontent hput hevents =>
      rw [hnone] at hrow
      cases hrow
  | claimed worker lease old ho hold hactive hfree hput hevents =>
      rw [hold] at hrow
      cases hrow
      exact ⟨_, hput, hpending, hattempts⟩
  | changed allowedFrom change old ho hold hallowed hput hevents =>
      rw [hold] at hrow
      cases hrow
      subst ho
      rw [hpending] at hallowed
      cases change with
      | retry retries =>
          rw [hsent.right.left] at hallowed
          simp at hallowed
      | missing =>
          rw [hsent.right] at hallowed
          simp at hallowed
      | _ => exact absurd hsent.left hother
  | leased lease old ho hlease hold hput hevents =>
      rw [hold] at hrow
      cases hrow
      exact ⟨_, hput, hpending, hattempts⟩

theorem cas_exec {id : UUID} {allowedFrom : List ArtifactStatus} (change : ArtifactChange)
    {row : ArtifactRow} (hrow : s.row id = some row) (hallowed : row.status ∈ allowedFrom) :
    (ArtifactOp.exec (.cas id allowedFrom change) s).1 = some (change.apply s.now row) ∧
      (ArtifactOp.exec (.cas id allowedFrom change) s).2.row id =
        some (change.apply s.now row) ∧
      (ArtifactOp.exec (.cas id allowedFrom change) s).2.eventsOf id =
        change.events id ++ s.eventsOf id := by
  have hselect : allowedFrom.contains row.status = true := List.contains_iff_mem.mpr hallowed
  unfold ArtifactOp.exec ArtifactStore.updateRow
  dsimp only
  rw [hrow]
  dsimp only
  rw [if_pos hselect]
  exact ⟨rfl, ArtifactStore.row_putRow_self _ _ _,
    eventsOf_record_self (events_artifactId id change)⟩

theorem isPending_kept (h : s.IsPending fact)
    (hkeeps : o.KeepsPending (some (o.exec s).1) fact) : (o.exec s).2.IsPending fact := by
  rcases h with ⟨row, hrow, hpending, hattempts⟩
  cases artifactStep_exec s fact.1 o with
  | same hsame hevents => exact ⟨row, hsame.trans hrow, hpending, hattempts⟩
  | submitted row' job ho hanswer hsame hevents =>
      exact ⟨row, hsame.trans hrow, hpending, hattempts⟩
  | registered new ref ho hnone hcontent hput hevents =>
      rw [hnone] at hrow
      cases hrow
  | claimed worker lease old ho hold hactive hfree hput hevents =>
      rw [hold] at hrow
      cases hrow
      exact ⟨_, hput, hpending, hattempts⟩
  | changed allowedFrom change old ho hold hallowed hput hevents =>
      subst ho
      rw [(cas_exec change hold hallowed).left] at hkeeps
      exact absurd rfl hkeeps
  | leased lease old ho hlease hold hput hevents =>
      rw [hold] at hrow
      cases hrow
      exact ⟨_, hput, hpending, hattempts⟩

theorem row_of_updateRow {id : UUID} {select : ArtifactRow -> Bool}
    {change : ArtifactRow -> ArtifactRow} {events : List ArtifactEvent} {row : ArtifactRow}
    (h : (s.updateRow id select change events).1 = some row) :
    (s.updateRow id select change events).2.row id = some row := by
  unfold ArtifactStore.updateRow at h ⊢
  cases hrow : s.row id with
  | none =>
      rw [hrow] at h
      cases h
  | some old =>
      rw [hrow] at h
      dsimp only at h ⊢
      split at h
      · rename_i hselect
        rw [if_pos hselect]
        cases h
        exact ArtifactStore.row_putRow_self _ _ _
      · cases h

theorem isPending_shown (hshows : o.ShowsPending (o.exec s).1 fact) :
    (o.exec s).2.IsPending fact := by
  cases o with
  | claim id worker lease =>
      cases hanswer : (ArtifactOp.exec (.claim id worker lease) s).1 with
      | none =>
          rw [hanswer] at hshows
          exact hshows.elim
      | some row =>
          rw [hanswer] at hshows
          rcases hshows with ⟨hpending, rfl⟩
          exact ⟨row, row_of_updateRow hanswer, hpending, rfl⟩
  | cas id allowedFrom change =>
      cases hanswer : (ArtifactOp.exec (.cas id allowedFrom change) s).1 with
      | none =>
          rw [hanswer] at hshows
          exact hshows.elim
      | some row =>
          rw [hanswer] at hshows
          rcases hshows with ⟨_, hpending, rfl⟩
          exact ⟨row, row_of_updateRow hanswer, hpending, rfl⟩
  | _ => exact hshows.elim

theorem advances_of_shown {r : o.Res} (hsent : o.SentBy svc.cfg call)
    (hshows : o.ShowsPending r fact) : call.Advances fact.1 := by
  cases o with
  | claim id worker lease =>
      cases r with
      | none => exact hshows.elim
      | some row =>
          rcases hshows with ⟨_, rfl⟩
          exact ⟨worker, hsent⟩
  | cas id allowedFrom change =>
      cases r with
      | none => exact hshows.elim
      | some row =>
          rcases hshows with ⟨hwork, _, rfl⟩
          cases change with
          | retry retries => exact hwork.elim
          | missing => exact hwork.elim
          | _ => exact hsent.left
  | _ => exact hshows.elim

end OneOperation

section Counting

variable {s t : ArtifactStore} {tasks tasks' : List ArtifactTask} {id : UUID}
  {row row' : ArtifactRow}

theorem attemptsCounted_row (h : AttemptsCounted svc.cfg s tasks id)
    (hrow : s.row id = some row) (hrow' : t.row id = some row')
    (hattempts : row'.attemptCount = row.attemptCount)
    (hbegun : begun (t.eventsOf id) = begun (s.eventsOf id))
    (hrecords : forall n, IsRecording tasks id n -> IsRecording tasks' id n) :
    AttemptsCounted svc.cfg t tasks' id := by
  constructor
  · intro hnone
    rw [hrow'] at hnone
    cases hnone
  · intro row'' hrow''
    rw [hrow'] at hrow''
    cases hrow''
    rw [hattempts, hbegun]
    rcases h.counted row hrow with ⟨hbound, hbegun | ⟨hbegun, hrecording⟩⟩
    · exact ⟨hbound, Or.inl hbegun⟩
    · exact ⟨hbound, Or.inr ⟨hbegun, hrecords _ hrecording⟩⟩

theorem attemptsCounted_same (h : AttemptsCounted svc.cfg s tasks id)
    (hrow : t.row id = s.row id) (hevents : t.eventsOf id = s.eventsOf id)
    (hrecords : forall n, IsRecording tasks id n -> IsRecording tasks' id n) :
    AttemptsCounted svc.cfg t tasks' id := by
  cases hold : s.row id with
  | some row =>
      exact attemptsCounted_row h hold (hrow.trans hold) rfl (congrArg begun hevents) hrecords
  | none =>
      constructor
      · intro _
        rw [hevents]
        exact h.absent hold
      · intro row hnew
        rw [hrow, hold] at hnew
        cases hnew

theorem attemptsCounted_fresh (hrow : t.row id = some row) (hattempts : row.attemptCount = 0)
    (hbegun : begun (t.eventsOf id) = 0) : AttemptsCounted svc.cfg t tasks id := by
  constructor
  · intro hnone
    rw [hrow] at hnone
    cases hnone
  · intro row' hrow'
    rw [hrow] at hrow'
    cases hrow'
    rw [hattempts, hbegun]
    exact ⟨Nat.zero_le _, Or.inl (Nat.le_refl _)⟩

theorem isRecording_replace {before after : List ArtifactTask} {p p' : ArtifactTask} {n : Nat}
    (h : IsRecording (before ++ p :: after) id n) (hp : ¬RecordsNext p id n) :
    IsRecording (before ++ p' :: after) id n := by
  rcases h with ⟨q, hq, hrecords⟩
  rcases Pool.mem_replace hq with rfl | hother
  · exact absurd hrecords hp
  · exact ⟨q, Pool.mem_split_of_mem hother, hrecords⟩

theorem advances_of_recordsNext {q : ArtifactTask} {n : Nat}
    (hsent : Prog.AllOps (ArtifactOp.SentBy svc.cfg q.call) q.prog) (h : RecordsNext q id n) :
    q.call.Advances id ∧ q.prog.Running ∧ n ≤ svc.cfg.maxAutoAttempts := by
  rcases q with ⟨call, prog⟩
  cases prog with
  | ret a => exact h.elim
  | raise e => exact h.elim
  | op o next =>
      have hq : o.QueuesAs id n := h
      have ho : o.SentBy svc.cfg call := hsent.left
      cases o with
      | cas id' allowedFrom change =>
          cases change with
          | queue jobId attempts =>
              rcases hq with ⟨rfl, rfl⟩
              exact ⟨ho.left, trivial, ho.right.right.left⟩
          | _ => exact hq.elim
      | _ => exact hq.elim

end Counting

section Step

variable {before after : List ArtifactTask} {call : ArtifactCall} {o : ArtifactOp}
  {next : Option o.Res -> ArtifactProg ArtifactAnswer} {s : ArtifactStore} {id : UUID}

abbrev AttemptsHold (svc : ArtifactService) (pool : ArtifactPool) : Prop :=
  Pool.Holds (fun pool => forall id, AttemptsCounted svc.cfg pool.store pool.tasks id)
    (AttemptsKnown svc) AdvanceApart pool

/-- Recording an attempt counts the one that was begun. -/
theorem attemptsCounted_queue {n : Nat}
    (h : AttemptsHold svc ⟨s, before ++ ⟨call, .op o next⟩ :: after⟩) (hq : o.QueuesAs id n)
    (tasks : List ArtifactTask) : AttemptsCounted svc.cfg (o.exec s).2 tasks id := by
  have hknown := h.each ⟨call, .op o next⟩ (by simp)
  rcases hknown.knows with ⟨known, hinformed, hfacts⟩
  have hsent : o.SentBy svc.cfg call := hknown.sent.left
  cases o with
  | cas id' allowedFrom change =>
      cases change with
      | queue jobId attempts =>
          rcases hq with ⟨rfl, rfl⟩
          rcases (hfacts _ (hinformed.left (id', attempts - 1) rfl)).right trivial with
            ⟨row, hrow, hpending, hattempts⟩
          change s.row id' = some row at hrow
          change row.attemptCount = attempts - 1 at hattempts
          have hallowed : row.status ∈ allowedFrom := by
            rw [hsent.right.left, hpending]
            exact List.mem_singleton_self _
          rcases cas_exec (.queue jobId attempts) hrow hallowed with ⟨_, hput, hevents⟩
          have hbegun : begun (s.eventsOf id') ≤ attempts := by
            have hpositive := hsent.right.right.right
            have hcount : AttemptsCounted svc.cfg s _ id' := h.shared id'
            rcases (hcount.counted row hrow).right with hle | ⟨heq, _⟩
            · omega
            · omega
          rw [← show _ = s.eventsOf id' from hevents] at hbegun
          constructor
          · intro hnone
            rw [hput] at hnone
            cases hnone
          · intro row' hrow'
            rw [hput] at hrow'
            cases hrow'
            exact ⟨hsent.right.right.left, Or.inl hbegun⟩
      | _ => exact hq.elim
  | _ => exact hq.elim

theorem not_recording_other {n : Nat}
    (h : AttemptsHold svc ⟨s, before ++ ⟨call, .op o next⟩ :: after⟩)
    (hcall : call.Advances id) (hq : ¬o.QueuesAs id n) :
    ¬IsRecording (before ++ ⟨call, .op o next⟩ :: after) id n := by
  rintro ⟨q, hmem, hrecords⟩
  rcases Pool.mem_replace hmem with rfl | hother
  · exact hq hrecords
  · have hworker := advances_of_recordsNext (h.each q hmem).sent hrecords
    have hapart : AdvanceApart ⟨call, .op o next⟩ q :=
      Pool.apart_of_mem (fun p q hpq id hq hp hqr hpr => hpq id hp hq hpr hqr) h.apart hother
    exact hapart id hcall hworker.left trivial hworker.right.left

theorem attemptsCounted_perform
    (h : AttemptsHold svc ⟨s, before ++ ⟨call, .op o next⟩ :: after⟩) (id : UUID) :
    AttemptsCounted svc.cfg (o.exec s).2
      (before ++ ⟨call, next (some (o.exec s).1)⟩ :: after) id := by
  by_cases hqueues : exists n, o.QueuesAs id n
  · rcases hqueues with ⟨n, hq⟩
    exact attemptsCounted_queue h hq _
  · have hcount : AttemptsCounted svc.cfg s (before ++ ⟨call, .op o next⟩ :: after) id :=
      h.shared id
    have hknown := h.each ⟨call, .op o next⟩ (by simp)
    have hsent : o.SentBy svc.cfg call := hknown.sent.left
    have hrecords : forall n, IsRecording (before ++ ⟨call, .op o next⟩ :: after) id n ->
        IsRecording (before ++ ⟨call, next (some (o.exec s).1)⟩ :: after) id n :=
      fun n hn => isRecording_replace hn (fun hnext => hqueues ⟨n, hnext⟩)
    cases artifactStep_exec s id o with
    | same hsame hevents => exact attemptsCounted_same hcount hsame hevents hrecords
    | submitted row job ho hanswer hsame hevents =>
        subst ho
        rcases hknown.knows with ⟨known, hinformed, hfacts⟩
        rcases (hfacts _ (hinformed.left (id, row.attemptCount) rfl)).right trivial with
          ⟨old, hold, hpending, hattempts⟩
        change s.row id = some old at hold
        change old.attemptCount = row.attemptCount at hattempts
        rcases hcount.counted old hold with ⟨hbound, hbegun | ⟨_, hrecording⟩⟩
        · constructor
          · intro hnone
            rw [hsame, hold] at hnone
            cases hnone
          · intro old' hold'
            rw [hsame, hold] at hold'
            cases hold'
            refine ⟨hbound, ?_⟩
            rw [hevents]
            show begun (s.eventsOf id) + 1 ≤ _ ∨ begun (s.eventsOf id) + 1 = _ ∧ _
            rcases Nat.lt_or_eq_of_le hbegun with hlt | heq
            · exact Or.inl hlt
            · refine Or.inr ⟨by rw [heq], ⟨call, next (some (.ok job))⟩, ?_, ?_⟩
              · have hexec : (ArtifactOp.exec (.submit id row) s).1 = .ok job := hanswer
                rw [hexec]
                simp
              · rw [hattempts]
                exact hknown.records.left (.ok job) trivial
        · exact absurd hrecording
            (not_recording_other h hsent.left (fun hq => hqueues ⟨_, hq⟩))
    | registered new ref ho hnone hcontent hput hevents =>
        subst ho
        exact attemptsCounted_fresh hput hsent.right.attempts (congrArg begun hevents)
    | claimed worker lease row ho hrow hactive hfree hput hevents =>
        exact attemptsCounted_row hcount hrow hput rfl (by rw [hevents]; rfl) hrecords
    | changed allowedFrom change row ho hrow hallowed hput hevents =>
        subst ho
        cases change with
        | queue jobId attempts => exact absurd ⟨attempts, rfl, rfl⟩ hqueues
        | retry retries => exact attemptsCounted_fresh hput rfl (congrArg begun hevents)
        | missing => exact attemptsCounted_fresh hput rfl (congrArg begun hevents)
        | _ => exact attemptsCounted_row hcount hrow hput rfl (by rw [hevents]; rfl) hrecords
    | leased lease row ho hlease hrow hput hevents =>
        exact attemptsCounted_row hcount hrow hput rfl (congrArg begun hevents) hrecords

theorem attemptsKnown_next (h : AttemptsKnown svc s ⟨call, .op o next⟩) :
    AttemptsKnown svc (o.exec s).2 ⟨call, next (some (o.exec s).1)⟩ := by
  rcases h.knows with ⟨known, hinformed, hfacts⟩
  refine ⟨h.sent.right _, h.records.right _, _, hinformed.right.left (o.exec s).1, ?_⟩
  intro fact hfact
  rcases hfact with hshown | ⟨hold, hkeeps⟩
  · exact ⟨advances_of_shown h.sent.left hshown, fun _ => isPending_shown hshown⟩
  · have hbefore := hfacts fact hold
    exact ⟨hbefore.left, fun _ => isPending_kept (hbefore.right trivial) hkeeps⟩

theorem attemptsKnown_fault (h : AttemptsKnown svc s ⟨call, .op o next⟩) :
    AttemptsKnown svc s ⟨call, next none⟩ := by
  rcases h.knows with ⟨known, hinformed, hfacts⟩
  refine ⟨h.sent.right none, h.records.right none, _, hinformed.right.right, ?_⟩
  intro fact hfact
  have hbefore := hfacts fact hfact.left
  exact ⟨hbefore.left, fun _ => hbefore.right trivial⟩

end Step

theorem localProof_attempts :
    Pool.LocalProof (lifecycleRules svc)
      (fun pool => forall id, AttemptsCounted svc.cfg pool.store pool.tasks id)
      (AttemptsKnown svc) AdvanceApart where
  symm p q hpq id hq hp hqr hpr := hpq id hp hq hpr hqr
  own before after call o next s h _ :=
    ⟨attemptsCounted_perform h, attemptsKnown_next (h.each ⟨call, .op o next⟩ (by simp))⟩
  ownFault before after call o next s h hfail := by
    refine ⟨fun id => ?_, attemptsKnown_fault (h.each ⟨call, .op o next⟩ (by simp))⟩
    have hcount : AttemptsCounted svc.cfg s (before ++ ⟨call, .op o next⟩ :: after) id :=
      h.shared id
    exact attemptsCounted_same hcount rfl rfl
      (fun n hn => isRecording_replace hn (fun hnext => hfail id n hnext))
  stable pool call o next q h hmem _ hq hapart := by
    have hknown := h.each q hq
    rcases hknown.knows with ⟨known, hinformed, hfacts⟩
    refine ⟨hknown.sent, hknown.records, known, hinformed, ?_⟩
    intro fact hfact
    refine ⟨(hfacts fact hfact).left, fun hrunning => ?_⟩
    have hsent : o.SentBy svc.cfg call := (h.each _ hmem).sent.left
    refine isPending_other ((hfacts fact hfact).right hrunning) hsent ?_
    intro hcall
    exact hapart fact.1 hcall (hfacts fact hfact).left trivial hrunning
  apartNext pool call o next q h hmem _ hq hapart id hp hq' _ := hapart id hp hq' trivial
  apartFault pool call o next q h hmem _ hq hapart id hp hq' _ := hapart id hp hq' trivial
  stopped before after call o next s h _ hat id := by
    have hcount : AttemptsCounted svc.cfg s (before ++ ⟨call, .op o next⟩ :: after) id :=
      h.shared id
    refine attemptsCounted_same hcount rfl rfl ?_
    rintro n ⟨q, hmem, hrecords⟩
    rcases Pool.mem_replace hmem with rfl | hother
    · exact absurd hrecords (hat id n)
    · exact ⟨q, hother, hrecords⟩
  started pool call h hstart := by
    refine ⟨fun id => ?_, ?_, ?_⟩
    · refine attemptsCounted_same (h.shared id) rfl rfl ?_
      rintro n ⟨q, hmem, hrecords⟩
      exact ⟨q, List.mem_append_left _ hmem, hrecords⟩
    · exact ⟨kind_program kind_sent, kind_program kind_recordsAtOnce, fun _ => False,
        submitsKnown_program _, fun _ hfalse => hfalse.elim⟩
    · intro q hq id hqcall hcall hrunning
      exact absurd hrunning (hstart id q hq hcall hqcall)
  moved tasks s t h hmove := by
    have hrow : forall id, t.row id = s.row id := by
      intro id
      show t.artifacts.get id = s.artifacts.get id
      rw [hmove.artifacts]
    have hevents : forall id, t.eventsOf id = s.eventsOf id := by
      intro id
      show t.history.filter _ = s.history.filter _
      rw [hmove.history]
    refine ⟨fun id => attemptsCounted_same (h.shared id) (hrow id) (hevents id)
      (fun _ hn => hn), ?_⟩
    intro q hq
    have hknown := h.each q hq
    rcases hknown.knows with ⟨known, hinformed, hfacts⟩
    refine ⟨hknown.sent, hknown.records, known, hinformed, ?_⟩
    intro fact hfact
    refine ⟨(hfacts fact hfact).left, fun hrunning => ?_⟩
    rcases (hfacts fact hfact).right hrunning with ⟨row, hold, hrest⟩
    exact ⟨row, (hrow fact.1).trans hold, hrest⟩

theorem begun_bounded {pool : ArtifactPool} (h : AttemptsHold svc pool) (id : UUID) :
    begun (pool.store.eventsOf id) ≤ svc.cfg.maxAutoAttempts := by
  cases hrow : pool.store.row id with
  | none =>
      rw [(h.shared id).absent hrow]
      exact Nat.zero_le _
  | some row =>
      rcases (h.shared id).counted row hrow with ⟨hbound, hle | ⟨heq, q, hmem, hrecords⟩⟩
      · exact Nat.le_trans hle hbound
      · rw [heq]
        exact (advances_of_recordsNext (h.each q hmem).sent hrecords).right.right

end Attempts

/-!
# Runs
-/

section Runs

variable {svc : ArtifactService}

theorem taskProof_rows :
    Pool.TaskProof (lifecycleRules svc) RowsSound
      (fun t => Prog.AllOps (ArtifactOp.SentBy svc.cfg t.call) t.prog) where
  done pool call o next hsound hsent _ := ⟨rowsSound_exec hsound hsent.left, hsent.right _⟩
  failed _ _ _ hsent _ := hsent.right none
  started _ _ _ _ := kind_program kind_sent
  moved s t hsound hmove := by
    have hrow : forall id, t.row id = s.row id := by
      intro id
      show t.artifacts.get id = s.artifacts.get id
      rw [hmove.artifacts]
    constructor
    · intro id row h
      exact hsound.files id row ((hrow id).symm.trans h)
    · intro id id' row row' h h'
      exact hsound.unique id id' row row' ((hrow id).symm.trans h) ((hrow id').symm.trans h')

/-- A step leaves a finished artifact its status, or is one of a report or of a retry. -/
theorem terminal_step {pool pool' : ArtifactPool} {id : UUID} {row : ArtifactRow}
    (hsent : forall t, t ∈ pool.tasks -> Prog.AllOps (ArtifactOp.SentBy svc.cfg t.call) t.prog)
    (hstep : Pool.Step (lifecycleRules svc) pool pool') (hrow : pool.store.row id = some row)
    (hterminal : row.status ∈ ArtifactStatus.terminal) :
    (exists row', pool'.store.row id = some row' ∧ row'.status = row.status) ∨
      (row.status = .ready ∧
        Pool.StepBy (lifecycleRules svc) (.markObjectMissing id) pool pool') ∨
      (row.status = .failed ∧
        exists owner, Pool.StepBy (lifecycleRules svc) (.retry owner id) pool pool') := by
  rcases Pool.step_store hstep with hsame | hmove | ⟨call, o, next, hmem, _, hstore, hby⟩
  · left
    rw [hsame]
    exact ⟨row, hrow, rfl⟩
  · left
    have hartifacts : pool'.store.artifacts.get id = pool.store.artifacts.get id := by
      rw [hmove.artifacts]
    exact ⟨row, hartifacts.trans hrow, rfl⟩
  · have ho : o.SentBy svc.cfg call := (hsent _ hmem).left
    rw [hstore]
    rcases terminal_exec ho hrow hterminal with hkept | ⟨hready, rfl⟩ | ⟨hfailed, owner, rfl⟩
    · exact Or.inl hkept
    · exact Or.inr (Or.inl ⟨hready, hby⟩)
    · exact Or.inr (Or.inr ⟨hfailed, owner, hby⟩)

theorem renderMoves_step {pool pool' : ArtifactPool}
    (hsent : forall t, t ∈ pool.tasks -> Prog.AllOps (ArtifactOp.SentBy svc.cfg t.call) t.prog)
    (hstep : Pool.Step (lifecycleRules svc) pool pool') : RenderMoves svc pool pool' := by
  constructor
  · intro id row hrow hready
    rcases terminal_step hsent hstep hrow (by rw [hready]; exact List.mem_cons_self) with
      ⟨row', hrow', hstatus⟩ | ⟨_, hby⟩ | ⟨hfailed, _⟩
    · exact Or.inl ⟨row', hrow', hstatus.trans hready⟩
    · exact Or.inr hby
    · cases hfailed.symm.trans hready
  · intro id row hrow hfailed
    rcases terminal_step hsent hstep hrow (by rw [hfailed]; simp [ArtifactStatus.terminal]) with
      ⟨row', hrow', hstatus⟩ | ⟨hready, _⟩ | ⟨_, hby⟩
    · exact Or.inl ⟨row', hrow', hstatus.trans hfailed⟩
    · cases hready.symm.trans hfailed
    · exact Or.inr hby
  · intro request hby id row hrow
    cases hby with
    | perform before after o next s =>
        have ho : o.SentBy svc.cfg (.register request) :=
          (hsent ⟨.register request, .op o next⟩ (by simp)).left
        exact register_exec ho hrow

/--
In every reachable pool the renders are sound, and every step from it leaves the finished
artifacts as the life cycle has it.
-/
theorem render_lifecycle {pool : ArtifactPool}
    (hreach : Pool.Reaches (lifecycleRules svc) ⟨.blank, []⟩ pool) :
    RenderSound svc.cfg pool.store ∧
      forall pool', Pool.Step (lifecycleRules svc) pool pool' -> RenderMoves svc pool pool' := by
  have hblank : RowsSound ArtifactStore.blank :=
    ⟨fun _ _ h => (by cases h), fun _ _ _ _ h => (by cases h)⟩
  have hempty : AttemptsHold svc ⟨.blank, []⟩ :=
    ⟨fun _ => ⟨fun _ => rfl, fun _ h => (by cases h)⟩, fun _ h => (by cases h),
      List.Pairwise.nil⟩
  have hrows := Pool.keeps_reaches taskProof_rows hreach ⟨hblank, fun _ h => (by cases h)⟩
  have hattempts := Pool.holds_reaches localProof_attempts hreach hempty
  refine ⟨⟨hrows.store.files, begun_bounded hattempts, ?_⟩,
    fun pool' hstep => renderMoves_step hrows.tasks hstep⟩
  intro id id' row row' hrow hrow' howner htype hfingerprint
  apply hrows.store.unique id id' row row' hrow hrow'
  unfold ArtifactRow.content
  rw [howner, htype, hfingerprint]

end Runs

/-!
# A backend that accepts every render and loses it
-/

def artifactService : ArtifactService := ⟨.default, id⟩

def ArtifactStore.losing : ArtifactStore :=
  { ArtifactStore.blank with
    backend :=
      { rendererVersion := []
        submit := .ok ⟨text "j", text "pending", none⟩
        status := none
        download := .gone
        thumbnail := none } }

/-- An animation is registered, and a worker submits it as often as it may. -/
def losingRenders : List (Pool.Act ArtifactCall) :=
  [.start (.register animation), .perform 0, .perform 0, .start (.advance animationId 1)] ++
    List.replicate 17 (.perform 1)

def losingPool : ArtifactPool :=
  losingRenders.foldl (Pool.play (lifecycleRules artifactService)) ⟨.losing, []⟩

def startsInTurn (pool : ArtifactPool) : Pool.Act ArtifactCall -> Bool
  | .start _ => pool.tasks.all (fun t => !decide t.prog.Running)
  | .perform _ => true
  | _ => false

theorem allows_of_startsInTurn (pool : ArtifactPool) (act : Pool.Act ArtifactCall)
    (h : startsInTurn pool act = true) :
    Pool.Allows (lifecycleRules artifactService) pool act := by
  cases act with
  | start call =>
      intro id t ht _ _
      have hended := List.all_eq_true.mp h t ht
      simpa using hended
  | perform i => exact fun _ _ => trivial
  | fault i => cases h
  | stop i => cases h

theorem render_lifecycle_losing :
    begun (losingPool.store.eventsOf animationId) = artifactService.cfg.maxAutoAttempts ∧
      RenderSound artifactService.cfg losingPool.store ∧
      forall pool', Pool.Step (lifecycleRules artifactService) losingPool pool' ->
        RenderMoves artifactService losingPool pool' := by
  have hbegun : begun (losingPool.store.eventsOf animationId) = 3 := by
    decide +kernel
  have hchecks : Pool.checks (lifecycleRules artifactService) startsInTurn ⟨.losing, []⟩
      losingRenders = true := by
    decide
  have hbackend : Pool.Reaches (lifecycleRules artifactService) ⟨.blank, []⟩ ⟨.losing, []⟩ :=
    Relation.ReflTransGen.single (Pool.Step.move [] _ _ ⟨Nat.le_refl _, rfl, rfl, Or.inl trivial⟩)
  exact ⟨hbegun, render_lifecycle (Relation.ReflTransGen.trans hbackend
    (Pool.reaches_schedule (Pool.allowsAll_of_checks allows_of_startsInTurn hchecks)))⟩

end ConversationService
