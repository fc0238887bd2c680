import ConversationService.Model.ArtifactService

/-!
# What the statements of the artifact service do to the artifacts

Every call sends operations of a few kinds only, each with the statuses to which it
restricts its change.
-/

namespace ConversationService

open Python ClusteredTable Programs

/-- The call is a run of a worker on the artifact. -/
def ArtifactCall.Advances (call : ArtifactCall) (id : UUID) : Prop :=
  exists worker, call = .advance id worker

/-- The call sends this change, restricted to these statuses. -/
def ArtifactChange.SentBy (cfg : ArtifactSettings) (call : ArtifactCall) (id : UUID)
    (allowedFrom : List ArtifactStatus) : ArtifactChange -> Prop
  | .queue _ attempts => call.Advances id ∧ allowedFrom = [.pending] ∧
      attempts ≤ cfg.maxAutoAttempts ∧ 0 < attempts
  | .moveTo status => call.Advances id ∧ allowedFrom = [.queued, .rendering] ∧
      status ∈ [ArtifactStatus.queued, .rendering, .uploading]
  | .requeue => call.Advances id ∧
      (allowedFrom = [.queued, .rendering] ∨ allowedFrom = [.uploading])
  | .ready objectKey _ size _ => call.Advances id ∧
      (forall status, status ∈ allowedFrom -> status ∈ ArtifactStatus.active) ∧
      objectKey = Fingerprint.videoObjectKey id ∧ Media.minMp4Bytes ≤ size
  | .fail _ => call.Advances id ∧ allowedFrom = ArtifactStatus.active
  | .retry retries => (exists owner, call = .retry owner id) ∧ allowedFrom = [.failed] ∧
      retries ≤ cfg.maxManualRetries
  | .missing => call = .markObjectMissing id ∧ allowedFrom = [.ready]

/-- The row that a registration begins with. -/
structure ArtifactRow.IsNew (row : ArtifactRow) : Prop where
  status : row.status = .pending ∨ row.status = .ready ∧ row.artifactType = .mermaid
  attempts : row.attemptCount = 0
  retries : row.retryCount = 0
  lease : row.leaseUntil = none

def ArtifactOp.SentBy (cfg : ArtifactSettings) (call : ArtifactCall) : ArtifactOp -> Prop
  | .register _ new _ => (exists request, call = .register request) ∧ new.IsNew
  | .claim id worker _ => call = .advance id worker
  | .cas id allowedFrom change => change.SentBy cfg call id allowedFrom
  | .release id => call.Advances id
  | .backoff id _ => call.Advances id
  | .submit id row => call.Advances id ∧ row.attemptCount < cfg.maxAutoAttempts
  | .status id _ => call.Advances id
  | .download id _ => call.Advances id
  | .downloadThumbnail id _ => call.Advances id
  | _ => True

/-!
# One operation
-/

/-- The lease that an operation sets whatever the status is. -/
def ArtifactOp.lease? (now : Nat) : ArtifactOp -> Option (Option Nat)
  | .release _ => some none
  | .backoff _ delay => some (some (now + delay))
  | _ => none

def ArtifactOp.leased? : ArtifactOp -> Option UUID
  | .release id => some id
  | .backoff id _ => some id
  | _ => none

/-- What an operation does to the row of one artifact and to what has happened to it. -/
inductive ArtifactStep (s : ArtifactStore) (o : ArtifactOp) (t : ArtifactStore) (id : UUID) :
    Prop where
  | same : t.row id = s.row id -> t.eventsOf id = s.eventsOf id -> ArtifactStep s o t id
  | submitted (row : ArtifactRow) (job : RenderJob) : o = .submit id row ->
      s.backend.submit = .ok job -> t.row id = s.row id ->
      t.eventsOf id = .submitted id :: s.eventsOf id -> ArtifactStep s o t id
  | registered (new : ArtifactRow) (ref : ArtifactRef) : o = .register id new ref ->
      s.row id = none -> s.hasContent new = false ->
      t.row id = some { new with updatedAt := s.now } ->
      t.eventsOf id = .registered id :: s.eventsOf id -> ArtifactStep s o t id
  | claimed (worker lease : Nat) (row : ArtifactRow) : o = .claim id worker lease ->
      s.row id = some row -> row.status ∈ ArtifactStatus.active ->
      row.leaseFree s.now = true ->
      t.row id = some { row with leaseUntil := some (s.now + lease) } ->
      t.eventsOf id = .claimed id worker (s.now + lease) :: s.eventsOf id ->
      ArtifactStep s o t id
  | changed (allowedFrom : List ArtifactStatus) (change : ArtifactChange)
      (row : ArtifactRow) : o = .cas id allowedFrom change -> s.row id = some row ->
      row.status ∈ allowedFrom -> t.row id = some (change.apply s.now row) ->
      t.eventsOf id = change.events id ++ s.eventsOf id -> ArtifactStep s o t id
  | leased (lease : Option Nat) (row : ArtifactRow) : o.leased? = some id ->
      o.lease? s.now = some lease -> s.row id = some row ->
      t.row id = some { row with leaseUntil := lease } -> t.eventsOf id = s.eventsOf id ->
      ArtifactStep s o t id

section Rows

variable {s : ArtifactStore} {id : UUID}

theorem row_updated (s : ArtifactStore) (id id' : UUID) (row : ArtifactRow) (events : List ArtifactEvent) :
    ((s.putRow id' row).record events).row id = if id = id' then some row else s.row id := by
  rw [ArtifactStore.row_record]
  by_cases h : id = id'
  · rw [h, if_pos rfl, ArtifactStore.row_putRow_self]
  · rw [if_neg h, ArtifactStore.row_putRow_ne _ _ h]

theorem eventsOf_record_self {events : List ArtifactEvent}
    (h : forall e, e ∈ events -> e.artifactId = id) :
    (s.record events).eventsOf id = events ++ s.eventsOf id := by
  show (events ++ s.history).filter _ = _
  rw [List.filter_append, List.filter_eq_self.mpr (fun e he => beq_iff_eq.mpr (h e he))]
  rfl

theorem eventsOf_record_ne {id' : UUID} {events : List ArtifactEvent}
    (h : forall e, e ∈ events -> e.artifactId = id') (hid : ¬id = id') :
    (s.record events).eventsOf id = s.eventsOf id := by
  show (events ++ s.history).filter _ = _
  rw [List.filter_append, List.filter_eq_nil_iff.mpr]
  · rfl
  · intro e he heq
    exact hid ((beq_iff_eq.mp heq).symm.trans (h e he))

theorem updateRow_cases (s : ArtifactStore) (id id' : UUID) (select : ArtifactRow -> Bool)
    (change : ArtifactRow -> ArtifactRow) (events : List ArtifactEvent)
    (hevents : forall e, e ∈ events -> e.artifactId = id') :
    ((s.updateRow id' select change events).2.row id = s.row id ∧
      (s.updateRow id' select change events).2.eventsOf id = s.eventsOf id) ∨
      (id = id' ∧ exists row, s.row id = some row ∧ select row = true ∧
        (s.updateRow id' select change events).2.row id = some (change row) ∧
        (s.updateRow id' select change events).2.eventsOf id = events ++ s.eventsOf id) := by
  unfold ArtifactStore.updateRow
  cases hrow : s.row id' with
  | none => exact Or.inl ⟨rfl, rfl⟩
  | some row =>
      dsimp only
      by_cases hselect : select row = true
      · rw [if_pos hselect]
        have hput := row_updated s id id' (change row) events
        by_cases hid : id = id'
        · rw [if_pos hid] at hput
          subst hid
          exact Or.inr ⟨rfl, row, hrow, hselect, hput, eventsOf_record_self hevents⟩
        · rw [if_neg hid] at hput
          exact Or.inl ⟨hput, eventsOf_record_ne hevents hid⟩
      · rw [if_neg hselect]
        exact Or.inl ⟨rfl, rfl⟩

theorem artifactStep_register (id' : UUID) (new : ArtifactRow) (ref : ArtifactRef) :
    ArtifactStep s (.register id' new ref) (ArtifactOp.exec (.register id' new ref) s).2 id := by
  cases hrow : s.row id' with
  | some row =>
      have hexec : (ArtifactOp.exec (.register id' new ref) s).2 = s.addRef ref := by
        simp [ArtifactOp.exec, hrow]
      rw [hexec]
      exact ArtifactStep.same rfl rfl
  | none =>
      cases hcontent : s.hasContent new with
      | true =>
          have hexec : (ArtifactOp.exec (.register id' new ref) s).2 = s := by
            simp [ArtifactOp.exec, hrow, hcontent]
          rw [hexec]
          exact ArtifactStep.same rfl rfl
      | false =>
          have hexec : (ArtifactOp.exec (.register id' new ref) s).2 =
              ((s.putRow id' { new with updatedAt := s.now }).record
                [.registered id']).addRef ref := by
            simp [ArtifactOp.exec, hrow, hcontent]
          rw [hexec]
          have hput := row_updated s id id' { new with updatedAt := s.now }
            [.registered id']
          have hevent : forall e, e ∈ [ArtifactEvent.registered id'] -> e.artifactId = id' := by
            intro e he
            rw [List.mem_singleton.mp he]
            rfl
          by_cases hid : id = id'
          · subst hid
            rw [if_pos rfl] at hput
            exact ArtifactStep.registered new ref rfl hrow hcontent hput
              (eventsOf_record_self (s := s.putRow id _) hevent)
          · rw [if_neg hid] at hput
            exact ArtifactStep.same hput
              (eventsOf_record_ne (s := s.putRow id' _) hevent hid)

theorem events_artifactId (id' : UUID) (change : ArtifactChange) (e : ArtifactEvent)
    (he : e ∈ change.events id') : e.artifactId = id' := by
  cases change with
  | requeue => rw [List.mem_singleton.mp he]; rfl
  | retry retries => rw [List.mem_singleton.mp he]; rfl
  | missing => rw [List.mem_singleton.mp he]; rfl
  | _ => cases he

theorem artifactStep_exec (s : ArtifactStore) (id : UUID) (o : ArtifactOp) : ArtifactStep s o (o.exec s).2 id := by
  cases o with
  | register id' new ref => exact artifactStep_register id' new ref
  | claim id' worker lease =>
      rcases updateRow_cases s id id'
        (fun row => ArtifactStatus.active.contains row.status && row.leaseFree s.now)
        (fun row => { row with leaseUntil := some (s.now + lease) })
        [.claimed id' worker (s.now + lease)]
        (fun e he => by rw [List.mem_singleton.mp he]; rfl) with
        ⟨hsame, hevents⟩ | ⟨hid, row, hrow, hselect, hput, hevents⟩
      · exact ArtifactStep.same hsame hevents
      · subst hid
        rcases Bool.and_eq_true_iff.mp hselect with ⟨hactive, hfree⟩
        exact ArtifactStep.claimed worker lease row rfl hrow (List.contains_iff_mem.mp hactive)
          hfree hput hevents
  | cas id' allowedFrom change =>
      rcases updateRow_cases s id id'
        (fun row => allowedFrom.contains row.status) (change.apply s.now)
        (change.events id') (events_artifactId id' change) with
        ⟨hsame, hevents⟩ | ⟨hid, row, hrow, hselect, hput, hevents⟩
      · exact ArtifactStep.same hsame hevents
      · subst hid
        exact ArtifactStep.changed allowedFrom change row rfl hrow
          (List.contains_iff_mem.mp hselect) hput hevents
  | release id' =>
      rcases updateRow_cases s id id' (fun _ => true)
        (fun row => { row with leaseUntil := none }) [] (fun e he => by cases he) with
        ⟨hsame, hevents⟩ | ⟨hid, row, hrow, _, hput, hevents⟩
      · exact ArtifactStep.same hsame hevents
      · subst hid
        exact ArtifactStep.leased none row rfl rfl hrow hput hevents
  | backoff id' delay =>
      rcases updateRow_cases s id id' (fun _ => true)
        (fun row => { row with leaseUntil := some (s.now + delay) })
        [] (fun e he => by cases he) with
        ⟨hsame, hevents⟩ | ⟨hid, row, hrow, _, hput, hevents⟩
      · exact ArtifactStep.same hsame hevents
      · subst hid
        exact ArtifactStep.leased (some (s.now + delay)) row rfl rfl hrow hput hevents
  | submit id' row =>
      cases hanswer : s.backend.submit with
      | error code =>
          have hexec : (ArtifactOp.exec (.submit id' row) s).2 = s := by
            simp [ArtifactOp.exec, hanswer]
          rw [hexec]
          exact ArtifactStep.same rfl rfl
      | ok job =>
          have hexec : (ArtifactOp.exec (.submit id' row) s).2 = s.record [.submitted id'] := by
            simp [ArtifactOp.exec, hanswer]
          rw [hexec]
          have hevent : forall e, e ∈ [ArtifactEvent.submitted id'] -> e.artifactId = id' := by
            intro e he
            rw [List.mem_singleton.mp he]
            rfl
          by_cases hid : id = id'
          · subst hid
            exact ArtifactStep.submitted row job rfl hanswer rfl (eventsOf_record_self hevent)
          · exact ArtifactStep.same rfl (eventsOf_record_ne hevent hid)
  | _ => exact ArtifactStep.same rfl rfl

end Rows

/-- Only a retry and a report that the object is missing change a finished artifact. -/
theorem terminal_change {cfg : ArtifactSettings} {call : ArtifactCall} {id : UUID}
    {allowedFrom : List ArtifactStatus} {change : ArtifactChange} {status : ArtifactStatus}
    (hsent : change.SentBy cfg call id allowedFrom)
    (hterminal : status ∈ ArtifactStatus.terminal) (hallowed : status ∈ allowedFrom) :
    (change = .missing ∧ status = .ready ∧ call = .markObjectMissing id) ∨
      ((exists retries, change = .retry retries) ∧ status = .failed ∧
        exists owner, call = .retry owner id) := by
  have hactive : status ∉ ArtifactStatus.active := by
    rcases List.mem_cons.mp hterminal with rfl | hfailed
    · simp [ArtifactStatus.active]
    · rw [List.mem_singleton.mp hfailed]
      simp [ArtifactStatus.active]
  cases change with
  | missing =>
      rw [hsent.right] at hallowed
      exact Or.inl ⟨rfl, List.mem_singleton.mp hallowed, hsent.left⟩
  | retry retries =>
      rw [hsent.right.left] at hallowed
      exact Or.inr ⟨⟨retries, rfl⟩, List.mem_singleton.mp hallowed, hsent.left⟩
  | ready objectKey thumbnailKey size checksum =>
      exact absurd (hsent.right.left status hallowed) hactive
  | fail code =>
      rw [hsent.right] at hallowed
      exact absurd hallowed hactive
  | queue jobId attempts =>
      rw [hsent.right.left, List.mem_singleton] at hallowed
      rw [hallowed] at hactive
      simp [ArtifactStatus.active] at hactive
  | moveTo wanted =>
      rw [hsent.right.left] at hallowed
      rcases List.mem_cons.mp hallowed with rfl | hrendering
      · simp [ArtifactStatus.active] at hactive
      · rw [List.mem_singleton.mp hrendering] at hactive
        simp [ArtifactStatus.active] at hactive
  | requeue =>
      rcases hsent.right with heq | heq
      · rw [heq] at hallowed
        rcases List.mem_cons.mp hallowed with rfl | hrendering
        · simp [ArtifactStatus.active] at hactive
        · rw [List.mem_singleton.mp hrendering] at hactive
          simp [ArtifactStatus.active] at hactive
      · rw [heq, List.mem_singleton] at hallowed
        rw [hallowed] at hactive
        simp [ArtifactStatus.active] at hactive

/-!
# What the calls send

Apart from a submission and the ends of an upload and of an adoption, the steps of a worker
only send plain operations; behind its steps a worker only sets the lease.
-/

def ArtifactOp.SetsLease : ArtifactOp -> Prop
  | .release _ => True
  | .backoff _ _ => True
  | _ => False

/--
The operation submits a render, records it, makes an artifact ready, or ends the work of a
worker.
-/
def ArtifactOp.Special : ArtifactOp -> Prop
  | .release _ => True
  | .backoff _ _ => True
  | .submit _ _ => True
  | .cas _ _ (.queue _ _) => True
  | .cas _ _ (.ready _ _ _ _) => True
  | _ => False

structure ArtifactOp.Plain (cfg : ArtifactSettings) (call : ArtifactCall) (o : ArtifactOp) :
    Prop where
  sent : o.SentBy cfg call
  ordinary : ¬o.Special

def ArtifactOp.Begins : ArtifactOp -> Prop
  | .submit _ _ => True
  | .cas _ _ (.queue _ _) => True
  | _ => False

structure ArtifactOp.Closing (cfg : ArtifactSettings) (call : ArtifactCall)
    (o : ArtifactOp) : Prop where
  sent : o.SentBy cfg call
  closes : ¬o.Begins
  keepsLease : ¬o.SetsLease

structure ArtifactOp.Ending (cfg : ArtifactSettings) (call : ArtifactCall)
    (o : ArtifactOp) : Prop where
  sent : o.SentBy cfg call
  sets : o.SetsLease

/-- A kind of program that the steps are built from. -/
structure StepKind (svc : ArtifactService) (call : ArtifactCall)
    (K : forall {alpha : Type}, ArtifactProg alpha -> Prop) : Prop where
  plain : forall {alpha : Type} {p : ArtifactProg alpha},
    Prog.AllOps (ArtifactOp.Plain svc.cfg call) p -> K p
  adopt : forall id, call.Advances id -> K (svc.adoptExistingObject id)
  store : forall id row file info, call.Advances id ->
    Media.validateMp4 file svc.cfg.maxVideoBytes = some info ->
    K (ArtifactService.storeVideo id row file info)
  submit : forall id row, call.Advances id -> row.attemptCount < svc.cfg.maxAutoAttempts ->
    K (ArtifactService.submit id row)
  bind : forall {alpha beta : Type} {p : ArtifactProg alpha}
    {f : alpha -> ArtifactProg beta}, K p -> (forall a, K (f a)) -> K (p >>= f)

/-- A kind of program that the calls are built from. -/
structure ArtifactKind (svc : ArtifactService) (call : ArtifactCall)
    (K : forall {alpha : Type}, ArtifactProg alpha -> Prop) : Prop
    extends StepKind svc call K where
  ending : forall {alpha : Type} {p : ArtifactProg alpha},
    Prog.AllOps (ArtifactOp.Ending svc.cfg call) p -> K p
  tryCatch : forall {alpha : Type} {p : ArtifactProg alpha}
    {handler : ArtifactExc -> ArtifactProg alpha},
    K p -> (forall e, K (handler e)) -> K (p.tryCatch handler)

theorem allOps_artifactCall {P : ArtifactOp -> Prop} {o : ArtifactOp} (h : P o) :
    Prog.AllOps P (artifactCall o) :=
  (Prog.allOps_perform (S := artifactStorage) ArtifactExc.unavailable o).mpr h

section Calls

variable {svc : ArtifactService} {call : ArtifactCall} {id : UUID}

theorem plain_cas {allowedFrom : List ArtifactStatus} {change : ArtifactChange}
    (hsent : change.SentBy svc.cfg call id allowedFrom)
    (hordinary : ¬(ArtifactOp.cas id allowedFrom change).Special) :
    Prog.AllOps (ArtifactOp.Plain svc.cfg call) (ArtifactService.cas id allowedFrom change) :=
  allOps_artifactCall ⟨hsent, hordinary⟩

theorem plain_failArtifact (hcall : call.Advances id) (code : Text) :
    Prog.AllOps (ArtifactOp.Plain svc.cfg call) (ArtifactService.fail id code) :=
  Prog.allOps_bind (plain_cas ⟨hcall, rfl⟩ False.elim) (fun _ => trivial)

theorem plain_failThenNone (hcall : call.Advances id) (code : Text) :
    Prog.AllOps (ArtifactOp.Plain svc.cfg call)
      (ArtifactService.fail id code >>= fun _ => pure (none : Option ArtifactRow)) :=
  Prog.allOps_bind (plain_failArtifact hcall code) (fun _ => trivial)

theorem plain_beginAgain (hcall : call.Advances id) (row : ArtifactRow)
    {allowedFrom : List ArtifactStatus}
    (hallowed : allowedFrom = [.queued, .rendering] ∨ allowedFrom = [.uploading]) :
    Prog.AllOps (ArtifactOp.Plain svc.cfg call) (svc.beginAgain id row allowedFrom) := by
  unfold ArtifactService.beginAgain
  split
  · exact plain_failThenNone hcall _
  · exact plain_cas ⟨hcall, hallowed⟩ False.elim

theorem plain_follow (hcall : call.Advances id) (row : ArtifactRow) {wanted : ArtifactStatus}
    (hwanted : wanted ∈ [ArtifactStatus.queued, .rendering, .uploading]) :
    Prog.AllOps (ArtifactOp.Plain svc.cfg call) (ArtifactService.follow id row wanted) := by
  unfold ArtifactService.follow
  split
  · exact plain_cas ⟨hcall, rfl, hwanted⟩ False.elim
  · trivial

theorem plain_pollJob (hcall : call.Advances id) (row : ArtifactRow) (age : Nat)
    (job : RenderJob) :
    Prog.AllOps (ArtifactOp.Plain svc.cfg call) (svc.pollJob id row age job) := by
  unfold ArtifactService.pollJob
  split
  · exact plain_cas ⟨hcall, rfl, by simp⟩ False.elim
  · split
    · exact plain_failThenNone hcall _
    · split
      · exact plain_failThenNone hcall _
      · apply plain_follow hcall
        split
        · simp
        · simp

theorem plain_poll (hcall : call.Advances id) (row : ArtifactRow) :
    Prog.AllOps (ArtifactOp.Plain svc.cfg call) (svc.poll id row) := by
  refine Prog.allOps_bind (allOps_artifactCall ⟨trivial, False.elim⟩) ?_
  intro now
  refine Prog.allOps_bind (allOps_artifactCall ⟨hcall, False.elim⟩) ?_
  intro job
  cases job with
  | none => exact plain_beginAgain hcall row (Or.inl rfl)
  | some job => exact plain_pollJob hcall row _ job

theorem ending_pause (hcall : call.Advances id) :
    Prog.AllOps (ArtifactOp.Ending svc.cfg call) (ArtifactService.pause id) := by
  apply Prog.allOps_tryCatch
  · exact Prog.allOps_bind (allOps_artifactCall ⟨hcall, trivial⟩) (fun _ => trivial)
  · intro e
    exact Prog.allOps_bind (allOps_artifactCall ⟨hcall, trivial⟩) (fun _ => trivial)

variable {K : forall {alpha : Type}, ArtifactProg alpha -> Prop}

theorem kind_dispatch (hK : StepKind svc call K) (hcall : call.Advances id)
    (row : ArtifactRow) : K (svc.dispatch id row) := by
  refine hK.bind (hK.adopt id hcall) ?_
  intro adopted
  cases adopted with
  | some adopted => exact hK.plain trivial
  | none =>
      dsimp only
      split
      · exact hK.plain (plain_failThenNone hcall _)
      · rename_i hattempts
        exact hK.submit id row hcall (Nat.lt_of_not_le hattempts)

theorem kind_upload (hK : StepKind svc call K) (hcall : call.Advances id)
    (row : ArtifactRow) : K (svc.upload id row) := by
  refine hK.bind (hK.adopt id hcall) ?_
  intro adopted
  cases adopted with
  | some adopted => exact hK.plain trivial
  | none =>
      refine hK.bind (hK.plain (allOps_artifactCall ⟨hcall, False.elim⟩)) ?_
      intro download
      cases download with
      | gone => exact hK.plain (plain_beginAgain hcall row (Or.inr rfl))
      | rejected code => exact hK.plain (plain_failThenNone hcall _)
      | file file =>
          dsimp only
          split
          · rename_i info hinfo
            exact hK.store id row file info hcall hinfo
          · exact hK.plain (plain_failThenNone hcall _)

theorem kind_step (hK : StepKind svc call K) (hcall : call.Advances id)
    (row : ArtifactRow) : K (svc.step id row) := by
  unfold ArtifactService.step
  cases row.status with
  | pending => exact kind_dispatch hK hcall row
  | queued => exact hK.plain (plain_poll hcall row)
  | rendering => exact hK.plain (plain_poll hcall row)
  | uploading => exact kind_upload hK hcall row
  | ready => exact hK.plain trivial
  | failed => exact hK.plain trivial

theorem kind_steps (hK : StepKind svc call K) (hcall : call.Advances id) (rounds : Nat)
    (row : ArtifactRow) : K (svc.steps id rounds row) := by
  induction rounds generalizing row with
  | zero => exact hK.plain trivial
  | succ rounds ih =>
      refine hK.bind (kind_step hK hcall row) ?_
      intro next
      cases next with
      | none => exact hK.plain trivial
      | some next =>
          dsimp only
          split
          · exact hK.plain trivial
          · exact ih next

theorem kind_advanceClaimed (hK : ArtifactKind svc call K) (hcall : call.Advances id)
    (row : ArtifactRow) : K (svc.advanceClaimed id row) := by
  refine hK.bind ?_ ?_
  · refine hK.tryCatch ?_ (fun _ => hK.ending (ending_pause hcall))
    exact hK.bind (kind_steps hK.toStepKind hcall 5 row) (fun _ => hK.plain trivial)
  · intro keepLease
    cases keepLease with
    | true => exact hK.plain trivial
    | false => exact hK.ending (allOps_artifactCall ⟨hcall, trivial⟩)

theorem plain_register {request : ArtifactService.Registration}
    (hcall : call = .register request) :
    Prog.AllOps (ArtifactOp.Plain svc.cfg call) (svc.register request) := by
  refine Prog.allOps_bind ?_ ?_
  · unfold ArtifactService.sourceOf ArtifactService.mermaidSource ArtifactService.manimSource
    split
    · split
      · trivial
      · trivial
    · split
      · split
        · exact Prog.allOps_bind (allOps_artifactCall ⟨trivial, False.elim⟩) (fun _ => trivial)
        · trivial
      · trivial
  · intro source
    dsimp only
    split
    · refine Prog.allOps_bind (allOps_artifactCall ⟨⟨⟨request, hcall⟩, ?_⟩, False.elim⟩) ?_
      · refine ⟨?_, rfl, rfl, rfl⟩
        unfold ArtifactService.newRow
        cases htype : source.type with
        | mermaid => exact Or.inr ⟨rfl, rfl⟩
        | manim => exact Or.inl rfl
      · intro registered
        cases registered with
        | some registered => trivial
        | none => trivial
    · trivial

theorem plain_retry {owner : UUID} (hcall : call = .retry owner id) :
    Prog.AllOps (ArtifactOp.Plain svc.cfg call) (svc.retry owner id) := by
  refine Prog.allOps_bind (allOps_artifactCall ⟨trivial, False.elim⟩) ?_
  intro row
  cases row with
  | none => trivial
  | some row =>
      dsimp only
      split
      · trivial
      · split
        · trivial
        · rename_i hretries
          refine Prog.allOps_bind
            (plain_cas ⟨⟨owner, hcall⟩, rfl, Nat.lt_of_not_le hretries⟩ False.elim) ?_
          intro updated
          cases updated with
          | some updated => trivial
          | none =>
              exact Prog.allOps_bind (allOps_artifactCall ⟨trivial, False.elim⟩)
                (fun _ => trivial)

theorem plain_deleteOrphans (cutoff : Int) (objects : List ObjectInfo) :
    Prog.AllOps (ArtifactOp.Plain svc.cfg call)
      (ArtifactService.deleteOrphans cutoff objects) := by
  induction objects with
  | nil => trivial
  | cons info rest ih =>
      refine Prog.allOps_bind ?_ (fun _ => ih)
      split
      · split
        · trivial
        · refine Prog.allOps_bind (allOps_artifactCall ⟨trivial, False.elim⟩) ?_
          intro known
          cases known with
          | true => trivial
          | false => exact allOps_artifactCall ⟨trivial, False.elim⟩
      · trivial

theorem plain_deleteOrphanObjects :
    Prog.AllOps (ArtifactOp.Plain svc.cfg call) ArtifactService.deleteOrphanObjects := by
  refine Prog.allOps_bind (allOps_artifactCall ⟨trivial, False.elim⟩) ?_
  intro now
  refine Prog.allOps_bind (allOps_artifactCall ⟨trivial, False.elim⟩) ?_
  intro objects
  exact plain_deleteOrphans _ _

theorem plain_markObjectMissing (hcall : call = .markObjectMissing id) :
    Prog.AllOps (ArtifactOp.Plain svc.cfg call) (ArtifactService.markObjectMissing id) :=
  Prog.allOps_bind (plain_cas ⟨hcall, rfl⟩ False.elim) (fun _ => trivial)

theorem kind_program (hK : ArtifactKind svc call K) : K (call.program svc) := by
  have hret : forall a : ArtifactAnswer, K (.ret a : ArtifactProg ArtifactAnswer) :=
    fun a => hK.plain trivial
  cases hcall : call with
  | register request =>
      subst hcall
      exact hK.bind (hK.plain (plain_register rfl)) (fun _ => hret _)
  | advance id worker =>
      subst hcall
      refine hK.bind ?_ (fun _ => hret _)
      refine hK.bind (hK.plain (allOps_artifactCall ⟨rfl, False.elim⟩)) ?_
      intro row
      cases row with
      | none => exact hK.plain trivial
      | some row => exact kind_advanceClaimed hK ⟨worker, rfl⟩ row
  | retry owner id =>
      subst hcall
      exact hK.bind (hK.plain (plain_retry rfl)) (fun _ => hret _)
  | markObjectMissing id =>
      subst hcall
      exact hK.bind (hK.plain (plain_markObjectMissing rfl)) (fun _ => hret _)
  | deleteOrphanObjects =>
      subst hcall
      exact hK.bind (hK.plain plain_deleteOrphanObjects) (fun _ => hret _)

/-!
# The operations that are not plain
-/

theorem closing_adopt (hcall : call.Advances id) :
    Prog.AllOps (ArtifactOp.Closing svc.cfg call) (svc.adoptExistingObject id) := by
  refine Prog.allOps_bind (allOps_artifactCall ⟨trivial, False.elim, False.elim⟩) ?_
  intro stored
  cases stored with
  | none => trivial
  | some stored =>
      refine Prog.allOps_bind (allOps_artifactCall ⟨trivial, False.elim, False.elim⟩) ?_
      intro file
      cases file with
      | none => trivial
      | some file =>
          dsimp only
          split
          · rename_i info hinfo
            refine Prog.allOps_bind (allOps_artifactCall ⟨trivial, False.elim, False.elim⟩) ?_
            intro thumb
            exact allOps_artifactCall
              ⟨⟨hcall, fun _ h => h, rfl, (Media.size_of_validateMp4 hinfo).right⟩, False.elim, False.elim⟩
          · exact Prog.allOps_bind (allOps_artifactCall ⟨trivial, False.elim, False.elim⟩) (fun _ => trivial)

theorem closing_storeThumbnail (hcall : call.Advances id) (row : ArtifactRow) :
    Prog.AllOps (ArtifactOp.Closing svc.cfg call) (ArtifactService.storeThumbnail id row) := by
  refine Prog.allOps_tryCatch ?_ (fun _ => trivial)
  refine Prog.allOps_bind (allOps_artifactCall ⟨hcall, False.elim, False.elim⟩) ?_
  intro data
  cases data with
  | none => trivial
  | some data =>
      dsimp only
      split
      · trivial
      · exact Prog.allOps_bind (allOps_artifactCall ⟨trivial, False.elim, False.elim⟩) (fun _ => trivial)

theorem uploadedFrom_active {status : ArtifactStatus}
    (h : status ∈ ArtifactService.uploadedFrom) : status ∈ ArtifactStatus.active := by
  cases status with
  | ready => simp [ArtifactService.uploadedFrom] at h
  | failed => simp [ArtifactService.uploadedFrom] at h
  | _ => simp [ArtifactStatus.active]

theorem closing_storeVideo (hcall : call.Advances id) (row : ArtifactRow) {file : Bytes}
    {info : MediaInfo} (hinfo : Media.validateMp4 file svc.cfg.maxVideoBytes = some info) :
    Prog.AllOps (ArtifactOp.Closing svc.cfg call)
      (ArtifactService.storeVideo id row file info) := by
  refine Prog.allOps_bind (allOps_artifactCall ⟨trivial, False.elim, False.elim⟩) ?_
  intro _
  refine Prog.allOps_bind (allOps_artifactCall ⟨trivial, False.elim, False.elim⟩) ?_
  intro stored
  split
  · refine Prog.allOps_bind (closing_storeThumbnail hcall row) ?_
    intro thumb
    exact allOps_artifactCall ⟨⟨hcall, fun _ => uploadedFrom_active, rfl,
      (Media.size_of_validateMp4 hinfo).right⟩, False.elim, False.elim⟩
  · trivial

theorem sent_submit (hcall : call.Advances id) {row : ArtifactRow}
    (hattempts : row.attemptCount < svc.cfg.maxAutoAttempts) :
    Prog.AllOps (ArtifactOp.SentBy svc.cfg call) (ArtifactService.submit id row) := by
  refine Prog.allOps_bind (allOps_artifactCall ⟨hcall, hattempts⟩) ?_
  intro answer
  cases answer with
  | ok job => exact allOps_artifactCall ⟨hcall, rfl, hattempts, Nat.succ_pos _⟩
  | error code =>
      have hplain : Prog.AllOps (ArtifactOp.Plain svc.cfg call)
          (ArtifactService.fail id code >>= fun _ => pure (none : Option ArtifactRow)) :=
        plain_failThenNone hcall code
      exact Prog.allOps_mono hplain (fun _ h => h.sent)

theorem kind_sent : ArtifactKind svc call
    (fun p => Prog.AllOps (ArtifactOp.SentBy svc.cfg call) p) where
  plain h := Prog.allOps_mono h (fun _ h => h.sent)
  adopt _ hcall := Prog.allOps_mono (closing_adopt hcall) (fun _ h => h.sent)
  store _ row _ _ hcall hinfo :=
    Prog.allOps_mono (closing_storeVideo hcall row hinfo) (fun _ h => h.sent)
  submit _ _ hcall hattempts := sent_submit hcall hattempts
  bind := Prog.allOps_bind
  ending h := Prog.allOps_mono h (fun _ h => h.sent)
  tryCatch := Prog.allOps_tryCatch

end Calls

end ConversationService
