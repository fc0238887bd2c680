import ConversationService.Model.OutboxSystem

/-!
# What the calls of the outbox do

What each operation leaves of the outbox and of the broker, the order of the operations
on one event, and the buckets that the repositories stage into.
-/

namespace ConversationService

open Python ClusteredTable Programs

/-!
# Operations
-/

namespace OutboxOp

def Publishes (eventId : UUID) : OutboxOp -> Prop
  | .publish eventId' _ _ _ => eventId' = eventId
  | _ => False

def Marks (eventId : UUID) : OutboxOp -> Prop
  | .markPublished _ eventId' => eventId' = eventId
  | _ => False

/-- The operation stages nothing but new events in buckets below `n`. -/
def StagesBelow (n : Nat) : OutboxOp -> Prop
  | .storage o => forall e, o.stages = some e -> e.bucket < n ∧ e.published = false
  | _ => True

/-- An operation that touches neither the tables nor the broker. -/
def IsLeaseOp : OutboxOp -> Prop
  | .storage _ => False
  | .fetchUnpublished _ _ => False
  | .markPublished _ _ => False
  | .publish _ _ _ _ => False
  | .logFailure _ _ => False
  | _ => True

/-- What scans and renewals do with leases and with the memory of their worker. -/
def IsLeaseOpOf (worker : Worker) : OutboxOp -> Prop
  | .setLease worker' _ => worker' = worker
  | .getLease kind _ => kind = worker.kind
  | .expireLease kind _ => kind = worker.kind
  | .isLocked worker' _ => worker' = worker
  | .addLocked worker' _ => worker' = worker
  | .discardLocked worker' _ => worker' = worker
  | .lockedBuckets worker' => worker' = worker
  | _ => False

/-- What the end of `start` does with them. -/
def IsReleaseOpOf (worker : Worker) : OutboxOp -> Prop
  | .getLease kind _ => kind = worker.kind
  | .deleteLease kind _ => kind = worker.kind
  | .discardLocked worker' _ => worker' = worker
  | .lockedBuckets worker' => worker' = worker
  | .stopRunning worker' => worker' = worker
  | _ => False

theorem IsLeaseOpOf.isLeaseOp {worker : Worker} {o : OutboxOp} (h : o.IsLeaseOpOf worker) :
    o.IsLeaseOp := by
  cases o <;> trivial

theorem IsReleaseOpOf.isLeaseOp {worker : Worker} {o : OutboxOp}
    (h : o.IsReleaseOpOf worker) : o.IsLeaseOp := by
  cases o <;> trivial

end OutboxOp

section Operations

variable {w : OutboxWorld} {o : OutboxOp} {eventId : UUID}

theorem handed_exec (h : w.Handed eventId) : (o.exec w).2.Handed eventId := by
  rcases h with ⟨record, hrecord, hid⟩
  have hkept : record ∈ (o.exec w).2.broker := by
    cases o with
    | storage o' =>
        show record ∈ (w.stage o').broker
        unfold OutboxWorld.stage
        split
        · exact hrecord
        · exact hrecord
    | publish id topic key value => exact List.mem_append_left _ hrecord
    | markPublished bucket id =>
        show record ∈ (w.markPublished bucket id).broker
        unfold OutboxWorld.markPublished
        split
        · exact hrecord
        · exact hrecord
    | _ => exact hrecord
  exact ⟨record, hkept, hid⟩

theorem handed_publish (h : o.Publishes eventId) : (o.exec w).2.Handed eventId := by
  cases o with
  | publish id topic key value => exact ⟨⟨id, topic, key, value⟩, by simp [OutboxOp.exec], h⟩
  | _ => exact h.elim

@[simp] theorem event_putEvent (w : OutboxWorld) (e : OutboxEvent) (bucket : Nat)
    (eventId : UUID) : (w.putEvent e).event bucket eventId =
      if bucket = e.bucket ∧ eventId = e.eventId then some e else w.event bucket eventId := by
  unfold OutboxWorld.event OutboxWorld.putEvent
  by_cases hbucket : bucket = e.bucket
  · subst hbucket
    have hkey : eventKey eventId = eventKey e.eventId <-> eventId = e.eventId := by
      unfold eventKey
      rw [OrderDual.toDual_inj, TimeUUID.mk.injEq]
    simp [Partition.get_upsert, hkey]
  · simp [hbucket]

theorem event_markPublished (w : OutboxWorld) {bucket bucket' : Nat} {eventId eventId' : UUID}
    (h : eventId' ≠ eventId) : (w.markPublished bucket eventId).event bucket' eventId' =
      w.event bucket' eventId' := by
  unfold OutboxWorld.markPublished
  split
  · unfold OutboxWorld.event
    by_cases hbucket : bucket' = bucket
    · subst hbucket
      have hkey : eventKey eventId' ≠ eventKey eventId := by
        unfold eventKey
        rw [ne_eq, OrderDual.toDual_inj, TimeUUID.mk.injEq]
        exact h
      simp [Partition.get_upsert_ne _ _ hkey]
    · simp [hbucket]
  · rfl

theorem event_exec (hstorage : forall o', o ≠ .storage o') (bucket : Nat)
    (hmarks : ¬o.Marks eventId) :
    (o.exec w).2.event bucket eventId = w.event bucket eventId := by
  cases o with
  | storage o' => exact absurd rfl (hstorage o')
  | markPublished bucket' id => exact event_markPublished w (fun h => hmarks h.symm)
  | _ => rfl

theorem staged_exec (hstorage : forall o', o ≠ .storage o') :
    (o.exec w).2.staged = w.staged := by
  cases o with
  | storage o' => exact absurd rfl (hstorage o')
  | markPublished bucket' id =>
      show (w.markPublished bucket' id).staged = w.staged
      unfold OutboxWorld.markPublished
      split
      · rfl
      · rfl
  | _ => rfl

end Operations

/-!
# Programs
-/

section Programs

variable {alpha : Type} {P : OutboxOp -> Prop}

theorem allOps_work {o : OutboxOp} (h : P o) :
    Prog.AllOps (S := outboxStorage) P (work o) :=
  (Prog.allOps_perform (S := outboxStorage) _ o).mpr h

variable {worker : Worker}

theorem allOps_acquireLock (hP : forall o : OutboxOp, o.IsLeaseOpOf worker -> P o)
    (redis : Bool) (bucket : Nat) :
    Prog.AllOps P (Leases.acquireLock redis worker bucket) := by
  unfold Leases.acquireLock
  split
  · apply Prog.allOps_tryCatch
    · apply Prog.allOps_bind (allOps_work (hP _ (by rfl)))
      intro acquired
      split
      · apply Prog.allOps_bind (allOps_work (hP _ (by rfl)))
        intro _
        trivial
      · trivial
    · intro _
      trivial
  · trivial

theorem allOps_renewLock (hP : forall o : OutboxOp, o.IsLeaseOpOf worker -> P o)
    (bucket : Nat) : Prog.AllOps P (Leases.renewLock worker bucket) := by
  unfold Leases.renewLock
  apply Prog.allOps_tryCatch
  · apply Prog.allOps_bind (allOps_work (hP _ (by rfl)))
    intro owner
    split
    · exact allOps_work (hP _ (by rfl))
    · exact allOps_work (hP _ (by rfl))
  · intro _
    trivial

theorem allOps_renewLocks (hP : forall o : OutboxOp, o.IsLeaseOpOf worker -> P o)
    (redis : Bool) : Prog.AllOps P (Leases.renewLocks redis worker) := by
  have hloop : forall buckets, Prog.AllOps P (Leases.renewEach worker buckets) := by
    intro buckets
    induction buckets with
    | nil => trivial
    | cons bucket rest ih =>
        exact Prog.allOps_bind (allOps_renewLock hP bucket) (fun _ => ih)
  unfold Leases.renewLocks
  split
  · exact Prog.allOps_bind (allOps_work (hP _ (by rfl))) hloop
  · trivial

theorem allOps_releaseLock (hP : forall o : OutboxOp, o.IsReleaseOpOf worker -> P o)
    (redis : Bool) (bucket : Nat) :
    Prog.AllOps P (Leases.releaseLock redis worker bucket) := by
  unfold Leases.releaseLock
  split
  · apply Prog.allOps_tryCatch
    · apply Prog.allOps_bind (allOps_work (hP _ (by rfl)))
      intro owner
      split
      · apply Prog.allOps_bind (allOps_work (hP _ (by rfl)))
        intro _
        exact allOps_work (hP _ (by rfl))
      · trivial
    · intro _
      trivial
  · trivial

theorem allOps_shutDown (hP : forall o : OutboxOp, o.IsReleaseOpOf worker -> P o)
    (redis : Bool) : Prog.AllOps P (Leases.shutDown redis worker) := by
  have hloop : forall buckets, Prog.AllOps P (Leases.releaseEach redis worker buckets) := by
    intro buckets
    induction buckets with
    | nil => trivial
    | cons bucket rest ih =>
        exact Prog.allOps_bind (allOps_releaseLock hP redis bucket) (fun _ => ih)
  unfold Leases.shutDown
  apply Prog.allOps_bind (allOps_work (hP _ (by rfl)))
  intro _
  exact Prog.allOps_bind (allOps_work (hP _ (by rfl))) hloop

/-- The operations on the events of a bucket. -/
def OutboxOp.IsEventOp : OutboxOp -> Prop
  | .markPublished _ _ => True
  | .publish _ _ _ _ => True
  | .logFailure _ _ => True
  | _ => False

theorem allOps_handOver (hP : forall o : OutboxOp, o.IsEventOp -> P o) (event : OutboxEvent) :
    Prog.AllOps P (handOver event) := by
  unfold handOver
  apply Prog.allOps_bind (allOps_work (hP _ (by trivial)))
  intro _
  exact allOps_work (hP _ (by trivial))

theorem processBucket_fetches (kind : WorkerKind) (threshold : Int) (now : Datetime)
    (bucket : Nat) (hP : forall o : OutboxOp, o.IsEventOp -> P o) :
    exists limit next,
      kind.processBucket threshold now bucket = .op (.fetchUnpublished bucket limit) next ∧
      forall answer, Prog.AllOps P (next answer) := by
  cases kind with
  | outbox =>
      refine ⟨200, _, rfl, ?_⟩
      intro answer
      cases answer with
      | none => trivial
      | some events =>
          refine Prog.allOps_tryCatch ?_ (fun _ => by trivial)
          show Prog.AllOps P (DistributedOutboxWorker.processEvents events)
          induction events with
          | nil => trivial
          | cons event rest ih =>
              apply Prog.allOps_bind
              · apply Prog.allOps_tryCatch
                · exact Prog.allOps_bind (allOps_handOver hP event) (fun _ => trivial)
                · intro _
                  exact Prog.allOps_bind (allOps_work (hP _ (by trivial))) (fun _ => trivial)
              · intro succeeded
                split
                · exact ih
                · trivial
  | retry =>
      refine ⟨100, _, rfl, ?_⟩
      intro answer
      cases answer with
      | none => trivial
      | some events =>
          refine Prog.allOps_tryCatch ?_ (fun _ => by trivial)
          show Prog.AllOps P (DistributedRetryWorker.processEvents threshold now events)
          induction events with
          | nil => trivial
          | cons event rest ih =>
              unfold DistributedRetryWorker.processEvents
              split
              · exact ih
              · refine Prog.allOps_bind ?_ (fun _ => ih)
                apply Prog.allOps_tryCatch (allOps_handOver hP event)
                intro _
                exact allOps_work (hP _ (by trivial))

/-- The operations of a pass over a bucket. -/
def OutboxOp.IsPassOp : OutboxOp -> Prop
  | .fetchUnpublished _ _ => True
  | o => o.IsEventOp

theorem allOps_processBucket (kind : WorkerKind) (threshold : Int) (now : Datetime)
    (bucket : Nat) (hP : forall o : OutboxOp, o.IsPassOp -> P o) :
    Prog.AllOps P (kind.processBucket threshold now bucket) := by
  have hevents : forall o : OutboxOp, o.IsEventOp -> P o := by
    intro o ho
    apply hP
    cases o with
    | fetchUnpublished bucket limit => trivial
    | _ => exact ho
  rcases processBucket_fetches kind threshold now bucket hevents with
    ⟨limit, next, hprog, hnext⟩
  rw [hprog]
  exact ⟨hP _ (by trivial), hnext⟩

theorem allOps_processWithLease (hP : forall o : OutboxOp, o.IsLeaseOpOf worker -> P o)
    (redis : Bool) {processBucket : Nat -> Work Unit} {bucket : Nat}
    (hprocess : Prog.AllOps P (processBucket bucket)) :
    Prog.AllOps P (Leases.processWithLease redis worker processBucket bucket) := by
  unfold Leases.processWithLease
  apply Prog.allOps_bind (allOps_work (hP _ (by rfl)))
  intro mine
  split
  · exact hprocess
  · apply Prog.allOps_bind (allOps_acquireLock hP redis bucket)
    intro acquired
    split
    · exact hprocess
    · trivial

theorem allOps_onStore {p : Py alpha} (h : Prog.AllOps (fun o => P (.storage o)) p) :
    Prog.AllOps P (onStore p) :=
  Prog.allOps_mapOps h

end Programs

/-!
# The buckets of the writers
-/

section Writers

variable {n : Nat}

theorem allOps_ignoreResult {alpha : Type} {P : Op -> Prop} {p : Py alpha}
    (h : Prog.AllOps P p) : Prog.AllOps P (ignoreResult p) :=
  Prog.allOps_bind h (fun _ => trivial)

theorem allOps_cqlText (P : Op -> Prop) (value : Json) : Prog.AllOps P (cqlText value) := by
  unfold cqlText
  split
  · split
    · trivial
    · trivial
  · trivial

theorem allOps_perform {P : Op -> Prop} {o : Op} (h : P o) :
    Prog.AllOps (S := storage) P (perform o) :=
  (Prog.allOps_perform (S := storage) _ o).mpr h

theorem allOps_conversationGet {P : Op -> Prop} {c : UUID} (h : P (.selectConversation c)) :
    Prog.AllOps P (ConversationRepository.get c) := by
  unfold ConversationRepository.get
  apply Prog.allOps_bind (allOps_perform h)
  intro row
  cases row with
  | none => trivial
  | some row =>
      dsimp only
      split
      · trivial
      · trivial

theorem allOps_updateWithOutbox {P : Op -> Prop} {now : Datetime} {c : UUID}
    {title : Option Text} {status : ConversationStatus} {eventId : UUID} {eventType : Text}
    {payload : ConversationEvent} (hget : P (.selectConversation c))
    (hbatch : forall user old title createdAt parent,
      P (.batchUpdateConversation c user old now title createdAt status parent
        (ConversationRepository.outboxBucket c) eventId
        { eventType := eventType, payload := payload, published := false,
          createdAt := now })) :
    Prog.AllOps P (ConversationRepository.updateWithOutbox now c title status eventId
      eventType payload) := by
  unfold ConversationRepository.updateWithOutbox
  apply Prog.allOps_bind (allOps_conversationGet hget)
  intro conv
  cases conv with
  | none => trivial
  | some conv =>
      apply Prog.allOps_bind
      · unfold cqlOptionalText
        split
        · exact Prog.allOps_bind (allOps_cqlText P _) (fun _ => trivial)
        · trivial
      · intro title
        apply Prog.allOps_bind
        · unfold ConversationRepository.catalogOwner
          split
          · trivial
          · trivial
        · intro owner
          exact Prog.allOps_bind (allOps_perform (hbatch _ _ _ _ _)) (fun _ => trivial)

/-- The writers stage new events into one of 32 buckets. -/
theorem stagesBelow_program (call : OutboxCall) (h : 32 ≤ n) :
    Prog.AllOps (OutboxOp.StagesBelow n) call.program := by
  have hbucket : forall c : UUID, c.int % 32 < n :=
    fun c => lt_of_lt_of_le (Nat.mod_lt _ (by decide)) h
  have hlease : forall o : OutboxOp, o.IsLeaseOp -> o.StagesBelow n := by
    intro o ho
    cases o with
    | storage o' => exact ho.elim
    | _ => trivial
  cases call with
  | createMessage now c m sender content status eventId eventType payload fileIds =>
      apply allOps_onStore
      apply allOps_ignoreResult
      unfold MessageRepository.createWithOutbox
      apply Prog.allOps_bind (allOps_cqlText _ _)
      intro text
      refine Prog.allOps_bind (allOps_perform ?_) (fun _ => by trivial)
      intro e he
      cases he
      exact ⟨hbucket c, rfl⟩
  | createConversation now c userId title status eventId eventType payload parent branch =>
      apply allOps_onStore
      apply allOps_ignoreResult
      unfold ConversationRepository.createWithOutbox
      apply Prog.allOps_bind (allOps_cqlText _ _)
      intro text
      refine Prog.allOps_bind (allOps_perform ?_) (fun _ => by trivial)
      intro e he
      cases he
      exact ⟨hbucket c, rfl⟩
  | updateConversation now c title status eventId eventType payload =>
      apply allOps_onStore
      apply allOps_ignoreResult
      apply allOps_updateWithOutbox
      · intro e he
        cases he
      · intro user old title createdAt parent e he
        cases he
        exact ⟨hbucket c, rfl⟩
  | turn redis worker threshold now bucket =>
      exact allOps_processWithLease (fun o ho => hlease o ho.isLeaseOp) redis
        (allOps_processBucket worker.kind threshold now bucket (by
          intro o ho
          cases o with
          | storage o' => exact ho.elim
          | _ => trivial))
  | renewal redis worker => exact allOps_renewLocks (fun o ho => hlease o ho.isLeaseOp) redis
  | shutDown redis worker => exact allOps_shutDown (fun o ho => hlease o ho.isLeaseOp) redis
  | crash worker => exact allOps_work trivial
  | lapse kind bucket => exact allOps_work trivial

end Writers

/-!
# Marking comes after publishing
-/

section Guarded

variable {seen : forall o : outboxStorage.Op, outboxStorage.Res o -> Prop}
  {bad : OutboxOp -> Prop}

theorem guarded_work {o : OutboxOp} (h : ¬bad o) :
    Prog.Guarded (S := outboxStorage) seen bad (work o) :=
  Prog.guarded_of_allOps (allOps_work h)

theorem guarded_processWithLease (hlease : forall o : OutboxOp, o.IsLeaseOp -> ¬bad o)
    (redis : Bool) (worker : Worker) {processBucket : Nat -> Work Unit} {bucket : Nat}
    (hprocess : Prog.Guarded seen bad (processBucket bucket)) :
    Prog.Guarded seen bad (Leases.processWithLease redis worker processBucket bucket) := by
  unfold Leases.processWithLease
  apply Prog.guarded_bind (guarded_work (hlease _ (by trivial)))
  intro mine
  split
  · exact hprocess
  · apply Prog.guarded_bind
      (Prog.guarded_of_allOps
        (allOps_acquireLock (fun o ho => hlease o ho.isLeaseOp) redis bucket))
    intro acquired
    split
    · exact hprocess
    · trivial

theorem guarded_processBucket (kind : WorkerKind) (threshold : Int) (now : Datetime)
    (bucket : Nat) (hfetch : forall limit, ¬bad (.fetchUnpublished bucket limit))
    (hlog : forall eventId, ¬bad (.logFailure kind eventId))
    (hevent : forall event, Prog.Guarded seen bad (handOver event)) :
    Prog.Guarded seen bad (kind.processBucket threshold now bucket) := by
  cases kind with
  | outbox =>
      refine Prog.guarded_tryCatch ?_ (fun _ => by trivial)
      apply Prog.guarded_bind (guarded_work (hfetch _))
      intro events
      induction events with
      | nil => trivial
      | cons event rest ih =>
          apply Prog.guarded_bind
          · apply Prog.guarded_tryCatch
            · exact Prog.guarded_bind (hevent event) (fun _ => by trivial)
            · intro _
              exact Prog.guarded_bind (guarded_work (hlog _)) (fun _ => by trivial)
          · intro succeeded
            split
            · exact ih
            · trivial
  | retry =>
      refine Prog.guarded_tryCatch ?_ (fun _ => by trivial)
      apply Prog.guarded_bind (guarded_work (hfetch _))
      intro events
      induction events with
      | nil => trivial
      | cons event rest ih =>
          unfold DistributedRetryWorker.processEvents
          split
          · exact ih
          · refine Prog.guarded_bind ?_ (fun _ => ih)
            apply Prog.guarded_tryCatch (hevent event)
            intro _
            exact guarded_work (hlog _)

end Guarded

/-- The event is not marked before it is published. -/
def MarksLate {alpha : Type} (eventId : UUID) (p : Work alpha) : Prop :=
  Prog.Guarded (S := outboxStorage) (fun o _ => o.Publishes eventId)
    (fun o => o.Marks eventId) p

theorem marksLate_handOver (eventId : UUID) (event : OutboxEvent) :
    MarksLate eventId (handOver event) := by
  refine ⟨id, by trivial, ?_⟩
  intro r
  by_cases hevent : event.eventId = eventId
  · exact Or.inl hevent
  · exact Or.inr (guarded_work hevent)

theorem marksLate_program (eventId : UUID) (call : OutboxCall) :
    MarksLate eventId call.program := by
  have hlease : forall o : OutboxOp, o.IsLeaseOp -> ¬o.Marks eventId := by
    intro o ho hmarks
    cases o with
    | markPublished bucket id => exact ho
    | _ => exact hmarks
  have hwriter : forall {alpha : Type} (p : Py alpha),
      Prog.AllOps (fun o : OutboxOp => ¬o.Marks eventId) (onStore p) :=
    fun p => Prog.allOps_mapOps (Prog.allOps_of_forall (fun o h => h) p)
  cases call with
  | createMessage now c m sender content status eventId' eventType payload fileIds =>
      exact Prog.guarded_of_allOps (hwriter _)
  | createConversation now c userId title status eventId' eventType payload parent branch =>
      exact Prog.guarded_of_allOps (hwriter _)
  | updateConversation now c title status eventId' eventType payload =>
      exact Prog.guarded_of_allOps (hwriter _)
  | turn redis worker threshold now bucket =>
      exact guarded_processWithLease hlease redis worker
        (guarded_processBucket worker.kind threshold now bucket (fun _ h => h)
          (fun _ h => h) (marksLate_handOver eventId))
  | renewal redis worker =>
      exact Prog.guarded_of_allOps
        (allOps_renewLocks (fun o ho => hlease o ho.isLeaseOp) redis)
  | shutDown redis worker =>
      exact Prog.guarded_of_allOps
        (allOps_shutDown (fun o ho => hlease o ho.isLeaseOp) redis)
  | crash worker => exact guarded_work id
  | lapse kind bucket => exact guarded_work id

end ConversationService
