import ConversationService.Model.ConversationRepository

/-!
# Outbox, broker and bucket leases

`transactional_outbox` in its clustering order as the batches of the repositories fill it,
what the workers hand to Kafka, the lease keys of the buckets in Redis, and the sets
`locked_buckets` in the memory of the workers. The single statements and commands are
atomic.
-/

namespace ConversationService

open Python ClusteredTable Programs

/-- A value of a `timeuuid` column. -/
structure TimeUUID where
  uuid : UUID
deriving DecidableEq, Repr

namespace TimeUUID

/-- Cassandra compares the timestamps and then the other bytes, which it takes as signed. -/
def clusteringKey (u : TimeUUID) : Nat :=
  (u.uuid.reorderTimestampBytes * 2 ^ 64 +
    (u.uuid.bits.extractLsb' 0 64 ^^^ 0x8080808080808080#64).toNat) * 2 ^ 128 + u.uuid.int

theorem clusteringKey_injective : Function.Injective clusteringKey := by
  intro u v h
  have hu := UUID.int_lt u.uuid
  have hv := UUID.int_lt v.uuid
  unfold clusteringKey at h
  have hint : u.uuid.int = v.uuid.int := by omega
  cases u
  cases v
  exact congrArg TimeUUID.mk (UUID.int_injective hint)

instance : LinearOrder TimeUUID :=
  LinearOrder.lift' clusteringKey clusteringKey_injective

end TimeUUID

/-- The JSON text of the `payload` column, kept as what was dumped into it. -/
inductive OutboxPayload where
  | message (payload : ChatMessageCreated)
  | conversation (payload : ConversationEvent)
deriving DecidableEq, Repr

/--
`payload.get("conversation_id")`. The payload of a message is flat; that of a conversation
stands in an envelope, which has no such key.
-/
def OutboxPayload.conversationId : OutboxPayload -> Option UUID
  | .message payload => some payload.conversationId
  | .conversation _ => none

structure OutboxEvent where
  bucket : Nat
  eventId : UUID
  eventType : Text
  payload : OutboxPayload
  published : Bool
  createdAt : Datetime
deriving DecidableEq, Repr

/-- A record of the broker, with the id of the outbox event that it was made of. -/
structure BrokerRecord where
  eventId : UUID
  topic : Text
  key : Text
  value : OutboxPayload
deriving DecidableEq, Repr

inductive WorkerKind where
  | outbox
  | retry
deriving DecidableEq, Repr

/-- A running `DistributedOutboxWorker` or `DistributedRetryWorker`. -/
structure Worker where
  kind : WorkerKind
  workerId : Text
deriving DecidableEq, Repr

/-- The outbox row that a statement of the repositories writes. -/
def Op.stages : Op -> Option OutboxEvent
  | .batchMessageOutbox _ _ _ _ _ _ _ bucket eventId event =>
      some
        { bucket := bucket
          eventId := eventId
          eventType := event.eventType
          payload := .message event.payload
          published := event.published
          createdAt := event.createdAt.stored }
  | .batchCreateConversation _ _ _ _ _ _ _ bucket eventId event =>
      some
        { bucket := bucket
          eventId := eventId
          eventType := event.eventType
          payload := .conversation event.payload
          published := event.published
          createdAt := event.createdAt.stored }
  | .batchUpdateConversation _ _ _ _ _ _ _ _ bucket eventId event =>
      some
        { bucket := bucket
          eventId := eventId
          eventType := event.eventType
          payload := .conversation event.payload
          published := event.published
          createdAt := event.createdAt.stored }
  | _ => none

/-- The rows of a bucket by event id, the oldest first. -/
abbrev OutboxBucket : Type := Partition TimeUUIDᵒᵈ OutboxEvent

def eventKey (eventId : UUID) : TimeUUIDᵒᵈ :=
  OrderDual.toDual ⟨eventId⟩

structure OutboxWorld where
  /-- the tables and keys that the repositories use -/
  store : Store
  /-- `transactional_outbox` -/
  outbox : Nat -> OutboxBucket
  /-- every event that was staged, the first one first -/
  staged : List OutboxEvent
  /-- the records of all topics in the order in which they were taken -/
  broker : List BrokerRecord
  /-- the event ids in the error logs of the workers -/
  failures : List (WorkerKind × UUID)
  /-- the keys `outbox:lock:bucket:<n>` and `outbox:retry:lock:bucket:<n>` -/
  leases : WorkerKind × Nat -> Option Text
  /-- `self.locked_buckets` -/
  locked : Worker -> List Nat
  /-- `self.running` -/
  running : Worker -> Bool

namespace OutboxWorld

def event (w : OutboxWorld) (bucket : Nat) (eventId : UUID) : Option OutboxEvent :=
  (w.outbox bucket).get (eventKey eventId)

def putEvent (w : OutboxWorld) (e : OutboxEvent) : OutboxWorld :=
  { w with
    outbox := Function.update w.outbox e.bucket
      ((w.outbox e.bucket).upsert (eventKey e.eventId) (fun _ => e)) }

/-- What a statement of the repositories leaves in the outbox. -/
def stage (w : OutboxWorld) (o : Op) : OutboxWorld :=
  match o.stages with
  | some e => { w.putEvent e with staged := w.staged ++ [e] }
  | none => w

/-- `UPDATE ... SET published = true`; the row was read before and is never deleted. -/
def markPublished (w : OutboxWorld) (bucket : Nat) (eventId : UUID) : OutboxWorld :=
  match w.event bucket eventId with
  | some e =>
      { w with
        outbox := Function.update w.outbox bucket
          ((w.outbox bucket).upsert (eventKey eventId)
            (fun _ => { e with published := true })) }
  | none => w

def setLease (w : OutboxWorld) (kind : WorkerKind) (bucket : Nat)
    (value : Option Text) : OutboxWorld :=
  { w with leases := Function.update w.leases (kind, bucket) value }

def setLocked (w : OutboxWorld) (worker : Worker) (buckets : List Nat) : OutboxWorld :=
  { w with locked := Function.update w.locked worker buckets }

/-- The event has been handed to the broker. -/
def Handed (w : OutboxWorld) (eventId : UUID) : Prop :=
  exists record, record ∈ w.broker ∧ record.eventId = eventId

end OutboxWorld

inductive OutboxOp where
  | storage (o : Op)
  -- Cassandra
  | fetchUnpublished (bucket limit : Nat)
  | markPublished (bucket : Nat) (eventId : UUID)
  -- Kafka
  | publish (eventId : UUID) (topic key : Text) (value : OutboxPayload)
  -- the log
  | logFailure (kind : WorkerKind) (eventId : UUID)
  -- Redis
  | setLease (worker : Worker) (bucket : Nat)
  | getLease (kind : WorkerKind) (bucket : Nat)
  | expireLease (kind : WorkerKind) (bucket : Nat)
  | deleteLease (kind : WorkerKind) (bucket : Nat)
  -- the memory of a worker
  | isLocked (worker : Worker) (bucket : Nat)
  | addLocked (worker : Worker) (bucket : Nat)
  | discardLocked (worker : Worker) (bucket : Nat)
  | lockedBuckets (worker : Worker)
  | stopRunning (worker : Worker)
  -- what happens to a worker and to a lease key
  | forget (worker : Worker)
  | lapse (kind : WorkerKind) (bucket : Nat)

@[reducible]
def OutboxOp.Res : OutboxOp -> Type
  | .storage o => o.Res
  | .fetchUnpublished _ _ => List OutboxEvent
  | .setLease _ _ => Bool
  | .getLease _ _ => Option Text
  | .isLocked _ _ => Bool
  | .lockedBuckets _ => List Nat
  | _ => Unit

abbrev outboxStorage : Signature where
  Op := OutboxOp
  Res := OutboxOp.Res

/-- The effect and the answer of an operation that does not raise. -/
def OutboxOp.exec : (o : OutboxOp) -> OutboxWorld -> o.Res × OutboxWorld
  | .storage o, w =>
      ((o.exec w.store).1, { w.stage o with store := (o.exec w.store).2 })
  | .fetchUnpublished bucket limit, w =>
      ((((w.outbox bucket).rows.map Prod.snd).filter (fun e => !e.published)).take limit, w)
  | .markPublished bucket eventId, w => ((), w.markPublished bucket eventId)
  | .publish eventId topic key value, w =>
      ((), { w with broker := w.broker ++ [⟨eventId, topic, key, value⟩] })
  | .logFailure kind eventId, w =>
      ((), { w with failures := w.failures ++ [(kind, eventId)] })
  | .setLease worker bucket, w =>
      -- `SET ... NX` keeps a value that is there
      let current := w.leases (worker.kind, bucket)
      (current.isNone,
        w.setLease worker.kind bucket (some (current.getD worker.workerId)))
  | .getLease kind bucket, w => (w.leases (kind, bucket), w)
  | .expireLease _ _, w => ((), w)
  | .deleteLease kind bucket, w => ((), w.setLease kind bucket none)
  | .isLocked worker bucket, w => ((w.locked worker).contains bucket, w)
  | .addLocked worker bucket, w =>
      ((), w.setLocked worker ((w.locked worker).insert bucket))
  | .discardLocked worker bucket, w =>
      ((), w.setLocked worker ((w.locked worker).filter (fun b => b ≠ bucket)))
  | .lockedBuckets worker, w => (w.locked worker, w)
  | .stopRunning worker, w =>
      ((), { w with running := Function.update w.running worker false })
  | .forget worker, w =>
      ((), { w.setLocked worker [] with
        running := Function.update w.running worker false })
  | .lapse kind bucket, w => ((), w.setLease kind bucket none)

def outboxMachine : Machine outboxStorage OutboxWorld where
  exec := OutboxOp.exec

@[simp] theorem outboxMachine_exec (o : OutboxOp) (w : OutboxWorld) :
    outboxMachine.exec o w = o.exec w := rfl

/-- The code of the workers, as programs over these operations. -/
abbrev Work (alpha : Type) : Type := Prog outboxStorage PyExc alpha

/-- Perform an operation, letting its exception through. -/
def work (o : OutboxOp) : Work o.Res :=
  Prog.perform (S := outboxStorage) .storage o

/-- The code of a repository among that of the workers. -/
def onStore {alpha : Type} (p : Py alpha) : Work alpha :=
  p.mapOps (T := outboxStorage) OutboxOp.storage (fun _ r => r)

end ConversationService
