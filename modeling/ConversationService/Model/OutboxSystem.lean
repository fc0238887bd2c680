import ConversationService.Library.Pools
import ConversationService.Model.OutboxWorkers
import ConversationService.Model.System

/-!
# Writers and workers of the outbox

The calls of the repositories that stage events, and what the worker processes do: each of
them scans `range(OUTBOX_BUCKETS)` again and again, renews its leases meanwhile, and ends
by a shutdown or a crash. The steps of all of them are interleaved, and a lease key may
reach its expiry at any time.
-/

namespace ConversationService

open Python Programs

inductive OutboxCall where
  | createMessage (now : Datetime) (conversationId messageId : UUID) (sender : Sender)
      (content : Text) (status : MessageStatus) (eventId : UUID) (eventType : Text)
      (payload : ChatMessageCreated) (fileIds : Option (List UUID))
  | createConversation (now : Datetime) (conversationId userId : UUID) (title : Text)
      (status : ConversationStatus) (eventId : UUID) (eventType : Text)
      (payload : ConversationEvent) (parentConversationId branchMessageId : Option UUID)
  | updateConversation (now : Datetime) (conversationId : UUID) (title : Option Text)
      (status : ConversationStatus) (eventId : UUID) (eventType : Text)
      (payload : ConversationEvent)
  /-- one bucket of one scan; `now` is read at the start of a scan of a retry worker -/
  | turn (redis : Bool) (worker : Worker) (threshold : Int) (now : Datetime) (bucket : Nat)
  | renewal (redis : Bool) (worker : Worker)
  | shutDown (redis : Bool) (worker : Worker)
  /-- the process of a worker ends, and its memory is gone -/
  | crash (worker : Worker)
  /-- a lease key reaches its expiry -/
  | lapse (kind : WorkerKind) (bucket : Nat)

/-- `process_bucket` of a kind of worker. -/
def WorkerKind.processBucket (kind : WorkerKind) (threshold : Int) (now : Datetime) :
    Nat -> Work Unit :=
  match kind with
  | .outbox => DistributedOutboxWorker.processBucket
  | .retry => DistributedRetryWorker.processBucket threshold now

def OutboxCall.program : OutboxCall -> Work Unit
  | .createMessage now c m sender content status eventId eventType payload fileIds =>
      onStore (ignoreResult (MessageRepository.createWithOutbox now c m sender content
        status eventId eventType payload fileIds))
  | .createConversation now c userId title status eventId eventType payload parent branch =>
      onStore (ignoreResult (ConversationRepository.createWithOutbox now c userId title
        status eventId eventType payload parent branch))
  | .updateConversation now c title status eventId eventType payload =>
      onStore (ignoreResult (ConversationRepository.updateWithOutbox now c title status
        eventId eventType payload))
  | .turn redis worker threshold now bucket =>
      Leases.processWithLease redis worker (worker.kind.processBucket threshold now) bucket
  | .renewal redis worker => Leases.renewLocks redis worker
  | .shutDown redis worker => Leases.shutDown redis worker
  | .crash worker => work (.forget worker)
  | .lapse kind bucket => work (.lapse kind bucket)

/-- The calls on buckets that the loop of `start` reaches. -/
def OutboxCall.Scans (outboxBuckets : Nat) : OutboxCall -> Prop
  | .turn _ _ _ _ bucket => bucket < outboxBuckets
  | _ => True

/-- What a database, a broker or Redis is asked may raise. -/
def OutboxOp.IsRemote : OutboxOp -> Prop
  | .storage _ => True
  | .fetchUnpublished _ _ => True
  | .markPublished _ _ => True
  | .publish _ _ _ _ => True
  | .setLease _ _ => True
  | .getLease _ _ => True
  | .expireLease _ _ => True
  | .deleteLease _ _ => True
  | _ => False

abbrev OutboxTask : Type := Task OutboxCall outboxStorage PyExc Unit

abbrev OutboxPool : Type := Pool OutboxCall outboxStorage PyExc Unit OutboxWorld

/-- No event that is staged has the id of an earlier one; the ids are new UUIDs. -/
def StagesNew (c : OutboxPool) (t : OutboxTask) : Prop :=
  forall o next e, t.prog = .op (.storage o) next -> o.stages = some e ->
    forall e', e' ∈ c.store.staged -> e'.eventId ≠ e.eventId

/-- Any calls at any time, any faults, and a process that stops anywhere. -/
def outboxRules (outboxBuckets : Nat) (permits : OutboxPool -> OutboxTask -> Prop)
    (mayStart : OutboxPool -> OutboxCall -> Prop) :
    Rules OutboxCall outboxStorage PyExc Unit OutboxWorld where
  machine := outboxMachine
  program := OutboxCall.program
  permits c t := StagesNew c t ∧ permits c t
  mayFail := OutboxOp.IsRemote
  mayStart c call := call.Scans outboxBuckets ∧ mayStart c call
  mayStop _ := True
  moves _ _ := False

/-- An outbox and a broker without anything in them, and workers that have just started. -/
def OutboxWorld.blank : OutboxWorld :=
  { store := .blank
    outbox := fun _ => .empty
    staged := []
    broker := []
    failures := []
    leases := fun _ => none
    locked := fun _ => []
    running := fun _ => true }

end ConversationService
