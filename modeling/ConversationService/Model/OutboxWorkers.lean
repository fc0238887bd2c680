import ConversationService.Model.Outbox

/-!
# Outbox worker and retry worker

`app/workers/outbox_worker.py` and `app/workers/retry_worker.py`. The two classes have the
same leases on the buckets, under different keys; what they do with the events of a bucket
differs. `redis` says whether the worker was given a client.
-/

namespace ConversationService

open Python Programs

namespace Leases

variable (redis : Bool) (worker : Worker)

def acquireLock (bucket : Nat) : Work Bool :=
  if redis then
    Prog.tryCatch
      (do
        let acquired : Bool <- work (.setLease worker bucket)
        if acquired then do
          work (.addLocked worker bucket)
          pure true
        else pure false)
      (fun _ => pure false)
  else pure false

/-- The body of the loop over the locked buckets. -/
def renewLock (bucket : Nat) : Work Unit :=
  Prog.tryCatch
    (do
      let currentOwner : Option Text <- work (.getLease worker.kind bucket)
      if currentOwner = some worker.workerId then
        work (.expireLease worker.kind bucket)
      else work (.discardLocked worker bucket))
    (fun _ => pure ())

def renewEach : List Nat -> Work Unit
  | [] => pure ()
  | bucket :: rest => do
      renewLock worker bucket
      renewEach rest

/-- One round of `renew_locks`, after its sleep. -/
def renewLocks : Work Unit :=
  if redis then do
    let buckets : List Nat <- work (.lockedBuckets worker)
    renewEach worker buckets
  else pure ()

def releaseLock (bucket : Nat) : Work Unit :=
  if redis then
    Prog.tryCatch
      (do
        let currentOwner : Option Text <- work (.getLease worker.kind bucket)
        if currentOwner = some worker.workerId then do
          work (.deleteLease worker.kind bucket)
          work (.discardLocked worker bucket)
        else pure ())
      (fun _ => pure ())
  else pure ()

def releaseEach : List Nat -> Work Unit
  | [] => pure ()
  | bucket :: rest => do
      releaseLock redis worker bucket
      releaseEach rest

/-- The `finally` of `start`, after the renewal task has ended. -/
def shutDown : Work Unit := do
  work (.stopRunning worker)
  let buckets : List Nat <- work (.lockedBuckets worker)
  releaseEach redis worker buckets

/-- `process_with_lease` around the processing of a bucket. -/
def processWithLease (processBucket : Nat -> Work Unit) (bucket : Nat) : Work Unit := do
  let mine : Bool <- work (.isLocked worker bucket)
  if mine then processBucket bucket
  else do
    let acquired <- acquireLock redis worker bucket
    if acquired then processBucket bucket
    else pure ()

end Leases

/-- Publish an event under its conversation, or else under its own id, and mark it. -/
def handOver (event : OutboxEvent) : Work Unit := do
  work (.publish event.eventId event.eventType
    (event.payload.conversationId.getD event.eventId).toText event.payload)
  work (.markPublished event.bucket event.eventId)

namespace DistributedOutboxWorker

/-- The loop over the events ends at the first failure. -/
def processEvents : List OutboxEvent -> Work Unit
  | [] => pure ()
  | event :: rest => do
      let succeeded <-
        Prog.tryCatch
          (do
            handOver event
            pure true)
          (fun _ => do
            work (.logFailure .outbox event.eventId)
            pure false)
      if succeeded then processEvents rest else pure ()

def processBucket (bucket : Nat) : Work Unit :=
  Prog.tryCatch
    (do
      let unpublishedEvents : List OutboxEvent <- work (.fetchUnpublished bucket 200)
      processEvents unpublishedEvents)
    (fun _ => pure ())

end DistributedOutboxWorker

namespace DistributedRetryWorker

/-- `age_seconds < settings.OUTBOX_STALE_THRESHOLD_SECONDS`, in microseconds. -/
def IsYoung (threshold : Int) (now : Datetime) (event : OutboxEvent) : Prop :=
  now.micros - event.createdAt.micros < threshold

instance (threshold : Int) (now : Datetime) (event : OutboxEvent) :
    Decidable (IsYoung threshold now event) :=
  inferInstanceAs (Decidable (_ < _))

/-- The loop over the events goes on behind young events and behind failures. -/
def processEvents (threshold : Int) (now : Datetime) : List OutboxEvent -> Work Unit
  | [] => pure ()
  | event :: rest =>
      if IsYoung threshold now event then processEvents threshold now rest
      else do
        Prog.tryCatch (handOver event) (fun _ => work (.logFailure .retry event.eventId))
        processEvents threshold now rest

def processBucket (threshold : Int) (now : Datetime) (bucket : Nat) : Work Unit :=
  Prog.tryCatch
    (do
      let unpublishedEvents : List OutboxEvent <- work (.fetchUnpublished bucket 100)
      processEvents threshold now unpublishedEvents)
    (fun _ => pure ())

end DistributedRetryWorker

end ConversationService
