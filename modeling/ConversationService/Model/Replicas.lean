import ConversationService.Library.Pools
import ConversationService.Model.CleanupWorker
import ConversationService.Model.MessagesApi
import ConversationService.Model.System

/-!
# Replicas

The service runs in several replicas, whose requests, event handlers and workers
interleave operation by operation. A call is described by its arguments and by what it
reads outside the stores; its program is the function that serves it.
-/

namespace ConversationService

open Python Programs

/-- Calls that interleave, without faults, stopping processes or expiring keys. -/
def interleaving {ι alpha : Type} (program : ι -> Py alpha)
    (permits : Pool ι storage PyExc alpha Store -> Task ι storage PyExc alpha -> Prop)
    (mayStart : Pool ι storage PyExc alpha Store -> ι -> Prop) :
    Rules ι storage PyExc alpha Store :=
  { machine := storageMachine
    program := program
    permits := permits
    mayFail := noFault
    mayStart := mayStart
    mayStop := fun _ => False
    moves := fun _ _ => False }

/-- The same, where processes may stop and keys may expire. -/
def stoppable {ι alpha : Type} (program : ι -> Py alpha)
    (permits : Pool ι storage PyExc alpha Store -> Task ι storage PyExc alpha -> Prop)
    (mayStart : Pool ι storage PyExc alpha Store -> ι -> Prop) :
    Rules ι storage PyExc alpha Store :=
  { interleaving program permits mayStart with
    mayStop := fun _ => True
    moves := Elapsed }

/-- The same, where operations may raise, processes may stop and keys may expire. -/
def disturbed {ι alpha : Type} (program : ι -> Py alpha)
    (permits : Pool ι storage PyExc alpha Store -> Task ι storage PyExc alpha -> Prop)
    (mayStart : Pool ι storage PyExc alpha Store -> ι -> Prop) :
    Rules ι storage PyExc alpha Store :=
  { interleaving program permits mayStart with
    mayFail := anyFault
    mayStop := fun _ => True
    moves := Elapsed }

/-- A condition on the operation that a task performs next. -/
def onNext {ι alpha : Type} (P : Store -> Op -> Prop)
    (c : Pool ι storage PyExc alpha Store) (t : Task ι storage PyExc alpha) : Prop :=
  match t.prog with
  | .op o _ => P c.store o
  | _ => True

/-- No operations have been performed yet. -/
def startingFrom {ι alpha : Type} (s : Store) : Pool ι storage PyExc alpha Store :=
  ⟨s, []⟩

/-!
# Calls of the conversation repository
-/

inductive RepositoryCall where
  | createWithOutbox (now : Datetime) (conversationId userId : UUID) (title : Text)
      (status : ConversationStatus) (eventId : UUID) (eventType : Text)
      (outboxPayload : ConversationEvent)
      (parentConversationId branchMessageId : Option UUID)
  | updateWithOutbox (now : Datetime) (conversationId : UUID) (title : Option Text)
      (status : ConversationStatus) (eventId : UUID) (eventType : Text)
      (outboxPayload : ConversationEvent)
  | deleteWithOutbox (now : Datetime) (conversationId eventId : UUID) (eventType : Text)
      (outboxPayload : ConversationEvent)
  | updateTitle (now : Datetime) (conversationId : UUID) (title : Json)
  | hardDelete (conversationId : UUID)

def RepositoryCall.program : RepositoryCall -> Py Unit
  | .createWithOutbox now c user title status eventId eventType payload parent branch =>
      ignoreResult
        (ConversationRepository.createWithOutbox now c user title status eventId eventType
          payload parent branch)
  | .updateWithOutbox now c title status eventId eventType payload =>
      ignoreResult
        (ConversationRepository.updateWithOutbox now c title status eventId eventType
          payload)
  | .deleteWithOutbox now c eventId eventType payload =>
      ignoreResult
        (ConversationRepository.deleteWithOutbox now c eventId eventType payload)
  | .updateTitle now c title =>
      ignoreResult (ConversationRepository.updateTitle now c title)
  | .hardDelete c => ignoreResult (ConversationRepository.hardDelete c)

/-!
# Calls of the conversation service
-/

inductive ConversationCall where
  | create (reads : ConversationReadings) (userId : UUID) (title : Text)
      (parentConversationId branchMessageId : Option UUID) (messageRepo : Bool)
  | get (conversationId : UUID)
  | rename (reads : ConversationReadings) (conversationId : UUID) (newTitle : Text)
  | archive (reads : ConversationReadings) (conversationId : UUID)
  | delete (reads : ConversationReadings) (conversationId : UUID)
  | setTitle (now : Datetime) (conversationId : UUID) (title : Json)

def ConversationCall.program (cache : Option CacheService) : ConversationCall -> Py Unit
  | .create reads userId title parent branch messageRepo =>
      ignoreResult
        (ConversationWrites.create cache reads userId title parent branch messageRepo)
  | .get c => ignoreResult (ConversationReads.get cache c)
  | .rename reads c newTitle =>
      ignoreResult (ConversationWrites.rename cache reads c newTitle)
  | .archive reads c => ignoreResult (ConversationWrites.archive cache reads c)
  | .delete reads c => ignoreResult (ConversationWrites.delete cache reads c)
  | .setTitle now c title => ignoreResult (ConversationWrites.setTitle cache now c title)

/-!
# Calls of all services and workers
-/

inductive ServiceCall where
  | message (call : Call)
  | conversation (call : ConversationCall)
  | history (conversationId : UUID) (limit : Nat) (cursor : Option UUID)
  | cleanUp (record : Record)

/-- `cache` is the cache of the conversation service. -/
def ServiceCall.program (d : Deployment) (cache : Option CacheService) :
    ServiceCall -> Py Unit
  | .message call => call.program d
  | .conversation call => call.program cache
  | .history c limit cursor => ignoreResult (d.api.history c limit cursor)
  | .cleanUp record => CleanupWorker.processRecord d.workerCache record

abbrev ServiceTask : Type := Task ServiceCall storage PyExc Unit

abbrev ServicePool : Type := Pool ServiceCall storage PyExc Unit Store

/-!
# Posting messages
-/

/-- A `POST` of a message by the owner of its conversation. -/
structure CreateMessageCall where
  reads : Readings
  clock : ClockReading
  conversationId : UUID
  payload : CreateMessageRequest
  xIdempotencyKey : Option Text
  conv : Conversation

def CreateMessageCall.program (svc : MessageService) (idempotency : IdempotencyService)
    (call : CreateMessageCall) : Py CreateMessageAnswer :=
  MessagesApi.createMessage svc idempotency call.reads call.clock call.conversationId
    call.payload call.xIdempotencyKey call.conv

def CreateMessageCall.key (call : CreateMessageCall) : Option Text :=
  MessagesApi.keyOf call.xIdempotencyKey

/-- A `POST` of a message by an authenticated user. -/
structure PostMessageCall where
  reads : Readings
  clock : ClockReading
  conversationId : UUID
  payload : CreateMessageRequest
  xIdempotencyKey : Option Text
  currentUser : UUID

def PostMessageCall.program (conversations : Option CacheService) (svc : MessageService)
    (idempotency : IdempotencyService) (call : PostMessageCall) : Py CreateMessageAnswer :=
  MessagesApi.postMessage conversations svc idempotency call.reads call.clock
    call.conversationId call.payload call.xIdempotencyKey call.currentUser

def PostMessageCall.key (call : PostMessageCall) : Option Text :=
  MessagesApi.keyOf call.xIdempotencyKey

/-- What a request reads at a given millisecond, with an id for a new conversation. -/
def ConversationReadings.at (ms : Int) (conversationId : UUID) : ConversationReadings :=
  { conversationId := conversationId
    eventId := .ofInt 4
    eventTime := ⟨ms * 1000, true⟩
    now := ⟨ms * 1000, true⟩ }

end ConversationService
