import ConversationService.Model.IdempotencyService
import ConversationService.Model.MessageService

/-!
# Messages API (`app/api/v1/messages.py`)

The `POST` of a message with its idempotency key, and the owner check of
`app/security/dependencies.py` that precedes it. The body has passed the validators of
`CreateMessageRequest`. The `GET` of a page of messages follows; a cursor stands for the
message id that it encodes.
-/

namespace ConversationService

open Python Programs

structure CreateMessageRequest where
  content : Text
  mode : Option Text
  selectedTools : Option (List Text)
  includeDiagrams : Bool
  fileIds : Option (List UUID)
deriving DecidableEq, Repr

/-- The two values that the handler returns. -/
inductive CreateMessageAnswer where
  | accepted (msg : Message)
  | replayed (response : SavedResponse)
deriving DecidableEq, Repr

namespace MessagesApi

def conversationNotFound : PyExc :=
  .httpException ⟨404, .message (text "Conversation not found")⟩

def forbidden : PyExc :=
  .httpException ⟨403, .message (text "Forbidden: You do not own this conversation")⟩

/-- `require_conversation_owner` -/
def requireConversationOwner (conversations : Option CacheService) (conversationId : UUID)
    (currentUser : UUID) : Py Conversation := do
  let conv <- ConversationReads.get conversations conversationId
  match conv with
  | none => Prog.raise conversationNotFound
  | some conv =>
      if conv.userId = some currentUser then pure conv
      else Prog.raise forbidden

def malformedKey : PyExc :=
  .httpException ⟨400, .message (text "X-Idempotency-Key must be a valid UUIDv4")⟩

def keyInProgress : PyExc :=
  .httpException ⟨409, .message
    (text "A concurrent request with this idempotency key is already in progress")⟩

/-- What the handler raises after a send that raised. -/
def sendFailure : PyExc -> PyExc
  | .customModeUnavailable =>
      .httpException ⟨422, .coded (text "custom_mode_unavailable")
        (text "That custom mode is no longer available. Choose another mode and try again.")⟩
  | .pendingResponseRegistration =>
      .httpException ⟨503, .message
        (text "Could not register the response for tracking; message not sent. Please retry.")⟩
  | e => e

/-- `none` where `created_at.isoformat()` raises. -/
def responseData (msg : Message) : Option SavedResponse :=
  msg.createdAt.map (fun createdAt =>
    { messageId := msg.messageId
      conversationId := msg.conversationId
      sender := msg.sender
      content := msg.content
      createdAt := some createdAt
      status := msg.status
      fileIds := msg.fileIds
      responseMessageId := msg.responseMessageId })

/-- `if x_idempotency_key:` before an action on the key. -/
def forKey (key : Option Text) (action : Text -> Py Unit) : Py Unit :=
  match key with
  | some key => action key
  | none => pure ()

def sendArgs (messageId conversationId : UUID) (payload : CreateMessageRequest)
    (conv : Conversation) : SendArgs :=
  { conversationId := conversationId
    messageId := messageId
    sender := .user
    content := payload.content
    userId := conv.userId
    mode := payload.mode
    selectedTools := payload.selectedTools
    fileIds := payload.fileIds
    includeDiagrams := payload.includeDiagrams }

/-- The handler behind the claim; `key` is the claimed key, if there is one. -/
def processNormally (svc : MessageService) (idempotency : IdempotencyService)
    (reads : Readings) (args : SendArgs) (key : Option Text) : Py CreateMessageAnswer := do
  let msg <-
    Prog.tryCatch (svc.send reads args)
      (fun e => do
        forKey key idempotency.removeLock
        Prog.raise (sendFailure e))
  forKey key (fun key =>
    match responseData msg with
    | some response => idempotency.saveResponse key response
    | none => Prog.raise .attributeError)
  pure (.accepted msg)

/-- The key of a request; an empty header counts as none. -/
def keyOf (xIdempotencyKey : Option Text) : Option Text :=
  xIdempotencyKey.filter (fun key => !key.isEmpty)

/-- `clock` is what `uuidv7()` reads for the id of the message. -/
def createMessage (svc : MessageService) (idempotency : IdempotencyService)
    (reads : Readings) (clock : ClockReading) (conversationId : UUID)
    (payload : CreateMessageRequest) (xIdempotencyKey : Option Text)
    (conv : Conversation) : Py CreateMessageAnswer :=
  let args := sendArgs (uuidv7 clock) conversationId payload conv
  match keyOf xIdempotencyKey with
  | none => processNormally svc idempotency reads args none
  | some key =>
      match UUID.parse key with
      | none => Prog.raise malformedKey
      | some _ => do
          let lockStatus <- idempotency.claimKey key
          match lockStatus with
          | some .processing => Prog.raise keyInProgress
          | some (.saved response) => pure (.replayed response)
          | none => processNormally svc idempotency reads args (some key)

/--
The whole route: the owner check and the handler. The message service that it is given
looks up ancestors through the same conversation service (`app/api/deps.py`).
-/
def postMessage (conversations : Option CacheService) (svc : MessageService)
    (idempotency : IdempotencyService) (reads : Readings) (clock : ClockReading)
    (conversationId : UUID) (payload : CreateMessageRequest)
    (xIdempotencyKey : Option Text) (currentUser : UUID) : Py CreateMessageAnswer := do
  let conv <- requireConversationOwner conversations conversationId currentUser
  createMessage { svc with branchContext := some conversations } idempotency reads clock
    conversationId payload xIdempotencyKey conv

/-!
# Pages of messages
-/

structure MessageListResponse where
  items : List Message
  nextCursor : Option UUID
  hasMore : Bool
deriving DecidableEq, Repr

/-- `items[-1]` of no items raises. -/
def listResponse (items : List Message) (limit : Nat) : Py MessageListResponse :=
  if items.length = limit then
    match items.getLast? with
    | some lastItem => pure ⟨items, some lastItem.messageId, true⟩
    | none => Prog.raise .lookupError
  else pure ⟨items, none, false⟩

def getMessageHistory (svc : MessageService) (conversationId : UUID) (limit : Nat)
    (cursor : Option UUID) : Py MessageListResponse := do
  let items <- svc.history conversationId limit cursor
  listResponse items limit

end MessagesApi
end ConversationService
