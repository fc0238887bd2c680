import ConversationService.Model.Storage

/-!
# Message repository (`app/repositories/message_repository.py`)
-/

namespace ConversationService

open Python Programs

/--
The serialisation of a value bound to a `text` column. The driver encodes it, so
anything but a string, and a string with a lone surrogate, raises.
-/
def cqlText (value : Json) : Py Text :=
  match value with
  | .str s =>
      match utf8Length s with
      | some _ => .ret s
      | none => .raise .unicodeError
  | _ => .raise .attributeError

namespace MessageRepository

def outboxBucket (conversationId : UUID) : Nat :=
  conversationId.int % 32

/-- The message and its request event, written in one LOGGED BATCH. -/
def createWithOutbox (now : Datetime) (conversationId messageId : UUID)
    (sender : Sender) (content : Text) (status : MessageStatus)
    (eventId : UUID) (eventType : Text) (outboxPayload : ChatMessageCreated)
    (fileIds : Option (List UUID)) : Py Message := do
  let fileIds := fileIds.getD []
  let content <- cqlText (.str content)
  perform (.batchMessageOutbox conversationId messageId sender content now status
    fileIds (outboxBucket conversationId) eventId
    { eventType := eventType, payload := outboxPayload, published := false,
      createdAt := now })
  pure
    { conversationId := conversationId
      messageId := messageId
      sender := some sender
      content := some content
      createdAt := some now
      status := status
      fileIds := fileIds
      citations := []
      responseMessageId := none }

/-- A row as a message with a given status. -/
def rowMessage (conversationId messageId : UUID) (status : MessageStatus)
    (row : Row) : Message :=
  { conversationId := conversationId
    messageId := messageId
    sender := row.sender
    content := row.content
    createdAt := row.createdAt
    status := status
    fileIds := row.fileIds
    citations := Citations.loadsCitations row.citations
    responseMessageId := none }

/-- A row as it appears in a page of the history; a deleted one does not. -/
def liveMessage (conversationId : UUID) (entry : UUID × Row) : Option Message :=
  entry.2.status.message?.map (fun status =>
    rowMessage conversationId entry.1 status entry.2)

def history (conversationId : UUID) (limit : Nat) (cursor : Option UUID) :
    Py (List Message) := do
  let rows : List (UUID × Row) <- perform (.selectHistory conversationId limit cursor)
  pure (rows.filterMap (liveMessage conversationId))

def historyUpto (conversationId uptoMessageId : UUID) (limit : Nat) :
    Py (List Message) := do
  let rows : List (UUID × Row) <-
    perform (.selectHistoryUpto conversationId uptoMessageId limit)
  pure (rows.filterMap (liveMessage conversationId))

/-- `get_message` reports a deleted row as a failed one. -/
def messageOfRow (conversationId messageId : UUID) (row : Row) : Message :=
  rowMessage conversationId messageId (row.status.message?.getD .failed) row

def getMessage (conversationId messageId : UUID) : Py (Option Message) := do
  let row : Option Row <- perform (.selectMessage conversationId messageId)
  pure (row.map (messageOfRow conversationId messageId))

def delete (conversationId messageId : UUID) : Py Bool := do
  perform (.updateDeleted conversationId messageId)
  pure true

/-- The whole partition of a conversation goes. -/
def deleteAllForConversation (conversationId : UUID) : Py Bool := do
  perform (.deleteAllMessages conversationId)
  pure true

/-- `sanitize_citations(citations) if citations else []` -/
def cleanCitations (citations : Json) : Py (List Citation) :=
  if citations.truthy then
    match Citations.sanitizeCitations citations with
    | some clean => .ret clean
    | none => .raise .unicodeError
  else .ret []

/--
An upsert of one row without an event. The citations are sanitised once more;
without any, their column is not written.
-/
def createMessageDirect (now : Datetime) (conversationId messageId : UUID)
    (sender : Sender) (content : Json) (status : MessageStatus)
    (citations : Json) : Py Message := do
  let clean <- cleanCitations citations
  let content <- cqlText content
  perform (.insertMessage conversationId messageId sender content now status
    (if clean.isEmpty then none else some (Citations.toJson clean)))
  pure
    { conversationId := conversationId
      messageId := messageId
      sender := some sender
      content := some content
      createdAt := some now
      status := status
      fileIds := []
      citations := clean
      responseMessageId := none }

end MessageRepository
end ConversationService
