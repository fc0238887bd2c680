import ConversationService.Model.Consumers
import ConversationService.Model.ConversationService

/-!
# Consumer loops (`app/events/consumers.py`, `app/workers/summary_worker.py`)

The body of each loop as a program: where it returns, the loop commits; where it
raises, the exception handler of the loop goes on to the next record.
-/

namespace ConversationService

open Python Programs

/-- A record of Kafka, with what `json.loads` makes of its value unless that raises. -/
structure Record where
  topic : Text
  value : Option Json

def titleGeneratedTopic : Text := text "conversation.title.generated"

def chatResponseChunkTopic : Text := text "chat.response.chunk"

def chatResponseGeneratedTopic : Text := text "chat.response.generated"

namespace Consumers

/-- `UUID(value)` of a JSON value -/
def uuidOfJson (value : Json) : Py UUID :=
  match value with
  | .str s =>
      match UUID.parse s with
      | some u => .ret u
      | none => .raise .valueError
  | .null => .raise .typeError
  | _ => .raise .attributeError

/-- `payload[key]` -/
def payloadItem (payload : Json) (key : Text) : Py Json :=
  match payload with
  | .obj fields =>
      match fields.lookup key with
      | some value => .ret value
      | none => .raise .keyError
  | _ => .raise .typeError

/-- The title event, on which alone an envelope is acted. -/
def handleTitle (conversations : Option CacheService) (now : Datetime)
    (innerPayload : Json) : Py Unit := do
  let rawId <- payloadItem innerPayload (text "conversation_id")
  let conversationId <- uuidOfJson rawId
  let title <- payloadItem innerPayload (text "title")
  let _ <- ConversationWrites.setTitle conversations now conversationId title
  pure ()

def handleEnvelope (conversations : Option CacheService) (now : Datetime) (topic : Text)
    (event : Event) : Py Unit :=
  let eventIdStr := Json.get event (text "event_id")
  let innerPayload := Json.getD event (text "payload") (.obj [])
  if eventIdStr.truthy then do
    let eventId <- uuidOfJson eventIdStr
    let duplicate : Bool <- perform (.selectInbox (.envelope eventId))
    if duplicate then pure ()
    else do
      if topic = titleGeneratedTopic then handleTitle conversations now innerPayload
      else pure ()
      perform (.insertInbox (.envelope eventId))
  else pure ()

/-- The body of `start_kafka_consumer`. -/
def processRecord (svc : MessageService) (stream : StreamService)
    (conversations : Option CacheService) (now : Datetime) (record : Record) : Py Unit :=
  match record.value with
  | none => .raise .valueError
  | some (.obj event) =>
      if record.topic = chatResponseChunkTopic then handleChatResponseChunk stream event
      else if record.topic = chatResponseGeneratedTopic then
        handleChatResponseGenerated svc stream now event
      else handleEnvelope conversations now record.topic event
  -- the decoded value has no `get`
  | some _ => .raise .attributeError

end Consumers

namespace SummaryWorker

/-- `inner_payload.get(key)` -/
def payloadGet (payload : Json) (key : Text) : Py Json :=
  match payload with
  | .obj fields => .ret (Json.get fields key)
  | _ => .raise .attributeError

/-- The body of `start_summary_worker`. -/
def processRecord (svc : MessageService) (now : Datetime) (summaryMessageId : UUID)
    (record : Record) : Py Unit :=
  match record.value with
  | none => .raise .valueError
  | some (.obj event) =>
      let eventIdStr := Json.get event (text "event_id")
      let innerPayload := Json.getD event (text "payload") (.obj [])
      if eventIdStr.truthy then do
        let eventId <- Consumers.uuidOfJson eventIdStr
        let duplicate : Bool <- perform (.selectInbox (.envelope eventId))
        if duplicate then pure ()
        else do
          let conversationIdStr <- payloadGet innerPayload (text "conversation_id")
          let summary <- payloadGet innerPayload (text "summary")
          if !conversationIdStr.truthy || !summary.truthy then pure ()
          else do
            let conversationId <- Consumers.uuidOfJson conversationIdStr
            let _ <- svc.attachSummary now conversationId summaryMessageId summary.pyStr
            perform (.insertInbox (.envelope eventId))
      else pure ()
  | some _ => .raise .attributeError

end SummaryWorker
end ConversationService
