import ConversationService.Model.MessageService

/-!
# Response events (`app/events/consumers.py`)

The handlers of the flat events that come back from the language model service.
The fields of an event are arbitrary JSON values.
-/

namespace ConversationService

open Python Programs

/-- The fields of a decoded event. -/
abbrev Event : Type := List (Text × Json)

namespace Consumers

/-- `_derive_event_id(*parts)`; `uuid5` encodes the name, which may raise. -/
def deriveEventId (parts : List Text) : Py InboxKey :=
  let name := join (text ":") parts
  match utf8Length name with
  | some _ => .ret (.derived name)
  | none => .raise .unicodeError

/-- `_response_message_id(event, kind)`; there is no fallback to the request's id. -/
def responseMessageId (event : Event) : Option UUID :=
  let raw := Json.get event (text "response_message_id")
  if raw.truthy then UUID.parse raw.pyStr else none

/-- `UUID(conversation_id_str)` -/
def parseConversationId (value : Json) : Py UUID :=
  match value with
  | .str s =>
      match UUID.parse s with
      | some u => .ret u
      | none => .raise .valueError
  | _ => .raise .attributeError

/-- The response id and the conversation of an event that is not ignored. -/
def target (event : Event) : Option (UUID × Json) :=
  let conversationIdStr := Json.get event (text "conversation_id")
  match responseMessageId event with
  | some responseId =>
      if conversationIdStr.truthy then some (responseId, conversationIdStr) else none
  | none => none

/-!
# Chunks
-/

def chunkPayload (event : Event) (responseId : UUID) (conversationIdStr : Json) :
    List (Text × Json) :=
  [ (text "conversation_id", conversationIdStr),
    (text "message_id", .str responseId.toText),
    (text "request_message_id", Json.get event (text "message_id")),
    (text "sender", .str (text "assistant")),
    (text "content", Json.getD event (text "content") (.str [])),
    (text "sequence_number", Json.get event (text "sequence_number")),
    (text "is_final", .bool false) ]

def handleChatResponseChunk (stream : StreamService) (event : Event) : Py Unit :=
  match target event with
  | none => pure ()
  | some (responseId, conversationIdStr) => do
      let dedupId <-
        deriveEventId
          [ text "chat.response.chunk", responseId.toText,
            (Json.get event (text "sequence_number")).pyStr ]
      let duplicate : Bool <- perform (.selectInbox dedupId)
      if duplicate then pure ()
      else do
        let conversationId <- parseConversationId conversationIdStr
        stream.publishToken conversationId
          (chunkPayload event responseId conversationIdStr)
        perform (.insertInbox dedupId)

/-!
# Final events
-/

def generatedDedupParts (responseId : UUID) : List Text :=
  [text "chat.response.generated", responseId.toText]

/-- The key under which a final event for an id is recorded. -/
def generatedKey (responseId : UUID) : InboxKey :=
  .derived (join (text ":") (generatedDedupParts responseId))

/-- `event.get("request_message_id") or event.get("message_id")` -/
def requestMessageId (event : Event) : Json :=
  Json.orElse (Json.get event (text "request_message_id"))
    (Json.get event (text "message_id"))

def basePayload (event : Event) (responseId : UUID) (conversationIdStr : Json) :
    List (Text × Json) :=
  [ (text "conversation_id", conversationIdStr),
    (text "message_id", .str responseId.toText),
    (text "request_message_id", requestMessageId event),
    (text "sender", .str (text "assistant")),
    (text "is_final", .bool true) ]

/-- `status == "success"`, which is also the default. -/
def isSuccess (event : Event) : Bool :=
  (Json.getD event (text "status") (.str (text "success"))).isText (text "success")

/-- `event.get("full_content") or ""` -/
def fullContent (event : Event) : Json :=
  Json.orElse (Json.get event (text "full_content")) (.str [])

/-- `event.get("error_message") or "Generation failed."` -/
def errorMessage (event : Event) : Json :=
  Json.orElse (Json.get event (text "error_message"))
    (.str (text "Generation failed."))

/-- The success branch; the answer says whether the reply was written. -/
def handleSuccess (svc : MessageService) (stream : StreamService) (now : Datetime)
    (event : Event) (responseId conversationId : UUID) (conversationIdStr : Json) :
    Py Bool :=
  match Citations.sanitizeCitations (Json.get event (text "citations")) with
  | none => .raise .unicodeError
  | some citations => do
      let written <-
        svc.finalizeAssistantMessage now conversationId responseId
          (fullContent event)
          (if citations.isEmpty then .null else Citations.toJson citations)
      match written with
      | none => pure false
      | some _ => do
          svc.clearPendingResponse responseId
          stream.publishToken conversationId
            (basePayload event responseId conversationIdStr ++
              [ (text "content", .str []),
                (text "status", .str (text "completed")),
                (text "citations", Citations.toJson citations),
                (text "full_content", fullContent event) ])
          pure true

/-- The error branch. -/
def handleError (svc : MessageService) (stream : StreamService) (now : Datetime)
    (event : Event) (responseId conversationId : UUID) (conversationIdStr : Json) :
    Py Bool := do
  let written <-
    svc.failAssistantMessage now conversationId responseId (errorMessage event)
  match written with
  | none => pure false
  | some _ => do
      svc.clearPendingResponse responseId
      stream.publishToken conversationId
        (basePayload event responseId conversationIdStr ++
          [ (text "content", errorMessage event),
            (text "status", .str (text "failed")) ])
      pure true

/-- The reply or the failure that a final event carries. -/
def handleOutcome (svc : MessageService) (stream : StreamService) (now : Datetime)
    (event : Event) (responseId conversationId : UUID) (conversationIdStr : Json) :
    Py Bool :=
  if isSuccess event then
    handleSuccess svc stream now event responseId conversationId conversationIdStr
  else
    handleError svc stream now event responseId conversationId conversationIdStr

/-- A refused reply is not recorded in the inbox. -/
def recordHandled (written : Bool) (dedupId : InboxKey) : Py Unit :=
  if written then perform (.insertInbox dedupId) else pure ()

def handleChatResponseGenerated (svc : MessageService) (stream : StreamService)
    (now : Datetime) (event : Event) : Py Unit :=
  match target event with
  | none => pure ()
  | some (responseId, conversationIdStr) => do
      let dedupId <- deriveEventId (generatedDedupParts responseId)
      let duplicate : Bool <- perform (.selectInbox dedupId)
      if duplicate then pure ()
      else do
        let conversationId <- parseConversationId conversationIdStr
        let written <-
          handleOutcome svc stream now event responseId conversationId
            conversationIdStr
        recordHandled written dedupId

end Consumers
end ConversationService
