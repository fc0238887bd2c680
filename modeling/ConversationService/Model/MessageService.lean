import ConversationService.Model.BranchContextService
import ConversationService.Model.PreferencesService

/-!
# Message service (`app/services/message_service.py`)

Clock readings, random bytes and generated event ids are arguments, so that a
handler is a deterministic program over the storage operations.
-/

namespace ConversationService

open Python Programs

/-- The settings of `app/core/config.py` that the handlers read. -/
structure Settings where
  cacheHistoryLimit : Nat
  pendingResponseTimeoutSeconds : Nat
  pendingResponseMarkerGraceSeconds : Nat
deriving DecidableEq, Repr

/-- The values that the settings have without an environment. -/
def Settings.default : Settings :=
  { cacheHistoryLimit := 50
    pendingResponseTimeoutSeconds := 120
    pendingResponseMarkerGraceSeconds := 300 }

/--
`preferences` says whether a preferences service was given. `branchContext` is
the cache of the conversation service behind it, if there is one.
-/
structure MessageService where
  settings : Settings
  cache : Option CacheService
  preferences : Bool
  branchContext : Option (Option CacheService)
deriving DecidableEq, Repr

def historyEventMaxMessages : Nat := 10

def historyEventMaxMessageChars : Nat := 2000

def historyEventMaxChars : Int := 8000

/-- What a request reads outside the stores. -/
structure Readings where
  /-- the attempts of `uuidv7_after` -/
  response : Nat -> ClockReading
  /-- the request id of a regeneration -/
  request : ClockReading
  /-- `uuid.uuid1()` -/
  eventId : UUID
  correlationId : Text
  payloadTime : Datetime
  placeholderTime : Datetime
  /-- `datetime.now(timezone.utc).timestamp()` at the registration, in microseconds -/
  registrationTime : Nat
  batchTime : Datetime

/-- The arguments of `send`. -/
structure SendArgs where
  conversationId : UUID
  messageId : UUID
  sender : Sender
  content : Text
  userId : Option UUID
  mode : Option Text
  selectedTools : Option (List Text)
  fileIds : Option (List UUID)
  includeDiagrams : Bool
deriving DecidableEq, Repr

/-- The arguments of `_build_chat_message_created_payload`, with its defaults. -/
structure PayloadArgs where
  conversationId : UUID
  messageId : UUID
  userId : Option UUID
  content : Option Text
  mode : Option Text := none
  selectedTools : Option (List Text) := none
  fileIds : Option (List UUID) := none
  responseMessageId : Option UUID := none
  metadata : Option RegenerationMetadata := none
  history : List HistoryEntry := []
  preferences : Option GenerationPreferences := none
  defaultsApplied : DefaultsApplied := ⟨false, false⟩
  ancestors : List AncestorRef := []
  customMode : Option CustomModeSnapshot := none
  includeDiagrams : Bool := false

/-- `KafkaTopics.CHAT_MESSAGE_CREATED` -/
def chatMessageCreatedTopic : Text := text "chat.message.created"

namespace MessageService

def redis (svc : MessageService) : Bool :=
  match svc.cache with
  | some cache => cache.redis
  | none => false

def resolvePreferences (svc : MessageService) (userId : Option UUID)
    (mode : Option Text) (selectedTools : Option (List Text)) :
    Py ResolvedMessagePreferences :=
  if svc.preferences then
    PreferencesService.resolveForMessage userId mode selectedTools
  else
    pure
      { mode := mode
        selectedTools := selectedTools
        defaultsApplied := ⟨false, false⟩
        generation := none
        version := 0
        customMode := none }

def invalidateCache (svc : MessageService) (conversationId : UUID) : Py Unit :=
  match svc.cache with
  | some cache => cache.deleteLast50Messages conversationId
  | none => pure ()

def buildChatMessageCreatedPayload (reads : Readings) (args : PayloadArgs) :
    ChatMessageCreated :=
  { eventType := text "chat.message.created"
    schemaVersion := text "2.3"
    messageId := args.messageId
    responseMessageId := args.responseMessageId
    conversationId := args.conversationId
    userId := args.userId
    content := args.content
    modeHint := args.mode
    selectedTools := args.selectedTools.getD []
    includeDiagrams := args.includeDiagrams
    fileIds := args.fileIds.getD []
    history := args.history
    ancestors := args.ancestors
    customMode := args.customMode
    preferences := args.preferences
    defaultsApplied := args.defaultsApplied
    metadata := args.metadata
    traceparent := reads.correlationId
    timestamp := reads.payloadTime }

/-!
# History
-/

/-- The loop of `_format_history`; `picked` is in the order of the rows read. -/
def formatHistoryFrom :
    List HistoryEntry -> Int -> List Message -> List HistoryEntry
  | picked, _, [] => picked
  | picked, budget, m :: rest =>
      if ¬(m.sender = some .user ∨ m.sender = some .assistant) then
        formatHistoryFrom picked budget rest
      else if m.status ≠ .sent ∨ strip (m.content.getD []) = [] then
        formatHistoryFrom picked budget rest
      else
        let cut := (strip (m.content.getD [])).take historyEventMaxMessageChars
        if budget - cut.length < 0 ∧ picked ≠ [] then picked
        else
          let picked := picked ++ [.own m.sender cut m.messageId]
          if historyEventMaxMessages ≤ picked.length then picked
          else formatHistoryFrom picked (budget - cut.length) rest

def formatHistory (messagesNewestFirst : List Message) : List HistoryEntry :=
  (formatHistoryFrom [] historyEventMaxChars messagesNewestFirst).reverse

/-- The cached page; a request with a cursor never uses the cache. -/
def cachedHistory (svc : MessageService) (conversationId : UUID) (limit : Nat)
    (cursor : Option UUID) : Py (Option (List Message)) :=
  match cursor, svc.cache with
  | none, some cache => cache.getLast50Messages conversationId limit
  | _, _ => pure none

def history (svc : MessageService) (conversationId : UUID) (limit : Nat)
    (cursor : Option UUID) : Py (List Message) := do
  let cached <- svc.cachedHistory conversationId limit cursor
  match cached with
  | some messages => pure messages
  | none => do
      let messages <- MessageRepository.history conversationId limit cursor
      match cursor, svc.cache with
      | none, some cache =>
          cache.setLast50Messages conversationId messages
          pure messages
      | _, _ => pure messages

def recentHistory (svc : MessageService) (conversationId : UUID) :
    Py (List HistoryEntry) :=
  Prog.tryCatch
    (do
      let messages <-
        svc.history conversationId (historyEventMaxMessages * 2) none
      pure (formatHistory messages))
    (fun _ => pure [])

def markInherited (m : InheritedMessage) : HistoryEntry :=
  .inherited m.role m.content m.conversationId

/-- `conversations` is the cache of the conversation service. -/
def branchEventContext (conversations : Option CacheService)
    (conversationId : UUID) (own : List HistoryEntry) :
    Py (List HistoryEntry × List AncestorRef) :=
  Prog.tryCatch
    (do
      let conv <- ConversationReads.get conversations conversationId
      match conv with
      | none => pure (own, [])
      | some conv =>
          match conv.parentConversationId with
          | none => pure (own, [])
          | some _ => do
              let context <- BranchContextService.eventContext conversations conv
              pure (context.1.map markInherited ++ own, context.2))
    (fun _ => pure (own, []))

/-!
# Pending responses
-/

/-- Both commands, with whatever they raise swallowed. -/
def clearPendingResponse (svc : MessageService) (messageId : UUID) : Py Unit :=
  Prog.tryCatch
    (if svc.redis then do
      perform (.deletePending messageId)
      perform (.zremPending messageId)
    else Prog.raise .attributeError)
    (fun _ => pure ())

def softDeletePlaceholder (conversationId responseMessageId : UUID) : Py Unit :=
  Prog.tryCatch
    (do
      let _ <- MessageRepository.delete conversationId responseMessageId
      pure ())
    (fun _ => pure ())

/-- The `ex` of the marker, in microseconds. -/
def markerTtl (svc : MessageService) : Nat :=
  (svc.settings.pendingResponseTimeoutSeconds +
    svc.settings.pendingResponseMarkerGraceSeconds) * second

def registerPendingResponse (svc : MessageService) (reads : Readings)
    (conversationId messageId : UUID) : Py Unit :=
  if svc.redis then
    Prog.tryCatch
      (do
        perform (.setPending messageId conversationId svc.markerTtl)
        perform (.zaddPending messageId
          (reads.registrationTime +
            svc.settings.pendingResponseTimeoutSeconds * second)))
      (fun _ => do
        svc.clearPendingResponse messageId
        Prog.raise .pendingResponseRegistration)
  else Prog.raise .pendingResponseRegistration

def openPendingResponse (svc : MessageService) (reads : Readings)
    (conversationId responseMessageId : UUID) : Py Unit := do
  let _ <-
    MessageRepository.createMessageDirect reads.placeholderTime conversationId
      responseMessageId .assistant (.str []) .pending .null
  Prog.tryCatch
    (svc.registerPendingResponse reads conversationId responseMessageId)
    (fun e =>
      if e = .pendingResponseRegistration then do
        softDeletePlaceholder conversationId responseMessageId
        Prog.raise e
      else Prog.raise e)

def discardPendingResponse (svc : MessageService)
    (conversationId responseMessageId : UUID) : Py Unit := do
  softDeletePlaceholder conversationId responseMessageId
  svc.clearPendingResponse responseMessageId

/-!
# Sending
-/

/-- The id of the reply to a user's message; other senders get no reply. -/
def responseIdFor (reads : Readings) (args : SendArgs) : Option UUID :=
  match args.sender with
  | .user => some (uuidv7After args.messageId reads.response)
  | _ => none

/-- The history and the ancestors that the request event of a message carries. -/
def sendContext (svc : MessageService) (args : SendArgs) :
    Py (List HistoryEntry × List AncestorRef) :=
  match args.sender with
  | .user => do
      let own <- svc.recentHistory args.conversationId
      match svc.branchContext with
      | some conversations =>
          branchEventContext conversations args.conversationId own
      | none => pure (own, [])
  | _ => pure ([], [])

def sendPayload (reads : Readings) (args : SendArgs)
    (context : List HistoryEntry × List AncestorRef)
    (resolved : ResolvedMessagePreferences) : ChatMessageCreated :=
  buildChatMessageCreatedPayload reads
    { conversationId := args.conversationId
      messageId := args.messageId
      userId := args.userId
      content := some args.content
      mode := resolved.mode
      selectedTools := resolved.selectedTools
      fileIds := args.fileIds
      responseMessageId := responseIdFor reads args
      history := context.1
      preferences := resolved.generation
      defaultsApplied := resolved.defaultsApplied
      ancestors := context.2
      customMode := resolved.customMode
      includeDiagrams := args.includeDiagrams }

/-- `if response_message_id:` before an action on the pending response. -/
def forResponse (responseMessageId : Option UUID) (action : UUID -> Py Unit) :
    Py Unit :=
  match responseMessageId with
  | some responseMessageId => action responseMessageId
  | none => pure ()

/-- The batch of a message and its event; if it raises, the pending response goes. -/
def stageRequest (svc : MessageService) (reads : Readings)
    (conversationId messageId : UUID) (sender : Sender) (content : Text)
    (status : MessageStatus) (payload : ChatMessageCreated)
    (fileIds : Option (List UUID)) (responseMessageId : Option UUID) : Py Message :=
  Prog.tryCatch
    (MessageRepository.createWithOutbox reads.batchTime conversationId messageId
      sender content status reads.eventId chatMessageCreatedTopic payload fileIds)
    (fun e => do
      forResponse responseMessageId (svc.discardPendingResponse conversationId)
      Prog.raise e)

def send (svc : MessageService) (reads : Readings) (args : SendArgs) :
    Py Message := do
  let responseMessageId := responseIdFor reads args
  let context <- svc.sendContext args
  let resolved <- svc.resolvePreferences args.userId args.mode args.selectedTools
  let payload := sendPayload reads args context resolved
  forResponse responseMessageId (svc.openPendingResponse reads args.conversationId)
  let msg <-
    svc.stageRequest reads args.conversationId args.messageId args.sender args.content
      .sent payload args.fileIds responseMessageId
  svc.invalidateCache args.conversationId
  pure { msg with responseMessageId := responseMessageId }

def delete (svc : MessageService) (conversationId messageId : UUID) : Py Bool := do
  let success <- MessageRepository.delete conversationId messageId
  if success then do
    svc.invalidateCache conversationId
    pure true
  else pure false

/-!
# Regenerating
-/

/-- The first message with an id, with the messages that come after it in the page. -/
def locate (messageId : UUID) : List Message -> Option (Message × List Message)
  | [] => none
  | m :: rest => if m.messageId = messageId then some (m, rest) else locate messageId rest

/-- `prompt` is the row next to the target, `older` what lies below that row. -/
def regeneratePayload (reads : Readings) (conversationId messageId : UUID)
    (userId : Option UUID) (responseMessageId : UUID) (prompt : Option Message)
    (older : List Message) (resolved : ResolvedMessagePreferences) :
    ChatMessageCreated :=
  buildChatMessageCreatedPayload reads
    { conversationId := conversationId
      messageId := uuidv7 reads.request
      userId := userId
      content :=
        match prompt with
        | some m => m.content
        | none => some []
      mode := resolved.mode
      selectedTools := resolved.selectedTools
      preferences := resolved.generation
      defaultsApplied := resolved.defaultsApplied
      fileIds := prompt.map (fun m => m.fileIds)
      responseMessageId := some responseMessageId
      history := formatHistory older
      metadata :=
        some
          { promptMessageId := prompt.map (fun m => m.messageId)
            replacesMessageId := messageId } }

/-- The id of the new reply, above the prompt or else above the target. -/
def regenerateResponseId (reads : Readings) (target : Message)
    (prompt : Option Message) : UUID :=
  match prompt with
  | some m => uuidv7After m.messageId reads.response
  | none => uuidv7After target.messageId reads.response

/-- Soft-delete the replaced answer; a failure to do so is only logged. -/
def deleteReplaced (conversationId messageId : UUID) (target : Message) : Py Unit :=
  if target.sender = some .assistant then
    softDeletePlaceholder conversationId messageId
  else pure ()

/-- The part of `regenerate` after the target has been found. -/
def regenerateTarget (svc : MessageService) (reads : Readings)
    (conversationId messageId : UUID) (userId : Option UUID) (target : Message)
    (below : List Message) : Py (Option Message) := do
  let prompt := below.head?
  let responseMessageId := regenerateResponseId reads target prompt
  let resolved <- svc.resolvePreferences userId none none
  let payload :=
    regeneratePayload reads conversationId messageId userId responseMessageId prompt
      below.tail resolved
  svc.openPendingResponse reads conversationId responseMessageId
  let _ <-
    svc.stageRequest reads conversationId responseMessageId .assistant [] .pending
      payload none (some responseMessageId)
  deleteReplaced conversationId messageId target
  svc.invalidateCache conversationId
  pure (some { target with responseMessageId := some responseMessageId })

def regenerate (svc : MessageService) (reads : Readings)
    (conversationId messageId : UUID) (userId : Option UUID) :
    Py (Option Message) := do
  let messages <-
    MessageRepository.history conversationId svc.settings.cacheHistoryLimit none
  match locate messageId messages with
  | none => pure none
  | some (target, below) =>
      svc.regenerateTarget reads conversationId messageId userId target below

/-!
# Replies
-/

def isWritableAssistantRow (conversationId messageId : UUID) : Py Bool := do
  let existing <- MessageRepository.getMessage conversationId messageId
  match existing with
  | some m => pure (m.sender == some .assistant)
  | none => pure true

/-- `none` when the id belongs to a message that is not an assistant's. -/
def finalizeAssistantMessage (svc : MessageService) (now : Datetime)
    (conversationId messageId : UUID) (content citations : Json) :
    Py (Option Message) := do
  let writable <- isWritableAssistantRow conversationId messageId
  if writable then do
    let msg <-
      MessageRepository.createMessageDirect now conversationId messageId .assistant
        content .sent citations
    svc.invalidateCache conversationId
    pure (some msg)
  else pure none

/-- A sent reply with a text in it. -/
def isCompletedReply (m : Message) : Bool :=
  m.sender == some .assistant && m.status == .sent && !(m.content.getD []).isEmpty

def failAssistantMessage (svc : MessageService) (now : Datetime)
    (conversationId messageId : UUID) (errorMessage : Json) :
    Py (Option Message) := do
  let writable <- isWritableAssistantRow conversationId messageId
  if writable then do
    let existing <- MessageRepository.getMessage conversationId messageId
    match existing.filter isCompletedReply with
    | some m => pure (some m)
    | none => do
        let msg <-
          MessageRepository.createMessageDirect now conversationId messageId
            .assistant errorMessage .failed .null
        svc.invalidateCache conversationId
        pure (some msg)
  else pure none

def attachSummary (svc : MessageService) (now : Datetime)
    (conversationId summaryMessageId : UUID) (summary : Text) : Py Message := do
  let msg <-
    MessageRepository.createMessageDirect now conversationId summaryMessageId .system
      (.str (text "Summary: " ++ summary)) .sent .null
  svc.invalidateCache conversationId
  pure msg

end MessageService
end ConversationService
