import ConversationService.Model.ConversationRepository

/-!
# Conversation service (`app/services/conversation_service.py`)

`get` and `list` only read; `create`, `rename` and `archive` write through the cache,
`delete` and `set_title` evict from it.
-/

namespace ConversationService

open Python Programs

/-- What a request on conversations reads outside the stores. -/
structure ConversationReadings where
  /-- `uuidv7()` of a new conversation -/
  conversationId : UUID
  /-- `uuid.uuid1()` -/
  eventId : UUID
  /-- the `created_at` of the created event -/
  eventTime : Datetime
  /-- the time of the batch -/
  now : Datetime
deriving DecidableEq, Repr

def conversationCreatedTopic : Text := text "conversation.created"

def conversationUpdatedTopic : Text := text "conversation.updated"

def conversationDeletedTopic : Text := text "conversation.deleted"

/-- `ConversationStatus.value` -/
def ConversationStatus.value : ConversationStatus -> Text
  | .active => text "active"
  | .archived => text "archived"
  | .deleted => text "deleted"

namespace ConversationWrites

/-- `if self.cache:` before an action on the cache. -/
def forCache (cache : Option CacheService) (action : CacheService -> Py Unit) : Py Unit :=
  match cache with
  | some cache => action cache
  | none => pure ()

/--
The branch point of a new child: an explicit message must be one of the parent's,
otherwise it is the parent's newest message. `messageRepo` says whether a message
repository was given.
-/
def branchPoint (messageRepo : Bool) (parentId : UUID) (branchMessageId : Option UUID) :
    Py (Option UUID) :=
  if messageRepo then
    match branchMessageId with
    | some branchMessageId => do
        let message <- MessageRepository.getMessage parentId branchMessageId
        match message with
        | none => Prog.raise .valueError
        | some _ => pure (some branchMessageId)
    | none => do
        let latest <- MessageRepository.history parentId 1 none
        pure (latest.head?.map Message.messageId)
  else pure branchMessageId

/-- The checks on the parent of a new conversation, with the branch point in it. -/
def checkParent (cache : Option CacheService) (messageRepo : Bool) (userId : UUID)
    (parentConversationId branchMessageId : Option UUID) : Py (Option UUID) :=
  match parentConversationId with
  | none => pure none
  | some parentId => do
      let parent <- ConversationReads.get cache parentId
      match parent with
      | none => Prog.raise .lookupError
      | some parent =>
          if parent.status ≠ .active then Prog.raise .valueError
          else if parent.userId ≠ some userId then Prog.raise .permissionError
          else branchPoint messageRepo parentId branchMessageId

def createdEvent (reads : ConversationReadings) (userId : UUID) (title : Text)
    (parentConversationId branchMessageId : Option UUID) : ConversationEvent :=
  { conversationId := reads.conversationId
    userId := some userId
    title := some title
    status := text "ACTIVE"
    parentConversationId := parentConversationId
    branchMessageId := branchMessageId
    createdAt := some reads.eventTime }

/-- The payload of an update or of a deletion. -/
def changedEvent (conv : Conversation) (title : Option Text) (status : Text) :
    ConversationEvent :=
  { conversationId := conv.conversationId
    userId := conv.userId
    title := title
    status := status
    parentConversationId := none
    branchMessageId := none
    createdAt := none }

def create (cache : Option CacheService) (reads : ConversationReadings) (userId : UUID)
    (title : Text) (parentConversationId branchMessageId : Option UUID)
    (messageRepo : Bool) : Py Conversation := do
  let branchMessageId <-
    checkParent cache messageRepo userId parentConversationId branchMessageId
  let conv <-
    ConversationRepository.createWithOutbox reads.now reads.conversationId userId title
      .active reads.eventId conversationCreatedTopic
      (createdEvent reads userId title parentConversationId branchMessageId)
      parentConversationId branchMessageId
  forCache cache (fun cache => cache.setConversation conv)
  pure conv

/-- What `rename` and `archive` share: the update, and its result in the cache. -/
def updateThrough (cache : Option CacheService) (reads : ConversationReadings)
    (conversationId : UUID) (title : Option Text) (status : ConversationStatus)
    (event : ConversationEvent) : Py (Option Conversation) := do
  let updated <-
    ConversationRepository.updateWithOutbox reads.now conversationId title status
      reads.eventId conversationUpdatedTopic event
  match updated with
  | some conv => do
      forCache cache (fun cache => cache.setConversation conv)
      pure (some conv)
  | none => pure none

def rename (cache : Option CacheService) (reads : ConversationReadings)
    (conversationId : UUID) (newTitle : Text) : Py (Option Conversation) := do
  let conv <- ConversationReads.get cache conversationId
  match conv with
  | none => pure none
  | some conv =>
      updateThrough cache reads conversationId (some newTitle) conv.status
        (changedEvent { conv with conversationId := conversationId } (some newTitle)
          conv.status.value)

def archive (cache : Option CacheService) (reads : ConversationReadings)
    (conversationId : UUID) : Py (Option Conversation) := do
  let conv <- ConversationReads.get cache conversationId
  match conv with
  | none => pure none
  | some conv =>
      updateThrough cache reads conversationId conv.title .archived
        (changedEvent { conv with conversationId := conversationId } conv.title
          (text "archived"))

def delete (cache : Option CacheService) (reads : ConversationReadings)
    (conversationId : UUID) : Py Bool := do
  let conv <- ConversationReads.get cache conversationId
  match conv with
  | none => pure false
  | some conv => do
      let success <-
        ConversationRepository.deleteWithOutbox reads.now conversationId reads.eventId
          conversationDeletedTopic
          (changedEvent { conv with conversationId := conversationId } conv.title
            (text "deleted"))
      if success then do
        forCache cache (fun cache => cache.deleteConversation conversationId)
        pure true
      else pure false

def setTitle (cache : Option CacheService) (now : Datetime) (conversationId : UUID)
    (title : Json) : Py Bool := do
  let success <- ConversationRepository.updateTitle now conversationId title
  if success then do
    forCache cache (fun cache => cache.deleteConversation conversationId)
    pure true
  else pure false

end ConversationWrites
end ConversationService
