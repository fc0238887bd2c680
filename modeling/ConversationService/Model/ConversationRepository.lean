import ConversationService.Model.CacheService

/-!
# Conversation repository (`app/repositories/conversation_repository.py`)

Every write is one LOGGED BATCH on the two conversation tables, computed from a row
that was read before.
-/

namespace ConversationService

open Python Programs

/-- The serialisation of a value or of a null bound to a `text` column. -/
def cqlOptionalText (value : Option Text) : Py (Option Text) :=
  match value with
  | some s => do
      let s <- cqlText (.str s)
      pure (some s)
  | none => pure none

/-- The same for a JSON value, of which `None` is bound as a null. -/
def cqlNullableText (value : Json) : Py (Option Text) :=
  match value with
  | .null => cqlOptionalText none
  | .str s => cqlOptionalText (some s)
  | .bool _ | .int _ | .float _ | .arr _ | .obj _ => .raise .attributeError

namespace ConversationRepository

def outboxBucket (conversationId : UUID) : Nat :=
  conversationId.int % 32

/-- A conversation is created with aware times, although they are read back naive. -/
def createWithOutbox (now : Datetime) (conversationId userId : UUID) (title : Text)
    (status : ConversationStatus) (eventId : UUID) (eventType : Text)
    (outboxPayload : ConversationEvent)
    (parentConversationId branchMessageId : Option UUID) : Py Conversation := do
  let title <- cqlText (.str title)
  perform (.batchCreateConversation conversationId userId title now status
    parentConversationId branchMessageId (outboxBucket conversationId) eventId
    { eventType := eventType, payload := outboxPayload, published := false,
      createdAt := now })
  pure
    { conversationId := conversationId
      userId := some userId
      title := some title
      createdAt := some now
      updatedAt := some now
      status := status
      parentConversationId := parentConversationId
      branchMessageId := branchMessageId }

/-- The object that `update_with_outbox` returns; it has no branch point. -/
def updatedConversation (conv : Conversation) (title : Option Text)
    (newUpdatedAt : Datetime) (status : ConversationStatus) : Conversation :=
  { conversationId := conv.conversationId
    userId := conv.userId
    title := title
    createdAt := conv.createdAt
    updatedAt := some newUpdatedAt
    status := status
    parentConversationId := conv.parentConversationId
    branchMessageId := none }

/-- The owner and the time of the last update, by which the old catalogue row is found. -/
def catalogOwner (conv : Conversation) : Py (UUID × Datetime) :=
  match conv.userId, conv.updatedAt with
  | some userId, some updatedAt => .ret (userId, updatedAt)
  -- a null in the key of a `DELETE` is an invalid request
  | _, _ => .raise .storage

def updateWithOutbox (newUpdatedAt : Datetime) (conversationId : UUID)
    (title : Option Text) (status : ConversationStatus) (eventId : UUID)
    (eventType : Text) (outboxPayload : ConversationEvent) :
    Py (Option Conversation) := do
  let conv <- get conversationId
  match conv with
  | none => pure none
  | some conv => do
      let title <- cqlOptionalText title
      let owner <- catalogOwner conv
      perform (.batchUpdateConversation conversationId owner.1 owner.2 newUpdatedAt title
        conv.createdAt status conv.parentConversationId (outboxBucket conversationId)
        eventId
        { eventType := eventType, payload := outboxPayload, published := false,
          createdAt := newUpdatedAt })
      pure (some (updatedConversation conv title newUpdatedAt status))

def deleteWithOutbox (newUpdatedAt : Datetime) (conversationId eventId : UUID)
    (eventType : Text) (outboxPayload : ConversationEvent) : Py Bool := do
  let conv <- get conversationId
  match conv with
  | none => pure false
  | some conv => do
      let result <-
        updateWithOutbox newUpdatedAt conversationId conv.title .deleted eventId eventType
          outboxPayload
      pure result.isSome

/-- The title comes from an event and may be any JSON value. -/
def updateTitle (newUpdatedAt : Datetime) (conversationId : UUID) (title : Json) :
    Py Bool := do
  let conv <- get conversationId
  match conv with
  | none => pure false
  | some conv => do
      let title <- cqlNullableText title
      let owner <- catalogOwner conv
      perform (.batchUpdateTitle conversationId owner.1 owner.2 newUpdatedAt title
        conv.createdAt conv.status conv.parentConversationId)
      pure true

def hardDelete (conversationId : UUID) : Py Bool := do
  let conv <- get conversationId
  match conv with
  | none => pure false
  | some conv => do
      let owner <- catalogOwner conv
      perform (.batchHardDelete conversationId owner.1 owner.2)
      pure true

/-- A row of the catalogue as it is listed; a deleted one is not. -/
def listedConversation (userId : UUID) (entry : CatalogKey × CatalogRow) :
    Option Conversation :=
  if entry.2.status = .deleted then none
  else
    some
      { conversationId := OrderDual.ofDual (ofLex entry.1).2
        userId := some userId
        title := entry.2.title
        createdAt := entry.2.createdAt
        updatedAt := some ⟨(ofLex entry.1).1, false⟩
        status := entry.2.status
        parentConversationId := entry.2.parentConversationId
        branchMessageId := none }

def list (userId : UUID) (limit : Nat) (cursor : Option Datetime) :
    Py (List Conversation) := do
  let rows : List (CatalogKey × CatalogRow) <-
    perform (.selectCatalog userId limit cursor)
  pure (rows.filterMap (listedConversation userId))

end ConversationRepository
end ConversationService
