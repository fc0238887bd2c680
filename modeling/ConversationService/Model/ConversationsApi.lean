import ConversationService.Model.ConversationRepository

/-!
# Conversations API (`app/api/v1/conversations.py`)

The `GET` of a page of conversations. A cursor stands for the payload that it encodes.
-/

namespace ConversationService

open Python Programs

structure ConversationCursor where
  updatedAt : Datetime
  conversationId : UUID
deriving DecidableEq, Repr

structure ConversationListResponse where
  items : List Conversation
  nextCursor : Option ConversationCursor
  hasMore : Bool
deriving DecidableEq, Repr

namespace ConversationsApi

/-- `items[-1]` of no items raises, and so does the `isoformat` of a missing time. -/
def listResponse (items : List Conversation) (limit : Nat) : Py ConversationListResponse :=
  if items.length = limit then
    match items.getLast? with
    | some lastItem =>
        match lastItem.updatedAt with
        | some updatedAt =>
            pure ⟨items, some ⟨updatedAt, lastItem.conversationId⟩, true⟩
        | none => Prog.raise .attributeError
    | none => Prog.raise .lookupError
  else pure ⟨items, none, false⟩

/-- The query continues at the time of the cursor; its id is not used. -/
def listConversations (currentUser : UUID) (limit : Nat)
    (cursor : Option ConversationCursor) : Py ConversationListResponse := do
  let items <-
    ConversationRepository.list currentUser limit (cursor.map ConversationCursor.updatedAt)
  listResponse items limit

end ConversationsApi
end ConversationService
