import ConversationService.Model.MessageRepository

/-!
# Cache and stream services

`app/services/cache_service.py`, the read-through `get` of
`app/services/conversation_service.py`, and the publishing half of
`app/services/stream_service.py`. All of them swallow what Redis raises.
-/

namespace ConversationService

open Python Programs

/-- `redis` says whether the service was given a client. -/
structure CacheService where
  redis : Bool
deriving DecidableEq, Repr

structure StreamService where
  redis : Bool
deriving DecidableEq, Repr

namespace CacheService

/-- A cached message as it is read back; its citations are sanitised again. -/
def cachedMessage (m : Message) : Option Message :=
  (Citations.sanitizeCitations (Citations.toJson m.citations)).map (fun clean =>
    { m with citations := clean, responseMessageId := none })

def getLast50Messages (cache : CacheService) (conversationId : UUID)
    (limit : Nat) : Py (Option (List Message)) :=
  if cache.redis then
    Prog.tryCatch
      (do
        let items : List Message <- perform (.lrangeHistory conversationId limit)
        if items.isEmpty then
          pure none
        else
          match items.mapM cachedMessage with
          | some messages => pure (some messages)
          | none => Prog.raise .unicodeError)
      (fun _ => pure none)
  else pure none

/-- A message without a creation time cannot be written: `isoformat` raises. -/
def setLast50Messages (cache : CacheService) (conversationId : UUID)
    (messages : List Message) : Py Unit :=
  if !cache.redis || messages.isEmpty then pure ()
  else
    Prog.tryCatch
      (if messages.all (fun m => m.createdAt.isSome) then do
        perform (.deleteHistory conversationId)
        perform (.rpushHistory conversationId messages)
        perform (.expireHistory conversationId)
      else Prog.raise .attributeError)
      (fun _ => pure ())

def deleteLast50Messages (cache : CacheService) (conversationId : UUID) : Py Unit :=
  if cache.redis then
    Prog.tryCatch (perform (.deleteHistory conversationId)) (fun _ => pure ())
  else pure ()

/-- A cached conversation; a missing owner is written `None`, which is no UUID. -/
def getConversation (cache : CacheService) (conversationId : UUID) :
    Py (Option Conversation) :=
  if cache.redis then
    Prog.tryCatch
      (do
        let cached : Option Conversation <- perform (.hgetConversation conversationId)
        match cached with
        | some conv =>
            if conv.userId.isSome then pure (some conv) else Prog.raise .valueError
        | none => pure none)
      (fun _ => pure none)
  else pure none

/-- A missing time has no `isoformat`, and a missing title is no value for Redis. -/
def isCacheable (conv : Conversation) : Bool :=
  conv.createdAt.isSome && conv.updatedAt.isSome && conv.title.isSome

def setConversation (cache : CacheService) (conv : Conversation) : Py Unit :=
  if cache.redis then
    Prog.tryCatch
      (if isCacheable conv then do
        perform (.hsetConversation conv.conversationId conv)
        perform (.expireConversation conv.conversationId)
      else Prog.raise .attributeError)
      (fun _ => pure ())
  else pure ()

def deleteConversation (cache : CacheService) (conversationId : UUID) : Py Unit :=
  if cache.redis then
    Prog.tryCatch (perform (.deleteConversation conversationId)) (fun _ => pure ())
  else pure ()

end CacheService

namespace ConversationRepository

/-- The object made of a row; a null status is no `ConversationStatus`. -/
def conversationOfRow? (conversationId : UUID) (row : ConversationRow) :
    Option Conversation :=
  row.status.map (fun status =>
    { conversationId := conversationId
      userId := row.userId
      title := row.title
      createdAt := row.createdAt
      updatedAt := row.updatedAt
      status := status
      parentConversationId := row.parentConversationId
      branchMessageId := row.branchMessageId })

def get (conversationId : UUID) : Py (Option Conversation) := do
  let row : Option ConversationRow <- perform (.selectConversation conversationId)
  match row with
  | none => pure none
  | some row =>
      match conversationOfRow? conversationId row with
      | some conv => pure (some conv)
      | none => Prog.raise .valueError

end ConversationRepository

namespace ConversationReads

def getCached (cache : Option CacheService) (conversationId : UUID) :
    Py (Option Conversation) :=
  match cache with
  | some cache => cache.getConversation conversationId
  | none => pure none

/-- `ConversationService.get`, reading through the cache if there is one. -/
def get (cache : Option CacheService) (conversationId : UUID) :
    Py (Option Conversation) := do
  let cached <- getCached cache conversationId
  match cached with
  | some conv => pure (some conv)
  | none =>
      let stored <- ConversationRepository.get conversationId
      match stored, cache with
      | some conv, some cache =>
          cache.setConversation conv
          pure (some conv)
      | stored, _ => pure stored

end ConversationReads

namespace StreamService

/-- The event goes out live even when the replay log cannot be written. -/
def publishToken (stream : StreamService) (conversationId : UUID)
    (chunkData : List (Text × Json)) : Py Unit :=
  if stream.redis then do
    let payload <-
      Prog.tryCatch
        (do
          let eventId : StreamId <- perform (.xaddEvent conversationId (.obj chunkData))
          perform (.expireEvents conversationId)
          pure (chunkData ++ [(text "event_id", Json.str eventId.toText)]))
        (fun _ => pure chunkData)
    Prog.tryCatch (perform (.publishEvent conversationId (.obj payload)))
      (fun _ => pure ())
  else pure ()

end StreamService
end ConversationService
