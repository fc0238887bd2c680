import ConversationService.Model.MessageService

/-!
# Pending timeout worker (`app/workers/pending_timeout_worker.py`)
-/

namespace ConversationService

open Python Programs

namespace PendingTimeoutWorker

/-- `TIMEOUT_MESSAGE` -/
def timeoutMessage : Text :=
  text "Generation timed out: no response from the AI service."

def failedPayload (conversationId messageId : UUID) : List (Text × Json) :=
  [ (text "conversation_id", .str conversationId.toText),
    (text "message_id", .str messageId.toText),
    (text "sender", .str (text "assistant")),
    (text "content", .str timeoutMessage),
    (text "is_final", .bool true),
    (text "status", .str (text "failed")) ]

/-- `existing.sender == "assistant" and existing.status == "sent"` -/
def isSentReply (m : Message) : Bool :=
  m.sender == some .assistant && m.status == .sent

/-- One entry of the scan; the answer says whether it was failed. -/
def processEntry (cache : CacheService) (stream : StreamService) (now : Datetime)
    (messageId : UUID) : Py Bool := do
  let marker : Option UUID <- perform (.getPending messageId)
  match marker with
  | none => do
      -- an absent key is taken for an answered response
      perform (.zremPending messageId)
      pure false
  | some conversationId => do
      let existing <- MessageRepository.getMessage conversationId messageId
      if existing.any isSentReply then do
        perform (.deletePending messageId)
        perform (.zremPending messageId)
        pure false
      else do
        let _ <-
          MessageRepository.createMessageDirect now conversationId messageId
            .assistant (.str timeoutMessage) .failed .null
        cache.deleteLast50Messages conversationId
        stream.publishToken conversationId (failedPayload conversationId messageId)
        perform (.deletePending messageId)
        perform (.zremPending messageId)
        pure true

/-- The loop over the expired ids; an entry that raises is skipped. -/
def processEntries (cache : CacheService) (stream : StreamService)
    (now : UUID -> Datetime) : Nat -> List UUID -> Py Nat
  | failed, [] => .ret failed
  | failed, messageId :: rest => do
      let done <-
        Prog.tryCatch (processEntry cache stream (now messageId) messageId)
          (fun _ => pure false)
      processEntries cache stream now (if done then failed + 1 else failed) rest

/--
One scan pass; `now` is the clock at each write of a row. A scan that raises
ends the pass.
-/
def processExpiredPending (cache : CacheService) (stream : StreamService)
    (now : UUID -> Datetime) (nowTs : Nat) : Py Nat := do
  let expiredIds : List UUID <-
    Prog.tryCatch (perform (.zrangePending nowTs)) (fun _ => pure [])
  processEntries cache stream now 0 expiredIds

end PendingTimeoutWorker
end ConversationService
