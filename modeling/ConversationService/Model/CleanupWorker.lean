import ConversationService.Model.ConsumerLoop

/-!
# Cleanup worker (`app/workers/cleanup_worker.py`)

The consumer of `conversation.deleted` events, which purges what a soft deletion has
left of a conversation.
-/

namespace ConversationService

open Python Programs

namespace CleanupWorker

/-- The caches first, then the messages, then the rows of the conversation. -/
def purge (cache : CacheService) (conversationId : UUID) : Py Unit := do
  cache.deleteConversation conversationId
  cache.deleteLast50Messages conversationId
  let _ <- MessageRepository.deleteAllForConversation conversationId
  let _ <- ConversationRepository.hardDelete conversationId
  pure ()

/-- The body of the loop up to its exception handler. -/
def handleDeleted (cache : CacheService) (record : Record) : Py Unit :=
  match record.value with
  | none => .raise .valueError
  | some (.obj event) => do
      let conversationIdStr <-
        SummaryWorker.payloadGet (Json.getD event (text "payload") (.obj []))
          (text "conversation_id")
      if conversationIdStr.truthy then do
        let conversationId <- Consumers.uuidOfJson conversationIdStr
        purge cache conversationId
      else pure ()
  | some _ => .raise .attributeError

/-- The body of `start_cleanup_worker`; a record that raises is skipped, too. -/
def processRecord (cache : CacheService) (record : Record) : Py Unit :=
  Prog.tryCatch (handleDeleted cache record) (fun _ => pure ())

end CleanupWorker
end ConversationService
