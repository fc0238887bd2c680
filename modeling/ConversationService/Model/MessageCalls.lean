import ConversationService.Model.System

/-!
# Calls of the message service

The operations of one `MessageService` on messages, without the consumers around them.
-/

namespace ConversationService

open Python Programs

inductive MessageCall where
  | send (reads : Readings) (args : SendArgs)
  | regenerate (reads : Readings) (conversationId messageId : UUID) (userId : Option UUID)
  | finalizeAssistantMessage (now : Datetime) (conversationId messageId : UUID)
      (content citations : Json)
  | failAssistantMessage (now : Datetime) (conversationId messageId : UUID)
      (errorMessage : Json)
  | delete (conversationId messageId : UUID)
  | attachSummary (now : Datetime) (conversationId summaryMessageId : UUID)
      (summary : Text)
  | history (conversationId : UUID) (limit : Nat) (cursor : Option UUID)

def MessageCall.program (svc : MessageService) : MessageCall -> Py Unit
  | .send reads args => ignoreResult (svc.send reads args)
  | .regenerate reads c m userId => ignoreResult (svc.regenerate reads c m userId)
  | .finalizeAssistantMessage now c m content citations =>
      ignoreResult (svc.finalizeAssistantMessage now c m content citations)
  | .failAssistantMessage now c m errorMessage =>
      ignoreResult (svc.failAssistantMessage now c m errorMessage)
  | .delete c m => ignoreResult (svc.delete c m)
  | .attachSummary now c m summary => ignoreResult (svc.attachSummary now c m summary)
  | .history c limit cursor => ignoreResult (svc.history c limit cursor)

/-- The conversation that a call is about. -/
def MessageCall.conversationId : MessageCall -> UUID
  | .send _ args => args.conversationId
  | .regenerate _ c _ _ => c
  | .finalizeAssistantMessage _ c _ _ _ => c
  | .failAssistantMessage _ c _ _ => c
  | .delete c _ => c
  | .attachSummary _ c _ _ => c
  | .history c _ _ => c

end ConversationService
