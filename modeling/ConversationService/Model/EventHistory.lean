import ConversationService.Model.MessageService

/-!
# Event history (`MessageService._format_history`)

The entries that a request event takes from the messages before it, for messages whose
columns hold any text. The messages of the services are among them.
-/

namespace ConversationService

open Python

/-- What `_format_history` reads of a message; `None` is a null column. -/
structure StoredTurn where
  messageId : UUID
  sender : Option Text
  content : Option Text
  status : Text
deriving DecidableEq, Repr

/-- `{"role": ..., "content": ..., "message_id": ...}` -/
structure HistoryTurn where
  role : Option Text
  content : Text
  messageId : Text
deriving DecidableEq, Repr

namespace EventHistory

/-- `(m.content or "").strip()` -/
def strippedContent (m : StoredTurn) : Text :=
  strip (m.content.getD [])

/-- The loop of `_format_history`; `picked` is newest first. -/
def formatFrom : List HistoryTurn -> Int -> List StoredTurn -> List HistoryTurn
  | picked, _, [] => picked
  | picked, budget, m :: rest =>
      if ¬(m.sender = some (text "user") ∨ m.sender = some (text "assistant")) then
        formatFrom picked budget rest
      else if m.status ≠ text "sent" ∨ strippedContent m = [] then
        formatFrom picked budget rest
      else
        let cut := (strippedContent m).take historyEventMaxMessageChars
        if budget - cut.length < 0 ∧ picked ≠ [] then picked
        else
          let picked := picked ++ [⟨m.sender, cut, m.messageId.toText⟩]
          if historyEventMaxMessages ≤ picked.length then picked
          else formatFrom picked (budget - cut.length) rest

/-- `_format_history(messages_newest_first)` -/
def formatHistory (messagesNewestFirst : List StoredTurn) : List HistoryTurn :=
  (formatFrom [] historyEventMaxChars messagesNewestFirst).reverse

/-!
# Messages of the services
-/

/-- The text in the `sender` column. -/
def senderText : Sender -> Text
  | .user => text "user"
  | .assistant => text "assistant"
  | .system => text "system"

/-- The text in the `status` column. -/
def statusText : MessageStatus -> Text
  | .pending => text "pending"
  | .sent => text "sent"
  | .failed => text "failed"

def turnOf (m : Message) : StoredTurn :=
  { messageId := m.messageId
    sender := m.sender.map senderText
    content := m.content
    status := statusText m.status }

/-- An entry of the payload, which is one of the conversation's own messages here. -/
def entryTurn : HistoryEntry -> HistoryTurn
  | .own role content messageId => ⟨role.map senderText, content, messageId.toText⟩
  | .inherited role content sourceId => ⟨role.map senderText, content, sourceId.toText⟩

end EventHistory
end ConversationService
