import Mathlib.Data.Prod.Lex
import ConversationService.Library.ReadCommitted
import ConversationService.Model.SourceEditRepository

/-!
# Source edits under concurrent transactions (`app/db/session.py`)

The calls of the source edit repository, each in the transaction of its request. The
`INSERT` of a save counts the edits of the conversation on its snapshot and then meets the
row of its block as it is; `UPDATE` and `DELETE` look at their row again once no other
transaction writes it.
-/

namespace ConversationService

open Python ClusteredTable Programs ReadCommitted

/-- The owner and the conversation, then the message and the block. -/
abbrev EditPlace : Type := (UUID ×ₗ UUID) ×ₗ (UUID ×ₗ Text)

def BlockKey.place (key : BlockKey) : EditPlace :=
  toLex (toLex (key.owner, key.conversationId), toLex (key.messageId, key.blockId))

/-- The place belongs to this conversation of this owner. -/
def EditPlace.isIn (place : EditPlace) (owner conversationId : UUID) : Bool :=
  (ofLex place).1 == toLex (owner, conversationId)

abbrev EditRows : Type := Partition EditPlace SourceEditRecord

/-- `SELECT count(*) FROM source_edits WHERE owner_id = :o AND conversation_id = :c` -/
def editCount (rows : EditRows) (owner conversationId : UUID) : Nat :=
  (Database.committed (fun place _ => place.isIn owner conversationId) rows).length

namespace EditOp

/-- The conditions of an `UPDATE` or a `DELETE` on its row. -/
def selects : EditOp -> SourceEditRecord -> Bool
  | .updateEdit _ content expected, record =>
      record.row.version == expected && record.row.content != content
  | .deleteEdit _ expected, record => record.row.version == expected
  | _, _ => false

def target : EditOp -> EditRows -> Option EditPlace
  | .insertEdit key submission, seen =>
      if editCount seen key.owner key.conversationId < submission.maxPerConversation then
        some key.place
      else none
  | .selectEdit _, _ => none
  | .updateEdit key content expected, seen =>
      if (seen.get key.place).any (selects (.updateEdit key content expected)) then
        some key.place
      else none
  | .deleteEdit key expected, seen =>
      if (seen.get key.place).any (selects (.deleteEdit key expected)) then some key.place
      else none

def attempt (now : Nat) : EditOp -> Option SourceEditRecord -> Attempt SourceEditRecord
  -- ON CONFLICT DO NOTHING
  | .insertEdit _ _, some _ => .leave
  | .insertEdit key submission, none =>
      .put (EditStore.inserted { EditStore.blank with now := now } key submission)
  | .updateEdit key content expected, some record =>
      if selects (.updateEdit key content expected) record then
        .put (EditStore.updated { EditStore.blank with now := now } record content)
      else .leave
  | .deleteEdit key expected, some record =>
      if selects (.deleteEdit key expected) record then .remove else .leave
  | _, _ => .leave

def answer : (o : EditOp) -> EditRows -> Outcome SourceEditRecord -> o.Res
  | .insertEdit _ _, _, .put record => some record.row
  | .insertEdit _ _, _, _ => none
  | .updateEdit _ _ _, _, .put record => some record.row
  | .updateEdit _ _ _, _, _ => none
  | .deleteEdit _ _, _, .removed => true
  | .deleteEdit _ _, _, _ => false
  | .selectEdit key, seen, _ => (seen.get key.place).map SourceEditRecord.row

end EditOp

/-- The table `source_edits`, whose unique constraint is the key of its rows. -/
abbrev sourceEdits : Table EditPlace SourceEditRecord Empty Empty where
  statements := editTable
  index _ := none
  lock _ := none
  target := EditOp.target
  attempt o now := o.attempt now
  answer := EditOp.answer

abbrev EditDatabase : Type := Database EditPlace SourceEditRecord Empty

/-- A request with the number of its transaction. -/
structure EditRequest where
  xid : Nat
  call : EditCall
deriving DecidableEq

def EditRequest.program (request : EditRequest) : Prog (sessions editTable) EditExc EditAnswer :=
  transaction .database request.xid request.call.program

abbrev EditRequestTask : Type := Task EditRequest (sessions editTable) EditExc EditAnswer

abbrev EditRequestPool : Type :=
  Pool EditRequest (sessions editTable) EditExc EditAnswer EditDatabase

/--
Any number of requests. Every statement may raise, every process may stop, and the server
may roll back a transaction. `cap` is the setting `SOURCE_EDIT_MAX_PER_CONVERSATION`.
-/
def editRequestRules (cap : Nat) (permits : EditRequestPool -> EditRequestTask -> Prop) :
    Rules EditRequest (sessions editTable) EditExc EditAnswer EditDatabase where
  machine := sourceEdits.machine
  program := EditRequest.program
  permits pool t := permits pool t ∧
    forall o next, t.prog = .op o next -> sourceEdits.Ready pool.store o
  mayFail _ := True
  mayStart pool request :=
    (forall t, t ∈ pool.tasks -> t.call.xid ≠ request.xid) ∧
    forall submission, request.call.submission = some submission ->
      submission.maxPerConversation = cap
  mayStop _ := True
  moves := Database.Moves

end ConversationService
