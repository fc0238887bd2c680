import Mathlib.Data.Prod.Lex
import Mathlib.Data.List.Lex
import ConversationService.Library.ClusteredTable
import ConversationService.Library.Pools
import ConversationService.Python.Uuid

/-!
# Source edit repository (`app/repositories/source_edit_repository.py`)

The table `source_edits`, one edit for each block of a message, and the statements of
`save` and `delete`. Every statement is atomic.
-/

namespace ConversationService

open Python ClusteredTable Programs

inductive SourceFormat where
  | code
  | text
  | markdown
deriving DecidableEq, Repr

/-- The columns that the repository reads; the table checks that versions are positive. -/
structure SourceEditRow where
  messageId : UUID
  blockId : Text
  language : Text
  sourceFormat : SourceFormat
  originalSha256 : Text
  content : Text
  version : Int
  createdAt : Nat
  updatedAt : Nat
  positive : 1 ≤ version

instance : DecidableEq SourceEditRow := fun a b =>
  decidable_of_iff
    (a.messageId = b.messageId ∧ a.blockId = b.blockId ∧ a.language = b.language ∧
      a.sourceFormat = b.sourceFormat ∧ a.originalSha256 = b.originalSha256 ∧
      a.content = b.content ∧ a.version = b.version ∧ a.createdAt = b.createdAt ∧
      a.updatedAt = b.updatedAt)
    (by
      cases a
      cases b
      simp)

/-- A row of the table with its primary key. -/
structure SourceEditRecord where
  id : UUID
  row : SourceEditRow
deriving DecidableEq

/-- What identifies an edit for its owner. -/
structure BlockKey where
  owner : UUID
  conversationId : UUID
  messageId : UUID
  blockId : Text
deriving DecidableEq

/--
`now` is the clock of the database. `past` lists the edits that statements have stored,
which are those that a client may have seen; no statement reads it.
-/
structure EditStore where
  now : Nat
  edits : UUID × UUID -> Partition (UUID ×ₗ Text) SourceEditRecord
  past : List (BlockKey × SourceEditRecord)

namespace EditStore

def blank : EditStore := ⟨0, fun _ => .empty, []⟩

def get (s : EditStore) (key : BlockKey) : Option SourceEditRecord :=
  (s.edits (key.owner, key.conversationId)).get (toLex (key.messageId, key.blockId))

/-- The number of edits in a conversation. -/
def count (s : EditStore) (owner conversationId : UUID) : Nat :=
  (s.edits (owner, conversationId)).rows.length

def put (s : EditStore) (key : BlockKey) (record : SourceEditRecord) : EditStore :=
  { s with
    edits := Function.update s.edits (key.owner, key.conversationId)
      ((s.edits (key.owner, key.conversationId)).upsert
        (toLex (key.messageId, key.blockId)) (fun _ => record))
    past := (key, record) :: s.past }

def remove (s : EditStore) (key : BlockKey) : EditStore :=
  { s with
    edits := Function.update s.edits (key.owner, key.conversationId)
      ((s.edits (key.owner, key.conversationId)).erase
        (toLex (key.messageId, key.blockId))) }

theorem lex_injective {key key' : BlockKey}
    (hplace : (key.owner, key.conversationId) = (key'.owner, key'.conversationId))
    (hblock : toLex (key.messageId, key.blockId) = toLex (key'.messageId, key'.blockId)) :
    key = key' := by
  cases key
  cases key'
  simp_all

@[simp] theorem get_put_self (s : EditStore) (key : BlockKey) (record : SourceEditRecord) :
    (s.put key record).get key = some record := by
  unfold get put
  simp

theorem get_put_ne (s : EditStore) {key key' : BlockKey} (record : SourceEditRecord)
    (h : key' ≠ key) : (s.put key record).get key' = s.get key' := by
  unfold get put
  by_cases hplace : (key'.owner, key'.conversationId) = (key.owner, key.conversationId)
  · have hblock : toLex (key'.messageId, key'.blockId) ≠
        toLex (key.messageId, key.blockId) :=
      fun heq => h (lex_injective hplace heq)
    rw [hplace]
    dsimp only
    rw [Function.update_self]
    exact Partition.get_upsert_ne _ _ hblock
  · dsimp only
    rw [Function.update_of_ne hplace]

@[simp] theorem get_remove_self (s : EditStore) (key : BlockKey) :
    (s.remove key).get key = none := by
  unfold get remove
  simp [Partition.get_erase]

theorem get_remove_ne (s : EditStore) {key key' : BlockKey} (h : key' ≠ key) :
    (s.remove key).get key' = s.get key' := by
  unfold get remove
  by_cases hplace : (key'.owner, key'.conversationId) = (key.owner, key.conversationId)
  · have hblock : toLex (key'.messageId, key'.blockId) ≠
        toLex (key.messageId, key.blockId) :=
      fun heq => h (lex_injective hplace heq)
    rw [hplace]
    dsimp only
    rw [Function.update_self, Partition.get_erase, if_neg hblock]
  · dsimp only
    rw [Function.update_of_ne hplace]

end EditStore

/-- What a save submits besides its block and its version. -/
structure EditSubmission where
  id : UUID
  content : Text
  language : Text
  sourceFormat : SourceFormat
  originalSha256 : Text
  maxPerConversation : Nat
deriving DecidableEq

inductive EditOp where
  | insertEdit (key : BlockKey) (submission : EditSubmission)
  | updateEdit (key : BlockKey) (content : Text) (expected : Int)
  | deleteEdit (key : BlockKey) (expected : Int)
  | selectEdit (key : BlockKey)

@[reducible] def EditOp.Res : EditOp -> Type
  | .insertEdit _ _ => Option SourceEditRow
  | .updateEdit _ _ _ => Option SourceEditRow
  | .deleteEdit _ _ => Bool
  | .selectEdit _ => Option SourceEditRow

abbrev editTable : Signature where
  Op := EditOp
  Res := EditOp.Res

namespace EditStore

theorem firstVersion_positive : (1 : Int) ≤ 1 := Int.le_refl 1

/-- The record that an `INSERT` makes, with version 1. -/
def inserted (s : EditStore) (key : BlockKey) (submission : EditSubmission) :
    SourceEditRecord :=
  { id := submission.id
    row :=
      { messageId := key.messageId
        blockId := key.blockId
        language := submission.language
        sourceFormat := submission.sourceFormat
        originalSha256 := submission.originalSha256
        content := submission.content
        version := 1
        createdAt := s.now
        updatedAt := s.now
        positive := firstVersion_positive } }

def updated (s : EditStore) (record : SourceEditRecord) (content : Text) :
    SourceEditRecord :=
  { record with
    row :=
      { record.row with
        content := content
        version := record.row.version + 1
        updatedAt := s.now
        positive := by have := record.row.positive; omega } }

end EditStore

def EditOp.exec : (o : EditOp) -> EditStore -> o.Res × EditStore
  | .insertEdit key submission, s =>
      if s.count key.owner key.conversationId < submission.maxPerConversation then
        match s.get key with
        -- ON CONFLICT DO NOTHING
        | some _ => (none, s)
        | none =>
            (some (s.inserted key submission).row, s.put key (s.inserted key submission))
      else (none, s)
  | .updateEdit key content expected, s =>
      match s.get key with
      | some record =>
          if record.row.version = expected ∧ record.row.content ≠ content then
            (some (s.updated record content).row, s.put key (s.updated record content))
          else (none, s)
      | none => (none, s)
  | .deleteEdit key expected, s =>
      match s.get key with
      | some record =>
          if record.row.version = expected then (true, s.remove key) else (false, s)
      | none => (false, s)
  | .selectEdit key, s => ((s.get key).map SourceEditRecord.row, s)

def editMachine : Machine editTable EditStore where
  exec := EditOp.exec

inductive EditExc where
  | sourceEditConflict (current : Option SourceEditRow)
  | sourceEditLimitReached
  | database
deriving DecidableEq

/-- What the two methods return. -/
inductive EditAnswer where
  | saved (edit : SourceEditRow) (written : Bool)
  | deleted (removed : Bool)
deriving DecidableEq

abbrev EditProg : Type -> Type :=
  Prog editTable EditExc

namespace SourceEditRepository

/-- `session.execute` -/
def execute (o : EditOp) : EditProg o.Res :=
  Prog.perform (S := editTable) EditExc.database o

def get (key : BlockKey) : EditProg (Option SourceEditRow) :=
  execute (.selectEdit key)

/-- The conditional write of a save; version 0 stands for "no edit yet". -/
def write (key : BlockKey) (submission : EditSubmission) (expectedVersion : Int) :
    EditProg (Option SourceEditRow) :=
  if expectedVersion = 0 then execute (.insertEdit key submission)
  else execute (.updateEdit key submission.content expectedVersion)

/-- What a save answers when it has written nothing. -/
def unwritten (submission : EditSubmission) (expectedVersion : Int)
    (current : Option SourceEditRow) : EditProg EditAnswer :=
  match current with
  | none =>
      if expectedVersion = 0 then Prog.raise .sourceEditLimitReached
      else Prog.raise (.sourceEditConflict none)
  | some row =>
      if row.content = submission.content then pure (.saved row false)
      else Prog.raise (.sourceEditConflict (some row))

def save (key : BlockKey) (submission : EditSubmission) (expectedVersion : Int) :
    EditProg EditAnswer := do
  let row <- write key submission expectedVersion
  match row with
  | some row => pure (.saved row true)
  | none => do
      let current <- get key
      unwritten submission expectedVersion current

/-- What a deletion answers when it has removed nothing. -/
def undeleted (current : Option SourceEditRow) : EditProg EditAnswer :=
  match current with
  | none => pure (.deleted false)
  | some row => Prog.raise (.sourceEditConflict (some row))

def delete (key : BlockKey) (expectedVersion : Int) : EditProg EditAnswer := do
  let removed <- execute (.deleteEdit key expectedVersion)
  if removed then pure (.deleted true)
  else do
    let current <- get key
    undeleted current

end SourceEditRepository

/-- `none` stands for a deletion. -/
structure EditCall where
  key : BlockKey
  submission : Option EditSubmission
  /-- the edit that the client last saw -/
  seen : Option SourceEditRow
  expectedVersion : Int
deriving DecidableEq

def EditCall.program (call : EditCall) : EditProg EditAnswer :=
  match call.submission with
  | some submission => SourceEditRepository.save call.key submission call.expectedVersion
  | none => SourceEditRepository.delete call.key call.expectedVersion

abbrev EditTask : Type := Task EditCall editTable EditExc EditAnswer

abbrev EditPool : Type := Pool EditCall editTable EditExc EditAnswer EditStore

/-- The client sends the version of the edit that it saw, or 0 if it saw none. -/
def EditCall.SendsWhatItSaw (call : EditCall) (s : EditStore) : Prop :=
  match call.seen with
  | none => call.expectedVersion = 0
  | some row => call.expectedVersion = row.version ∧
      exists record, (call.key, record) ∈ s.past ∧ record.row = row

/-- `uuid.uuid4()` has not been drawn before. -/
def EditCall.DrawsFreshId (call : EditCall) (pool : EditPool) : Prop :=
  forall submission, call.submission = some submission ->
    (forall entry, entry ∈ pool.store.past -> entry.2.id ≠ submission.id) ∧
    forall t other, t ∈ pool.tasks -> t.call.submission = some other ->
      other.id ≠ submission.id

/-- Any number of clients; every statement may raise, and every process may stop. -/
def editRules (permits : EditPool -> EditTask -> Prop) :
    Rules EditCall editTable EditExc EditAnswer EditStore where
  machine := editMachine
  program := EditCall.program
  permits := permits
  mayFail _ := True
  mayStart pool call := call.SendsWhatItSaw pool.store ∧ call.DrawsFreshId pool
  mayStop _ := True
  moves s t := t.edits = s.edits ∧ t.past = s.past ∧ s.now ≤ t.now

end ConversationService
