import ConversationService.Library.Pools
import ConversationService.Python.Uuid

/-!
# Notes repository (`app/repositories/notes_repository.py`)

The table `conversation_notes`, one document for each owner and conversation, and the two
statements that a save consists of. Every statement is atomic.
-/

namespace ConversationService

open Python Programs

/-- A stored document; the table checks that its version is positive. -/
structure NotesRow where
  content : Text
  version : Int
  updatedAt : Nat
  positive : 1 ≤ version
deriving DecidableEq

/-- `now` is the clock of the database. -/
structure NotesStore where
  now : Nat
  notes : UUID × UUID -> Option NotesRow

inductive NotesOp where
  | insertNotes (key : UUID × UUID) (content : Text)
  | updateNotes (key : UUID × UUID) (content : Text) (expected : Int)
  | selectNotes (key : UUID × UUID)

@[reducible] def NotesOp.Res : NotesOp -> Type
  | .insertNotes _ _ => Option NotesRow
  | .updateNotes _ _ _ => Option NotesRow
  | .selectNotes _ => Option NotesRow

def notesTable : Signature where
  Op := NotesOp
  Res := NotesOp.Res

namespace NotesStore

def put (s : NotesStore) (key : UUID × UUID) (row : NotesRow) : NotesStore :=
  { s with notes := Function.update s.notes key (some row) }

/-- The row that an `INSERT` makes, with version 1. -/
def inserted (s : NotesStore) (content : Text) : NotesRow :=
  { content := content
    version := 1
    updatedAt := s.now
    positive := Int.le_refl 1 }

def updated (s : NotesStore) (row : NotesRow) (content : Text) : NotesRow :=
  { content := content
    version := row.version + 1
    updatedAt := s.now
    positive := by have := row.positive; omega }

end NotesStore

def NotesOp.exec : (o : NotesOp) -> NotesStore -> o.Res × NotesStore
  | .insertNotes key content, s =>
      match s.notes key with
      -- ON CONFLICT DO NOTHING
      | some _ => (none, s)
      | none => (some (s.inserted content), s.put key (s.inserted content))
  | .updateNotes key content expected, s =>
      match s.notes key with
      | some row =>
          if row.version = expected ∧ row.content ≠ content then
            (some (s.updated row content), s.put key (s.updated row content))
          else (none, s)
      | none => (none, s)
  | .selectNotes key, s => (s.notes key, s)

def notesMachine : Machine notesTable NotesStore where
  exec := NotesOp.exec

/-- What a save may raise: the conflict, with the stored document, or a database error. -/
inductive NotesExc where
  | versionConflict (current : Option NotesRow)
  | database
deriving DecidableEq

abbrev NotesProg : Type -> Type :=
  Prog notesTable NotesExc

namespace NotesRepository

/-- `session.execute` -/
def execute (o : NotesOp) : NotesProg o.Res :=
  Prog.perform (S := notesTable) NotesExc.database o

def get (key : UUID × UUID) : NotesProg (Option NotesRow) :=
  execute (.selectNotes key)

/-- The conditional write of a save; version 0 stands for "no document yet". -/
def write (key : UUID × UUID) (content : Text) (expectedVersion : Int) :
    NotesProg (Option NotesRow) :=
  if expectedVersion = 0 then execute (.insertNotes key content)
  else execute (.updateNotes key content expectedVersion)

/-- What a save answers when it has written nothing. -/
def unwritten (content : Text) (current : Option NotesRow) :
    NotesProg (NotesRow × Bool) :=
  match current with
  | some row =>
      if row.content = content then pure (row, false)
      else Prog.raise (.versionConflict (some row))
  | none => Prog.raise (.versionConflict none)

/-- The key is the owner and the conversation. -/
def save (key : UUID × UUID) (content : Text) (expectedVersion : Int) :
    NotesProg (NotesRow × Bool) := do
  let row <- write key content expectedVersion
  match row with
  | some row => pure (row, true)
  | none => do
      let current <- get key
      unwritten content current

end NotesRepository

/-- The arguments of a save. -/
structure NotesSave where
  key : UUID × UUID
  content : Text
  expectedVersion : Int
deriving DecidableEq

def NotesSave.program (call : NotesSave) : NotesProg (NotesRow × Bool) :=
  NotesRepository.save call.key call.content call.expectedVersion

abbrev NotesTask : Type := Task NotesSave notesTable NotesExc (NotesRow × Bool)

abbrev NotesPool : Type := Pool NotesSave notesTable NotesExc (NotesRow × Bool) NotesStore

/-- Any number of saves; every statement may raise, and every process may stop. -/
def notesRules : Rules NotesSave notesTable NotesExc (NotesRow × Bool) NotesStore where
  machine := notesMachine
  program := NotesSave.program
  permits _ _ := True
  mayFail _ := True
  mayStart _ _ := True
  mayStop _ := True
  moves s t := t.notes = s.notes ∧ s.now ≤ t.now

end ConversationService
