import ConversationService.Library.ReadCommitted
import ConversationService.Model.Entities

/-!
# Custom modes (`app/repositories/pg_repositories.py`, `app/models/sql_models.py`)

The table `custom_modes` and the calls of `CustomModeRepository` that write it, each in the
transaction of its request. One clock serves the database and the service. A mode is
archived, and never deleted.
-/

namespace ConversationService

open Python ClusteredTable Programs ReadCommitted

inductive ModeStatus where
  | active
  | archived
deriving DecidableEq, Repr

/-- `length(btrim(value)) > 0`; `btrim` removes spaces. -/
def notBlank (value : Text) : Bool :=
  value.any (fun c => c != 0x20)

/-- A row of `custom_modes` outside its primary key, with the checks of the table. -/
structure CustomMode where
  ownerUserId : UUID
  name : Text
  nameNormalized : Text
  description : Text
  instructions : Text
  executionStyle : ExecutionStyle
  status : ModeStatus
  version : Nat
  createdAt : Nat
  updatedAt : Nat
  archivedAt : Option Nat
  named : notBlank name = true
  instructed : notBlank instructions = true
  positive : 1 ≤ version
deriving DecidableEq

namespace CustomMode

def isActive (mode : CustomMode) : Bool :=
  mode.status == .active

/-- The partial unique index `uq_custom_modes_owner_active_name`. -/
def activeName (mode : CustomMode) : Option (UUID × Text) :=
  if mode.isActive then some (mode.ownerUserId, mode.nameNormalized) else none

end CustomMode

abbrev ModeRows : Type := Partition UUID CustomMode

/-- What a creation is given. -/
structure NewMode where
  name : Text
  description : Text
  instructions : Text
  executionStyle : ExecutionStyle
deriving DecidableEq

/-- The fields that an update changes. -/
structure ModeChanges where
  name : Option Text
  description : Option Text
  instructions : Option Text
  executionStyle : Option ExecutionStyle
deriving DecidableEq

inductive ModeOp where
  | lockOwner (owner : UUID)
  | countActive (owner : UUID)
  /-- `flush` of a new record -/
  | insertMode (modeId owner : UUID) (mode : NewMode)
  /-- `refresh` of a record -/
  | refreshMode (modeId : UUID)
  | selectMode (owner modeId : UUID) (includeArchived : Bool)
  | updateMode (owner modeId : UUID) (changes : ModeChanges) (expectedVersion : Option Nat)
  | archiveMode (owner modeId : UUID)

/-- The answer to a writing statement: `none` stands for an `IntegrityError`. -/
abbrev Checked (alpha : Type) : Type := Option alpha

@[reducible] def ModeOp.Res : ModeOp -> Type
  | .lockOwner _ => Unit
  | .countActive _ => Nat
  | .insertMode _ _ _ => Checked Unit
  | .refreshMode _ => Option CustomMode
  | .selectMode _ _ _ => Option CustomMode
  | .updateMode _ _ _ _ => Checked (Option CustomMode)
  | .archiveMode _ _ => Option CustomMode

abbrev modeTable : Signature where
  Op := ModeOp
  Res := ModeOp.Res

/--
What the repository rests on: `normalize_name`, the hash of `hashtextextended`, and the
setting `CUSTOM_MODE_MAX_PER_USER`.
-/
structure ModeService where
  normalizeName : Text -> Text
  hash : Text -> Int
  maxPerUser : Nat

namespace ModeOp

variable (svc : ModeService)

/-- `pg_advisory_xact_lock(hashtextextended('custom_modes:<owner>', 0))` -/
def ownerLock (owner : UUID) : Int :=
  svc.hash (text "custom_modes:" ++ owner.toText)

def isActiveOf (owner : UUID) (mode : CustomMode) : Bool :=
  mode.ownerUserId == owner && mode.isActive

/-- The modes that the limit is about. -/
def activeCount (rows : ModeRows) (owner : UUID) : Nat :=
  (Database.committed (fun _ mode => isActiveOf owner mode) rows).length

/-- The conditions of an update or an archiving on its row. -/
def selects (owner : UUID) (expectedVersion : Option Nat) (mode : CustomMode) : Bool :=
  isActiveOf owner mode && expectedVersion.all (fun version => mode.version == version)

def lock : ModeOp -> Option Int
  | .lockOwner owner => some (ownerLock svc owner)
  | _ => none

def target : ModeOp -> ModeRows -> Option UUID
  | .insertMode modeId _ _, _ => some modeId
  | .updateMode owner modeId _ expectedVersion, seen =>
      if (seen.get modeId).any (selects owner expectedVersion) then some modeId else none
  | .archiveMode owner modeId, seen =>
      if (seen.get modeId).any (selects owner none) then some modeId else none
  | _, _ => none

/-- The row of a new mode; the other columns take their defaults. -/
def inserted (now : Nat) (owner : UUID) (mode : NewMode) : Attempt CustomMode :=
  if h : notBlank mode.name = true ∧ notBlank mode.instructions = true then
    .put
      { ownerUserId := owner
        name := mode.name
        nameNormalized := svc.normalizeName mode.name
        description := mode.description
        instructions := mode.instructions
        executionStyle := mode.executionStyle
        status := .active
        version := 1
        createdAt := now
        updatedAt := now
        archivedAt := none
        named := h.left
        instructed := h.right
        positive := Nat.le_refl 1 }
  else .refuse

def updated (now : Nat) (changes : ModeChanges) (mode : CustomMode) : Attempt CustomMode :=
  if h : notBlank (changes.name.getD mode.name) = true ∧
      notBlank (changes.instructions.getD mode.instructions) = true then
    .put
      { mode with
        name := changes.name.getD mode.name
        nameNormalized := (changes.name.map svc.normalizeName).getD mode.nameNormalized
        description := changes.description.getD mode.description
        instructions := changes.instructions.getD mode.instructions
        executionStyle := changes.executionStyle.getD mode.executionStyle
        version := mode.version + 1
        updatedAt := now
        named := h.left
        instructed := h.right
        positive := Nat.le_add_left 1 mode.version }
  else .refuse

def archived (now : Nat) (mode : CustomMode) : CustomMode :=
  { mode with
    status := .archived
    version := mode.version + 1
    updatedAt := now
    archivedAt := some now
    positive := Nat.le_add_left 1 mode.version }

def attempt (now : Nat) : ModeOp -> Option CustomMode -> Attempt CustomMode
  | .insertMode _ owner mode, none => inserted svc now owner mode
  -- the primary key is taken
  | .insertMode _ _ _, some _ => .refuse
  | .updateMode owner _ changes expectedVersion, some mode =>
      if selects owner expectedVersion mode then updated svc now changes mode else .leave
  | .archiveMode owner _, some mode =>
      if selects owner none mode then .put (archived now mode) else .leave
  | _, _ => .leave

def answer : (o : ModeOp) -> ModeRows -> Outcome CustomMode -> o.Res
  | .lockOwner _, _, _ => ()
  | .countActive owner, seen, _ => activeCount seen owner
  | .insertMode _ _ _, _, .put _ => some ()
  | .insertMode _ _ _, _, _ => none
  | .refreshMode modeId, seen, _ => seen.get modeId
  | .selectMode owner modeId includeArchived, seen, _ =>
      (seen.get modeId).filter (fun mode =>
        mode.ownerUserId == owner && (includeArchived || mode.isActive))
  | .updateMode _ _ _ _, _, .put mode => some (some mode)
  | .updateMode _ _ _ _, _, .violated => none
  | .updateMode _ _ _ _, _, _ => some none
  | .archiveMode _ _, _, .put mode => some mode
  | .archiveMode _ _, _, _ => none

end ModeOp

/-- The table `custom_modes`. -/
abbrev customModes (svc : ModeService) : Table UUID CustomMode Int (UUID × Text) where
  statements := modeTable
  index := CustomMode.activeName
  lock := ModeOp.lock svc
  target := ModeOp.target
  attempt o now := o.attempt svc now
  answer := ModeOp.answer

abbrev ModeDatabase : Type := Database UUID CustomMode Int

inductive ModeExc where
  | customModeLimit (limit : Nat)
  | customModeNameTaken (name : Text)
  | customModeNotFound (modeId : Text)
  | customModeConflict (currentVersion : Nat)
  | database
deriving DecidableEq

abbrev ModeProg (alpha : Type) : Type := Prog modeTable ModeExc alpha

/-!
# Repository
-/

namespace CustomModeRepository

/-- `session.execute` -/
def execute (o : ModeOp) : ModeProg o.Res :=
  Prog.perform (S := modeTable) ModeExc.database o

def get (owner modeId : UUID) (includeArchived : Bool) : ModeProg (Option CustomMode) :=
  execute (.selectMode owner modeId includeArchived)

/-- `modeId` is what `uuid.uuid4()` gives. -/
def create (maxPerUser : Nat) (owner modeId : UUID) (mode : NewMode) :
    ModeProg (Option CustomMode) := do
  execute (.lockOwner owner)
  let active : Nat <- execute (.countActive owner)
  if maxPerUser ≤ active then Prog.raise (.customModeLimit maxPerUser)
  else do
    let flushed : Checked Unit <- execute (.insertMode modeId owner mode)
    match flushed with
    | none => Prog.raise (.customModeNameTaken mode.name)
    | some () => execute (.refreshMode modeId)

def update (owner modeId : UUID) (changes : ModeChanges) (expectedVersion : Option Nat) :
    ModeProg (Option CustomMode) := do
  let row : Checked (Option CustomMode) <-
    execute (.updateMode owner modeId changes expectedVersion)
  match row with
  | none => Prog.raise (.customModeNameTaken (changes.name.getD []))
  | some (some mode) => pure (some mode)
  | some none => do
      let current <- get owner modeId false
      match current with
      | none => Prog.raise (.customModeNotFound modeId.toText)
      | some mode => Prog.raise (.customModeConflict mode.version)

def archive (owner modeId : UUID) : ModeProg (Option CustomMode) := do
  let existing <- get owner modeId true
  match existing with
  | none => Prog.raise (.customModeNotFound modeId.toText)
  | some mode =>
      if mode.status = .archived then pure (some mode)
      else do
        let row : Option CustomMode <- execute (.archiveMode owner modeId)
        match row with
        | some mode => pure (some mode)
        | none => get owner modeId true

end CustomModeRepository

/-!
# Requests
-/

inductive ModeCall where
  | create (owner modeId : UUID) (mode : NewMode)
  | update (owner modeId : UUID) (changes : ModeChanges) (expectedVersion : Option Nat)
  | archive (owner modeId : UUID)
deriving DecidableEq

def ModeCall.program (svc : ModeService) : ModeCall -> ModeProg (Option CustomMode)
  | .create owner modeId mode =>
      CustomModeRepository.create svc.maxPerUser owner modeId mode
  | .update owner modeId changes expectedVersion =>
      CustomModeRepository.update owner modeId changes expectedVersion
  | .archive owner modeId => CustomModeRepository.archive owner modeId

/-- A request with the number of its transaction. -/
structure ModeRequest where
  xid : Nat
  call : ModeCall
deriving DecidableEq

def ModeRequest.program (svc : ModeService) (request : ModeRequest) :
    Prog (sessions modeTable) ModeExc (Option CustomMode) :=
  transaction .database request.xid (request.call.program svc)

abbrev ModeTask : Type := Task ModeRequest (sessions modeTable) ModeExc (Option CustomMode)

abbrev ModePool : Type :=
  Pool ModeRequest (sessions modeTable) ModeExc (Option CustomMode) ModeDatabase

/--
Any number of requests. Every statement may raise, every process may stop, and the server
may roll back a transaction.
-/
def modeRules (svc : ModeService) :
    Rules ModeRequest (sessions modeTable) ModeExc (Option CustomMode) ModeDatabase where
  machine := (customModes svc).machine
  program := ModeRequest.program svc
  permits pool t := forall o next, t.prog = .op o next -> (customModes svc).Ready pool.store o
  mayFail _ := True
  mayStart pool request := forall t, t ∈ pool.tasks -> t.call.xid ≠ request.xid
  mayStop _ := True
  moves := Database.Moves

end ConversationService
