import Mathlib.Logic.Function.Basic
import Mathlib.Data.Prod.Lex
import ConversationService.Library.Programs
import ConversationService.Library.ClusteredTable
import ConversationService.Model.Citations

/-!
# Storage

The state of Cassandra, Redis and PostgreSQL as far as the message code uses it,
and the single statements and commands that the repositories and services send.
Each of them is atomic; a LOGGED BATCH is one of them.
-/

namespace ConversationService

open Python ClusteredTable Programs

/-- The text stored in the `status` column of a message row. -/
inductive RowStatus where
  | pending
  | sent
  | failed
  | deleted
deriving DecidableEq, Repr

/-- The `status` column written for a message status. -/
def MessageStatus.column : MessageStatus -> RowStatus
  | .pending => .pending
  | .sent => .sent
  | .failed => .failed

/-- `MessageStatus(row.status)`, with `none` where it raises `ValueError`. -/
def RowStatus.message? : RowStatus -> Option MessageStatus
  | .pending => some .pending
  | .sent => some .sent
  | .failed => some .failed
  | .deleted => none

/--
A row of `messages_by_conversation`. A row that was first written by the soft
delete has a status and nothing else.
-/
structure Row where
  sender : Option Sender
  content : Option Text
  createdAt : Option Datetime
  status : RowStatus
  fileIds : List UUID
  citations : Option Json

structure OutboxRow where
  eventType : Text
  payload : ChatMessageCreated
  published : Bool
  createdAt : Datetime
deriving DecidableEq, Repr

/-- A row of `conversations`, any column of which may be null. -/
structure ConversationRow where
  userId : Option UUID
  title : Option Text
  createdAt : Option Datetime
  updatedAt : Option Datetime
  status : Option ConversationStatus
  parentConversationId : Option UUID
  branchMessageId : Option UUID
deriving DecidableEq, Repr

/-- The columns of `conversations_by_user` outside its key. -/
structure CatalogRow where
  title : Option Text
  createdAt : Option Datetime
  status : ConversationStatus
  parentConversationId : Option UUID
deriving DecidableEq, Repr

/-- `updated_at DESC, conversation_id ASC` -/
abbrev CatalogKey : Type := Int ×ₗ UUIDᵒᵈ

/-- The outbox row of a conversation event. -/
structure ConversationOutboxRow where
  eventType : Text
  payload : ConversationEvent
  published : Bool
  createdAt : Datetime
deriving DecidableEq, Repr

/-- What `create_message` saves of its response. -/
structure SavedResponse where
  messageId : UUID
  conversationId : UUID
  sender : Option Sender
  content : Option Text
  createdAt : Option Datetime
  status : MessageStatus
  fileIds : List UUID
  responseMessageId : Option UUID
deriving DecidableEq, Repr

/-- The value of an `idempotency:<key>` key. -/
inductive IdempotencyValue where
  | processing
  | saved (response : SavedResponse)
deriving DecidableEq, Repr

/-- The value and the expiry time of a `pending_response:<id>` key. -/
structure Marker where
  conversationId : UUID
  expiresAt : Nat
deriving DecidableEq, Repr

/-- The key of an inbox record: the id of an envelope, or a name given to `uuid5`. -/
inductive InboxKey where
  | envelope (eventId : UUID)
  | derived (name : Text)
deriving DecidableEq, Repr

/-- The id `<ms>-<seq>` that a Redis stream gives to an entry. -/
structure StreamId where
  ms : Nat
  seq : Nat
deriving DecidableEq, Repr

/-- The id of a new entry, above the last one also when the clock has gone back. -/
def StreamId.next (clockMs : Nat) (last : Option StreamId) : StreamId :=
  match last with
  | some id => if id.ms < clockMs then ⟨clockMs, 0⟩ else ⟨id.ms, id.seq + 1⟩
  | none => ⟨clockMs, 0⟩

def StreamId.toText (id : StreamId) : Text :=
  intText id.ms ++ text "-" ++ intText id.seq

/-- A stored preferences document as `UserPreferences.from_row` reads it. -/
structure PreferencesRow where
  document : UserPreferences
  version : Nat
deriving DecidableEq, Repr

structure Store where
  /-- `messages_by_conversation` -/
  messages : UUID -> Partition UUID Row
  /-- `transactional_outbox`, by bucket and event id -/
  outbox : Nat -> UUID -> Option OutboxRow
  /-- `inbox_events` -/
  inbox : InboxKey -> Bool
  /-- `conversations` -/
  conversations : UUID -> Option ConversationRow
  /-- `conversations_by_user` -/
  catalog : UUID -> Partition CatalogKey CatalogRow
  /-- the conversation events in `transactional_outbox` -/
  conversationEvents : Nat -> UUID -> Option ConversationOutboxRow
  /-- the keys `pending_response:<id>` -/
  markers : UUID -> Option Marker
  /-- `pending_response:zset`, by score and member -/
  pendingSet : List (UUID × Nat)
  /-- the lists `conversation:<id>:last50` -/
  historyCache : UUID -> Option (List Message)
  /-- the hashes `conversation:<id>` -/
  conversationCache : UUID -> Option Conversation
  /-- the keys `idempotency:<key>` -/
  idempotency : Text -> Option IdempotencyValue
  /-- the replay logs `conversation:<id>:events` -/
  eventLog : UUID -> List (StreamId × Json)
  /-- what was published on `conversation:<id>:stream` -/
  published : UUID -> List Json
  /-- `user_preferences` -/
  preferences : UUID -> Option PreferencesRow
  /-- `custom_modes`, by owner and mode id -/
  customModes : UUID -> UUID -> Option CustomModeRecord
  /-- the clock of the Redis server, in microseconds -/
  clock : Nat

/-- One second of the clock. -/
def second : Nat := 1000000

/-!
# Single-row effects
-/

/-- A `timestamp` column keeps milliseconds and is read back without a time zone. -/
def Datetime.stored (d : Datetime) : Datetime :=
  { micros := d.micros / 1000 * 1000, aware := false }

/-- `INSERT` of the columns of a message written without files. -/
def Row.inserted (sender : Sender) (content : Text) (createdAt : Datetime)
    (status : MessageStatus) (citations : Option Json) (old : Option Row) : Row :=
  { sender := some sender
    content := some content
    createdAt := some createdAt.stored
    status := status.column
    fileIds := (old.map Row.fileIds).getD []
    citations := citations.or (old.bind Row.citations) }

/-- `INSERT` of the columns of a message written together with an outbox row. -/
def Row.staged (sender : Sender) (content : Text) (createdAt : Datetime)
    (status : MessageStatus) (fileIds : List UUID) (old : Option Row) : Row :=
  { sender := some sender
    content := some content
    createdAt := some createdAt.stored
    status := status.column
    fileIds := fileIds
    citations := old.bind Row.citations }

/-- `UPDATE ... SET status = 'deleted'` -/
def Row.softDeleted (old : Option Row) : Row :=
  match old with
  | some row => { row with status := .deleted }
  | none =>
      { sender := none, content := none, createdAt := none,
        status := .deleted, fileIds := [], citations := none }

/-- `UPDATE conversations SET title = ?, updated_at = ?, status = ?` -/
def ConversationRow.updated (title : Option Text) (updatedAt : Datetime)
    (status : ConversationStatus) (old : Option ConversationRow) : ConversationRow :=
  { userId := old.bind ConversationRow.userId
    title := title
    createdAt := old.bind ConversationRow.createdAt
    updatedAt := some updatedAt.stored
    status := some status
    parentConversationId := old.bind ConversationRow.parentConversationId
    branchMessageId := old.bind ConversationRow.branchMessageId }

/-- `UPDATE conversations SET title = ?, updated_at = ?` -/
def ConversationRow.retitled (title : Option Text) (updatedAt : Datetime)
    (old : Option ConversationRow) : ConversationRow :=
  { userId := old.bind ConversationRow.userId
    title := title
    createdAt := old.bind ConversationRow.createdAt
    updatedAt := some updatedAt.stored
    status := old.bind ConversationRow.status
    parentConversationId := old.bind ConversationRow.parentConversationId
    branchMessageId := old.bind ConversationRow.branchMessageId }

/-- Insert a member of a sorted set at its place by score, then by member. -/
def insertScore (member : UUID) (score : Nat) :
    List (UUID × Nat) -> List (UUID × Nat)
  | [] => [(member, score)]
  | (other, s) :: rest =>
      if score < s ∨ (score = s ∧ member.int < other.int) then
        (member, score) :: (other, s) :: rest
      else (other, s) :: insertScore member score rest

theorem mem_insertScore {member : UUID} {score : Nat} {entry : UUID × Nat}
    (entries : List (UUID × Nat)) :
    entry ∈ insertScore member score entries <->
      entry = (member, score) ∨ entry ∈ entries := by
  induction entries with
  | nil => simp [insertScore]
  | cons head rest ih =>
      rcases head with ⟨other, s⟩
      unfold insertScore
      split
      · simp
      · rw [List.mem_cons, ih, List.mem_cons]
        constructor
        · intro h
          rcases h with h | h | h
          · exact Or.inr (Or.inl h)
          · exact Or.inl h
          · exact Or.inr (Or.inr h)
        · intro h
          rcases h with h | h | h
          · exact Or.inr (Or.inl h)
          · exact Or.inl h
          · exact Or.inr (Or.inr h)

namespace Store

/-- The row of a message, if there is one. -/
def row (s : Store) (conversationId messageId : UUID) : Option Row :=
  (s.messages conversationId).get messageId

def upsertMessage (s : Store) (conversationId messageId : UUID)
    (f : Option Row -> Row) : Store :=
  { s with
    messages := Function.update s.messages conversationId
      ((s.messages conversationId).upsert messageId f) }

def putOutbox (s : Store) (bucket : Nat) (eventId : UUID) (r : OutboxRow) : Store :=
  { s with
    outbox := Function.update s.outbox bucket
      (Function.update (s.outbox bucket) eventId (some r)) }

def saveInbox (s : Store) (key : InboxKey) : Store :=
  { s with inbox := Function.update s.inbox key true }

def setMarker (s : Store) (messageId : UUID) (m : Option Marker) : Store :=
  { s with markers := Function.update s.markers messageId m }

def addPending (s : Store) (member : UUID) (score : Nat) : Store :=
  { s with
    pendingSet := insertScore member score
      (s.pendingSet.filter (fun e => e.1 ≠ member)) }

def removePending (s : Store) (member : UUID) : Store :=
  { s with pendingSet := s.pendingSet.filter (fun e => e.1 ≠ member) }

def setHistoryCache (s : Store) (conversationId : UUID)
    (value : Option (List Message)) : Store :=
  { s with historyCache := Function.update s.historyCache conversationId value }

def setConversationRow (s : Store) (conversationId : UUID)
    (row : Option ConversationRow) : Store :=
  { s with conversations := Function.update s.conversations conversationId row }

def setCatalog (s : Store) (userId : UUID) (rows : Partition CatalogKey CatalogRow) :
    Store :=
  { s with catalog := Function.update s.catalog userId rows }

/-- The key of a conversation in its user's partition. -/
def catalogKey (updatedAt : Datetime) (conversationId : UUID) : CatalogKey :=
  toLex (updatedAt.stored.micros, OrderDual.toDual conversationId)

/--
The `DELETE` and the `INSERT` of one batch on `conversations_by_user`. They have one
timestamp, so that on one key the tombstone of the `DELETE` wins.
-/
def moveCatalog (s : Store) (userId conversationId : UUID) (old new : Datetime)
    (row : CatalogRow) : Store :=
  let rest := (s.catalog userId).erase (catalogKey old conversationId)
  s.setCatalog userId
    (if catalogKey old conversationId = catalogKey new conversationId then rest
    else rest.upsert (catalogKey new conversationId) (fun _ => row))

def putConversationEvent (s : Store) (bucket : Nat) (eventId : UUID)
    (event : ConversationOutboxRow) : Store :=
  { s with
    conversationEvents := Function.update s.conversationEvents bucket
      (Function.update (s.conversationEvents bucket) eventId (some event)) }

def clearMessages (s : Store) (conversationId : UUID) : Store :=
  { s with messages := Function.update s.messages conversationId .empty }

def setIdempotency (s : Store) (key : Text) (value : Option IdempotencyValue) : Store :=
  { s with idempotency := Function.update s.idempotency key value }

def setConversationCache (s : Store) (conversationId : UUID)
    (value : Option Conversation) : Store :=
  { s with
    conversationCache := Function.update s.conversationCache conversationId value }

/-- The id that the next entry of a replay log gets. -/
def nextEventId (s : Store) (conversationId : UUID) : StreamId :=
  .next (s.clock / 1000) ((s.eventLog conversationId).getLast?.map Prod.fst)

def appendEvent (s : Store) (conversationId : UUID) (event : Json) : Store :=
  { s with
    eventLog := Function.update s.eventLog conversationId
      (s.eventLog conversationId ++ [(s.nextEventId conversationId, event)]) }

def publishEvent (s : Store) (conversationId : UUID) (event : Json) : Store :=
  { s with
    published := Function.update s.published conversationId
      (s.published conversationId ++ [event]) }

/-- The value of a `pending_response:<id>` key that has not reached its expiry. -/
def liveMarker (s : Store) (messageId : UUID) : Option UUID :=
  match s.markers messageId with
  | some m => if s.clock < m.expiresAt then some m.conversationId else none
  | none => none

/-- The ids in `pending_response:zset`. -/
def IsPending (s : Store) (messageId : UUID) : Prop :=
  exists score, (messageId, score) ∈ s.pendingSet

/-!
# What each update leaves alone
-/

theorem row_upsertMessage (s : Store) (c m c' m' : UUID) (f : Option Row -> Row) :
    (s.upsertMessage c m f).row c' m' =
      if c' = c ∧ m' = m then some (f (s.row c m)) else s.row c' m' := by
  unfold row upsertMessage
  by_cases hc : c' = c
  · subst hc
    simp [Partition.get_upsert]
  · simp [hc]

@[simp] theorem row_upsertMessage_self (s : Store) (c m : UUID)
    (f : Option Row -> Row) :
    (s.upsertMessage c m f).row c m = some (f (s.row c m)) := by
  rw [row_upsertMessage, if_pos ⟨rfl, rfl⟩]

theorem row_upsertMessage_ne (s : Store) {c m c' m' : UUID}
    (f : Option Row -> Row) (h : ¬(c' = c ∧ m' = m)) :
    (s.upsertMessage c m f).row c' m' = s.row c' m' := by
  rw [row_upsertMessage, if_neg h]

section Frame

variable (s : Store) (c m member : UUID) (f : Option Row -> Row) (bucket : Nat)
  (eventId : UUID) (r : OutboxRow) (key : InboxKey) (v : Option Marker)
  (score : Nat)

@[simp] theorem row_putOutbox (c' m' : UUID) :
    (s.putOutbox bucket eventId r).row c' m' = s.row c' m' := rfl

@[simp] theorem row_saveInbox (c' m' : UUID) :
    (s.saveInbox key).row c' m' = s.row c' m' := rfl

@[simp] theorem row_setMarker (c' m' : UUID) :
    (s.setMarker m v).row c' m' = s.row c' m' := rfl

@[simp] theorem row_addPending (c' m' : UUID) :
    (s.addPending member score).row c' m' = s.row c' m' := rfl

@[simp] theorem row_removePending (c' m' : UUID) :
    (s.removePending member).row c' m' = s.row c' m' := rfl

@[simp] theorem markers_upsertMessage :
    (s.upsertMessage c m f).markers = s.markers := rfl

@[simp] theorem markers_putOutbox :
    (s.putOutbox bucket eventId r).markers = s.markers := rfl

@[simp] theorem markers_saveInbox : (s.saveInbox key).markers = s.markers := rfl

@[simp] theorem markers_setMarker_self : (s.setMarker m v).markers m = v := by
  simp [setMarker]

theorem markers_setMarker_ne {m' : UUID} (h : m' ≠ m) :
    (s.setMarker m v).markers m' = s.markers m' :=
  Function.update_of_ne h _ _

@[simp] theorem markers_addPending :
    (s.addPending member score).markers = s.markers := rfl

@[simp] theorem markers_removePending :
    (s.removePending member).markers = s.markers := rfl

@[simp] theorem inbox_upsertMessage :
    (s.upsertMessage c m f).inbox = s.inbox := rfl

@[simp] theorem inbox_saveInbox_self : (s.saveInbox key).inbox key = true := by
  simp [saveInbox]

theorem inbox_saveInbox_ne {key' : InboxKey} (h : key' ≠ key) :
    (s.saveInbox key).inbox key' = s.inbox key' :=
  Function.update_of_ne h _ _

@[simp] theorem outbox_upsertMessage :
    (s.upsertMessage c m f).outbox = s.outbox := rfl

@[simp] theorem outbox_putOutbox_self :
    (s.putOutbox bucket eventId r).outbox bucket eventId = some r := by
  simp [putOutbox]

theorem isPending_addPending {id : UUID} :
    (s.addPending member score).IsPending id <-> id = member ∨ s.IsPending id := by
  unfold IsPending addPending
  constructor
  · intro h
    rcases h with ⟨score', hmem⟩
    rcases (mem_insertScore _).mp hmem with heq | hold
    · exact Or.inl (congrArg Prod.fst heq)
    · exact Or.inr ⟨score', (List.mem_filter.mp hold).left⟩
  · intro h
    by_cases hid : id = member
    · exact ⟨score, (mem_insertScore _).mpr (Or.inl (by rw [hid]))⟩
    · rcases h.resolve_left hid with ⟨score', hmem⟩
      refine ⟨score', (mem_insertScore _).mpr (Or.inr ?_)⟩
      exact List.mem_filter.mpr ⟨hmem, by simpa using hid⟩

theorem isPending_removePending {id : UUID} :
    (s.removePending member).IsPending id <-> id ≠ member ∧ s.IsPending id := by
  unfold IsPending removePending
  constructor
  · intro h
    rcases h with ⟨score', hmem⟩
    rcases List.mem_filter.mp hmem with ⟨hold, hne⟩
    exact ⟨by simpa using hne, score', hold⟩
  · intro h
    rcases h with ⟨hne, score', hmem⟩
    exact ⟨score', List.mem_filter.mpr ⟨hmem, by simpa using hne⟩⟩

end Frame

/-!
# Undoing an update
-/

theorem setMarker_setMarker (s : Store) (m : UUID) (v w : Option Marker) :
    (s.setMarker m v).setMarker m w = s.setMarker m w := by
  simp [setMarker]

theorem setMarker_of_none {s : Store} {m : UUID} (h : s.markers m = none) :
    s.setMarker m none = s := by
  unfold setMarker
  rw [← h, Function.update_eq_self]

theorem removePending_of_not {s : Store} {m : UUID} (h : ¬s.IsPending m) :
    s.removePending m = s := by
  have hall : s.pendingSet.filter (fun e => e.1 ≠ m) = s.pendingSet := by
    rw [List.filter_eq_self]
    intro e he
    have hne : e.1 ≠ m := by
      intro hm
      exact h ⟨e.2, by rw [← hm]; exact he⟩
    simpa using hne
  unfold removePending
  rw [hall]

theorem removePending_addPending (s : Store) (m : UUID) (score : Nat) :
    (s.addPending m score).removePending m = s.removePending m := by
  have hfilter : forall entries : List (UUID × Nat),
      (insertScore m score entries).filter (fun e => e.1 ≠ m) =
        entries.filter (fun e => e.1 ≠ m) := by
    intro entries
    induction entries with
    | nil => simp [insertScore]
    | cons head rest ih =>
        rcases head with ⟨other, n⟩
        unfold insertScore
        split
        · simp
        · rw [List.filter_cons, List.filter_cons, ih]
  unfold removePending addPending
  dsimp only
  rw [hfilter, List.filter_filter]
  simp

theorem markers_of_liveMarker {s : Store} {m c : UUID} (h : s.liveMarker m = some c) :
    exists mk, s.markers m = some mk ∧ mk.conversationId = c := by
  unfold liveMarker at h
  split at h
  · rename_i mk hmk
    split at h
    · exact ⟨mk, hmk, Option.some.inj h⟩
    · cases h
  · cases h

end Store

/-!
# Operations
-/

/-- The `detail` of an `HTTPException`: a text, or an object with a code and a message. -/
inductive HttpDetail where
  | message (detail : Text)
  | coded (code message : Text)
deriving DecidableEq, Repr

structure HttpError where
  statusCode : Nat
  detail : HttpDetail
deriving DecidableEq, Repr

/-- The exceptions that the modelled code raises or lets through. -/
inductive PyExc where
  | storage
  | pendingResponseRegistration
  | customModeUnavailable
  | valueError
  | typeError
  | attributeError
  | unicodeError
  | keyError
  | lookupError
  | permissionError
  | httpException (error : HttpError)
deriving DecidableEq, Repr

inductive Op where
  -- Cassandra
  | selectHistory (conversationId : UUID) (limit : Nat) (cursor : Option UUID)
  | selectHistoryUpto (conversationId uptoMessageId : UUID) (limit : Nat)
  | selectMessage (conversationId messageId : UUID)
  | insertMessage (conversationId messageId : UUID) (sender : Sender)
      (content : Text) (createdAt : Datetime) (status : MessageStatus)
      (citations : Option Json)
  | updateDeleted (conversationId messageId : UUID)
  | batchMessageOutbox (conversationId messageId : UUID) (sender : Sender)
      (content : Text) (createdAt : Datetime) (status : MessageStatus)
      (fileIds : List UUID) (bucket : Nat) (eventId : UUID) (event : OutboxRow)
  | selectInbox (key : InboxKey)
  | insertInbox (key : InboxKey)
  | selectConversation (conversationId : UUID)
  | deleteAllMessages (conversationId : UUID)
  | batchCreateConversation (conversationId userId : UUID) (title : Text)
      (now : Datetime) (status : ConversationStatus)
      (parentConversationId branchMessageId : Option UUID) (bucket : Nat)
      (eventId : UUID) (event : ConversationOutboxRow)
  | batchUpdateConversation (conversationId userId : UUID)
      (oldUpdatedAt newUpdatedAt : Datetime) (title : Option Text)
      (createdAt : Option Datetime) (status : ConversationStatus)
      (parentConversationId : Option UUID) (bucket : Nat) (eventId : UUID)
      (event : ConversationOutboxRow)
  | batchUpdateTitle (conversationId userId : UUID)
      (oldUpdatedAt newUpdatedAt : Datetime) (title : Option Text)
      (createdAt : Option Datetime) (status : ConversationStatus)
      (parentConversationId : Option UUID)
  | batchHardDelete (conversationId userId : UUID) (updatedAt : Datetime)
  | selectCatalog (userId : UUID) (limit : Nat) (cursor : Option Datetime)
  -- Redis
  | setPending (messageId conversationId : UUID) (ttl : Nat)
  | zaddPending (messageId : UUID) (score : Nat)
  | getPending (messageId : UUID)
  | deletePending (messageId : UUID)
  | zremPending (messageId : UUID)
  | zrangePending (max : Nat)
  | lrangeHistory (conversationId : UUID) (limit : Nat)
  | deleteHistory (conversationId : UUID)
  | rpushHistory (conversationId : UUID) (messages : List Message)
  | expireHistory (conversationId : UUID)
  | hgetConversation (conversationId : UUID)
  | hsetConversation (conversationId : UUID) (conversation : Conversation)
  | expireConversation (conversationId : UUID)
  | deleteConversation (conversationId : UUID)
  | claimIdempotency (key : Text)
  | getIdempotency (key : Text)
  | setIdempotency (key : Text) (value : IdempotencyValue)
  | deleteIdempotency (key : Text)
  | xaddEvent (conversationId : UUID) (event : Json)
  | expireEvents (conversationId : UUID)
  | publishEvent (conversationId : UUID) (event : Json)
  -- PostgreSQL
  | selectPreferences (userId : UUID)
  | selectCustomMode (ownerId modeId : UUID)

@[reducible]
def Op.Res : Op -> Type
  | .selectHistory _ _ _ => List (UUID × Row)
  | .selectHistoryUpto _ _ _ => List (UUID × Row)
  | .selectMessage _ _ => Option Row
  | .selectInbox _ => Bool
  | .selectConversation _ => Option ConversationRow
  | .selectCatalog _ _ _ => List (CatalogKey × CatalogRow)
  | .claimIdempotency _ => Bool
  | .getIdempotency _ => Option IdempotencyValue
  | .getPending _ => Option UUID
  | .zrangePending _ => List UUID
  | .lrangeHistory _ _ => List Message
  | .hgetConversation _ => Option Conversation
  | .xaddEvent _ _ => StreamId
  | .selectPreferences _ => Option PreferencesRow
  | .selectCustomMode _ _ => Option CustomModeRecord
  | _ => Unit

abbrev storage : Signature where
  Op := Op
  Res := Op.Res

/-- Handlers and services, as programs over the storage operations. -/
abbrev Py (alpha : Type) : Type := Prog storage PyExc alpha

/-- The effect and the answer of an operation that does not raise. -/
def Op.exec : (o : Op) -> Store -> o.Res × Store
  | .selectHistory c limit cursor, s =>
      let rows := (s.messages c).rows
      ((match cursor with
        | some k => rows.filter (fun (r : UUID × Row) => r.1 < k)
        | none => rows).take limit, s)
  | .selectHistoryUpto c upto limit, s =>
      (((s.messages c).rows.filter (fun (r : UUID × Row) => r.1 ≤ upto)).take limit, s)
  | .selectMessage c m, s => (s.row c m, s)
  | .insertMessage c m sender content createdAt status citations, s =>
      ((), s.upsertMessage c m
        (Row.inserted sender content createdAt status citations))
  | .updateDeleted c m, s => ((), s.upsertMessage c m Row.softDeleted)
  | .batchMessageOutbox c m sender content createdAt status fileIds bucket
      eventId event, s =>
      ((), (s.upsertMessage c m
        (Row.staged sender content createdAt status fileIds)).putOutbox
          bucket eventId event)
  | .selectInbox key, s => (s.inbox key, s)
  | .insertInbox key, s => ((), s.saveInbox key)
  | .selectConversation c, s => (s.conversations c, s)
  | .deleteAllMessages c, s => ((), s.clearMessages c)
  | .batchCreateConversation c user title now status parent branch bucket eventId
      event, s =>
      ((), (((s.setConversationRow c (some
        { userId := some user
          title := some title
          createdAt := some now.stored
          updatedAt := some now.stored
          status := some status
          parentConversationId := parent
          branchMessageId := branch })).setCatalog user
            ((s.catalog user).upsert (Store.catalogKey now c) (fun _ =>
              { title := some title
                createdAt := some now.stored
                status := status
                parentConversationId := parent }))).putConversationEvent
                  bucket eventId event))
  | .batchUpdateConversation c user old new title createdAt status parent bucket eventId
      event, s =>
      ((), (((s.moveCatalog user c old new
        { title := title
          createdAt := createdAt.map Datetime.stored
          status := status
          parentConversationId := parent }).setConversationRow c
            (some (.updated title new status (s.conversations c)))).putConversationEvent
              bucket eventId event))
  | .batchUpdateTitle c user old new title createdAt status parent, s =>
      ((), (s.moveCatalog user c old new
        { title := title
          createdAt := createdAt.map Datetime.stored
          status := status
          parentConversationId := parent }).setConversationRow c
            (some (.retitled title new (s.conversations c))))
  | .batchHardDelete c user updatedAt, s =>
      ((), (s.setCatalog user
        ((s.catalog user).erase (Store.catalogKey updatedAt c))).setConversationRow c none)
  | .selectCatalog user limit cursor, s =>
      let rows := (s.catalog user).rows
      ((match cursor with
        | some t =>
            rows.filter (fun (r : CatalogKey × CatalogRow) =>
              (ofLex r.1).1 < t.stored.micros)
        | none => rows).take limit, s)
  | .setPending m c ttl, s => ((), s.setMarker m (some ⟨c, s.clock + ttl⟩))
  | .zaddPending m score, s => ((), s.addPending m score)
  | .getPending m, s => (s.liveMarker m, s)
  | .deletePending m, s => ((), s.setMarker m none)
  | .zremPending m, s => ((), s.removePending m)
  | .zrangePending max, s =>
      ((s.pendingSet.filter (fun e => e.2 ≤ max)).map Prod.fst, s)
  | .lrangeHistory c limit, s =>
      let cached := (s.historyCache c).getD []
      -- `lrange(key, 0, limit - 1)`: an end of -1 means the whole list
      (if limit = 0 then cached else cached.take limit, s)
  | .deleteHistory c, s => ((), s.setHistoryCache c none)
  | .rpushHistory c messages, s =>
      ((), s.setHistoryCache c (some ((s.historyCache c).getD [] ++ messages)))
  | .expireHistory _, s => ((), s)
  | .hgetConversation c, s => (s.conversationCache c, s)
  | .hsetConversation c conv, s => ((), s.setConversationCache c (some conv))
  | .expireConversation _, s => ((), s)
  | .deleteConversation c, s => ((), s.setConversationCache c none)
  | .claimIdempotency key, s =>
      -- `SET key processing NX` keeps a value that is there
      ((s.idempotency key).isNone,
        s.setIdempotency key (some ((s.idempotency key).getD .processing)))
  | .getIdempotency key, s => (s.idempotency key, s)
  | .setIdempotency key value, s => ((), s.setIdempotency key (some value))
  | .deleteIdempotency key, s => ((), s.setIdempotency key none)
  | .xaddEvent c event, s => (s.nextEventId c, s.appendEvent c event)
  | .expireEvents _, s => ((), s)
  | .publishEvent c event, s => ((), s.publishEvent c event)
  | .selectPreferences u, s => (s.preferences u, s)
  | .selectCustomMode owner mode, s =>
      -- `include_archived=False`
      ((s.customModes owner mode).filter (fun r => r.active), s)

def storageMachine : Machine storage Store where
  exec := Op.exec

@[simp] theorem storageMachine_exec (o : Op) (s : Store) :
    storageMachine.exec o s = o.exec s := rfl

/-- Perform an operation, letting its exception through. -/
def perform (o : Op) : Py o.Res :=
  Prog.perform (S := storage) .storage o

end ConversationService
