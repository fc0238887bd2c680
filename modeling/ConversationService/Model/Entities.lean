import ConversationService.Python.Uuid

/-!
# Domain entities

The dataclasses of `app/models`, the citation record of
`app/services/citations.py` and the payload of a `chat.message.created` event.
-/

namespace ConversationService

open Python

/-- Who wrote a message row. -/
inductive Sender where
  | user
  | assistant
  | system
deriving DecidableEq, Repr

inductive MessageStatus where
  | pending
  | sent
  | failed
deriving DecidableEq, Repr

/--
A `datetime`. A naive one is read as UTC; comparing a naive one with an aware
one raises `TypeError`.
-/
structure Datetime where
  micros : Int
  aware : Bool
deriving DecidableEq, Repr

/-- `a <= b`, with `none` where it raises. -/
def Datetime.le? (a b : Datetime) : Option Bool :=
  if a.aware = b.aware then some (decide (a.micros ≤ b.micros)) else none

/-- The video range of a citation: `start_seconds` and `end_seconds`. -/
structure CitationRange where
  startSeconds : Int
  endSeconds : Option Int
deriving DecidableEq, Repr

structure Citation where
  fileId : Text
  sourceName : Text
  pageNumber : Option Int
  sectionName : Option Text
  range : Option CitationRange
deriving DecidableEq, Repr

structure Message where
  conversationId : UUID
  messageId : UUID
  sender : Option Sender
  content : Option Text
  createdAt : Option Datetime
  status : MessageStatus
  fileIds : List UUID
  citations : List Citation
  responseMessageId : Option UUID
deriving DecidableEq, Repr

inductive ConversationStatus where
  | active
  | archived
  | deleted
deriving DecidableEq, Repr

/--
A row that an `UPDATE` has created anew lacks the columns it did not set, so their
fields are optional here as they are in the objects made of such a row.
-/
structure Conversation where
  conversationId : UUID
  userId : Option UUID
  title : Option Text
  createdAt : Option Datetime
  updatedAt : Option Datetime
  status : ConversationStatus
  parentConversationId : Option UUID
  branchMessageId : Option UUID
deriving DecidableEq, Repr

/-- The payload of a `conversation.created`, `.updated` or `.deleted` event. -/
structure ConversationEvent where
  conversationId : UUID
  userId : Option UUID
  title : Option Text
  status : Text
  parentConversationId : Option UUID
  branchMessageId : Option UUID
  createdAt : Option Datetime
deriving DecidableEq, Repr

/-!
# Preferences and custom modes
-/

inductive AnswerLength where
  | concise
  | balanced
  | detailed
deriving DecidableEq, Repr

inductive Tone where
  | professional
  | friendly
  | simple
deriving DecidableEq, Repr

inductive CitationPreference where
  | «show»
  | hide
deriving DecidableEq, Repr

inductive DocumentContext where
  | conversation
  | attachedOnly
deriving DecidableEq, Repr

structure UserPreferences where
  defaultMode : Option Text
  defaultTools : List Text
  answerLength : AnswerLength
  tone : Tone
  language : Text
  personalInstructions : Text
  citations : CitationPreference
  documentContext : DocumentContext
deriving DecidableEq, Repr

inductive ExecutionStyle where
  | direct
  | smart
deriving DecidableEq, Repr

/-- A row of the custom-mode table; `active` is false once it is archived. -/
structure CustomModeRecord where
  modeId : UUID
  version : Nat
  name : Text
  executionStyle : ExecutionStyle
  instructions : Text
  active : Bool
deriving DecidableEq, Repr

structure CustomModeSnapshot where
  modeId : Text
  version : Nat
  name : Text
  executionStyle : ExecutionStyle
  instructions : Text
deriving DecidableEq, Repr

/-- `generation_preferences(prefs)` -/
structure GenerationPreferences where
  answerLength : AnswerLength
  tone : Tone
  language : Text
  languageName : Text
  personalInstructions : Text
  citations : CitationPreference
deriving DecidableEq, Repr

structure DefaultsApplied where
  mode : Bool
  tools : Bool
deriving DecidableEq, Repr

/-!
# The `chat.message.created` event
-/

/-- One entry of the `history` of a request event. -/
inductive HistoryEntry where
  | own (role : Option Sender) (content : Text) (messageId : UUID)
  | inherited (role : Option Sender) (content : Text) (sourceConversationId : UUID)
deriving DecidableEq, Repr

structure AncestorRef where
  conversationId : UUID
  uptoMessageId : UUID
deriving DecidableEq, Repr

structure RegenerationMetadata where
  promptMessageId : Option UUID
  replacesMessageId : UUID
deriving DecidableEq, Repr

structure ChatMessageCreated where
  eventType : Text
  schemaVersion : Text
  messageId : UUID
  responseMessageId : Option UUID
  conversationId : UUID
  userId : Option UUID
  content : Option Text
  modeHint : Option Text
  selectedTools : List Text
  includeDiagrams : Bool
  fileIds : List UUID
  history : List HistoryEntry
  ancestors : List AncestorRef
  customMode : Option CustomModeSnapshot
  preferences : Option GenerationPreferences
  defaultsApplied : DefaultsApplied
  metadata : Option RegenerationMetadata
  traceparent : Text
  timestamp : Datetime
deriving DecidableEq, Repr

end ConversationService
