import ConversationService.Model.ConversationsApi
import ConversationService.Model.ExportFiles
import ConversationService.Model.JsonInput
import ConversationService.Model.MessagesApi
import ConversationService.Python.Base64
import ConversationService.Python.IsoFormat

/-!
# Cursors (`app/utils/pagination.py`)

The text of a cursor, and the two endpoints with the text that a client sends and the text that
it is answered.
-/

namespace ConversationService

open Python Programs

/-!
# Times
-/

/-- The time that is written in a text; an aware one is kept in UTC. -/
def Datetime.ofFields (fields : IsoFormat.Fields) : Datetime :=
  let clock := fields.clock
  { micros := ((Calendar.ymd2ord fields.date : Int) - 719163) * 86400000000 +
      ((((clock.hour * 60 + clock.minute) * 60 + clock.second) * 1000000 +
        clock.microsecond : Nat) : Int) - fields.offset.getD 0
    aware := fields.offset.isSome }

/-- `datetime.fromisoformat(s)` -/
def Datetime.fromisoformat (s : Text) : Option Datetime :=
  (IsoFormat.fromisoformat s).map Datetime.ofFields

def Datetime.clock (value : Datetime) : IsoFormat.Clock :=
  { hour := value.sinceMidnight / 3600000000
    minute := value.sinceMidnight / 60000000 % 60
    second := value.sinceMidnight / 1000000 % 60
    microsecond := value.sinceMidnight % 1000000 }

/-- `value.isoformat()` -/
def Datetime.isoformat (value : Datetime) : Text :=
  IsoFormat.isoformat value.date value.clock value.aware

namespace Pagination

/-!
# `json.dumps(payload)`
-/

def hex4 (n : Nat) : Text :=
  [digitChar (n / 4096 % 16), digitChar (n / 256 % 16), digitChar (n / 16 % 16),
    digitChar (n % 16)]

/-- A character in a JSON string, in ASCII. -/
def dumpsChar (c : CodePoint) : Text :=
  if c = 0x22 then text "\\\""
  else if c = 0x5C then text "\\\\"
  else if c = 0x08 then text "\\b"
  else if c = 0x09 then text "\\t"
  else if c = 0x0A then text "\\n"
  else if c = 0x0C then text "\\f"
  else if c = 0x0D then text "\\r"
  else if 0x20 ≤ c.val ∧ c.val ≤ 0x7E then [c]
  else if c.val < 0x10000 then text "\\u" ++ hex4 c.val
  else
    text "\\u" ++ hex4 (0xD800 + (c.val - 0x10000) / 0x400) ++
      (text "\\u" ++ hex4 (0xDC00 + (c.val - 0x10000) % 0x400))

def dumpsText (s : Text) : Text :=
  text "\"" ++ s.flatMap dumpsChar ++ text "\""

mutual
def dumps : Json -> Text
  | .null => text "null"
  | .bool true => text "true"
  | .bool false => text "false"
  | .int n => intText n
  | .float repr => Fingerprint.dumpsFloat repr
  | .str s => dumpsText s
  | .arr items => text "[" ++ join (text ", ") (dumpsItems items) ++ text "]"
  | .obj fields => text "\x7b" ++ join (text ", ") (dumpsFields fields) ++ text "\x7d"

def dumpsItems : List Json -> List Text
  | [] => []
  | item :: rest => dumps item :: dumpsItems rest

def dumpsFields : List (Text × Json) -> List Text
  | [] => []
  | (key, value) :: rest => (dumpsText key ++ text ": " ++ dumps value) :: dumpsFields rest
end

/-!
# Cursors
-/

/-- `encode_cursor(payload)` -/
def encodeCursor (payload : List (Text × Json)) : Option Text :=
  (utf8Encode (dumps (.obj payload))).bind (fun jsonBytes =>
    utf8Decode (Base64.urlsafeB64encode jsonBytes))

/-- `[` or `{` -/
def isBracket (c : CodePoint) : Bool :=
  c = 0x5B || c = 0x7B

/-- What `json.loads` rests on. -/
structure JsonReader where
  /-- the `repr` of `float(_)` -/
  float : Text -> Text
  /-- a text at which the recursion limit is exceeded -/
  tooDeep : Text -> Bool
  shallow : forall s, s.countP isBracket ≤ 1 -> tooDeep s = false

def invalidCursor : PyExc :=
  .httpException ⟨400, .message (text "Invalid pagination cursor format")⟩

section Reader

variable (reader : JsonReader)

/-- What is tried in `decode_cursor`, with `none` where something raises. -/
def payload? (cursorStr : Text) : Option (List (Text × Json)) :=
  (utf8Encode cursorStr).bind (fun data =>
    (Base64.urlsafeB64decode data).bind (fun jsonBytes =>
      (utf8Decode jsonBytes).bind (fun s =>
        if reader.tooDeep s then none
        else
          match Fingerprint.loads reader.float s with
          | some (.obj fields) => some fields
          | _ => none)))

/-- `decode_cursor(cursor_str)` -/
def decodeCursor (cursorStr : Text) : Except PyExc (List (Text × Json)) :=
  match payload? reader cursorStr with
  | some payload => .ok payload
  | none => .error invalidCursor

/-- What an endpoint reads from a cursor, if there is one: a field that is not false is parsed. -/
def position {α : Type} (key : Text) (parse : Json -> Except PyExc α) (cursor : Option Text) :
    Except PyExc (Option α) :=
  match RenderMarkdown.truthy cursor with
  | none => .ok none
  | some cursor =>
      match decodeCursor reader cursor with
      | .error e => .error e
      | .ok payload =>
          let value := Json.get payload key
          if value.truthy then (parse value).map some else .ok none

end Reader

end Pagination

/-!
# Pages of messages
-/

namespace MessagesApi

open Pagination

/-- `UUID(msg_id_str)` -/
def parseMessageId : Json -> Except PyExc UUID
  | .str s =>
      match UUID.parse s with
      | some id => .ok id
      | none => .error .valueError
  -- what is no text has no `replace`
  | _ => .error .attributeError

def cursorMessageId (reader : JsonReader) (cursor : Option Text) :
    Except PyExc (Option UUID) :=
  position reader (text "message_id") parseMessageId cursor

def cursorPayload (messageId : UUID) : List (Text × Json) :=
  [(text "message_id", .str messageId.toText)]

structure MessagePage where
  items : List Message
  nextCursor : Option Text
  hasMore : Bool
deriving DecidableEq, Repr

/-- The response with the text of its cursor. -/
def withCursorText (page : MessageListResponse) : Py MessagePage :=
  match page.nextCursor with
  | none => pure ⟨page.items, none, page.hasMore⟩
  | some messageId =>
      match encodeCursor (cursorPayload messageId) with
      | some cursor => pure ⟨page.items, some cursor, page.hasMore⟩
      | none => Prog.raise .unicodeError

/-- `get_message_history` with the text of the cursor -/
def getMessageHistoryPage (reader : JsonReader) (svc : MessageService) (conversationId : UUID)
    (limit : Nat) (cursor : Option Text) : Py MessagePage :=
  match cursorMessageId reader cursor with
  | .error e => Prog.raise e
  | .ok messageId => do
      let page <- getMessageHistory svc conversationId limit messageId
      withCursorText page

end MessagesApi

/-!
# Pages of conversations
-/

namespace ConversationsApi

open Pagination

/-- `datetime.fromisoformat(iso_str)` -/
def parseUpdatedAt : Json -> Except PyExc Datetime
  | .str s =>
      match Datetime.fromisoformat s with
      | some updatedAt => .ok updatedAt
      | none => .error .valueError
  | _ => .error .typeError

def cursorUpdatedAt (reader : JsonReader) (cursor : Option Text) :
    Except PyExc (Option Datetime) :=
  position reader (text "updated_at") parseUpdatedAt cursor

def cursorPayload (cursor : ConversationCursor) : List (Text × Json) :=
  [(text "updated_at", .str cursor.updatedAt.isoformat),
    (text "conversation_id", .str cursor.conversationId.toText)]

structure ConversationPage where
  items : List Conversation
  nextCursor : Option Text
  hasMore : Bool
deriving DecidableEq, Repr

/-- The response with the text of its cursor. -/
def withCursorText (page : ConversationListResponse) : Py ConversationPage :=
  match page.nextCursor with
  | none => pure ⟨page.items, none, page.hasMore⟩
  | some cursor =>
      match encodeCursor (cursorPayload cursor) with
      | some cursor => pure ⟨page.items, some cursor, page.hasMore⟩
      | none => Prog.raise .unicodeError

/-- The query; the driver raises for a time that it does not bind to a timestamp. -/
def listFrom (binds : Datetime -> Bool) (userId : UUID) (limit : Nat)
    (cursor : Option Datetime) : Py (List Conversation) :=
  if cursor.all binds then ConversationRepository.list userId limit cursor
  else Prog.raise .storage

/-- `list_conversations` with the text of the cursor -/
def listConversationsPage (reader : JsonReader) (binds : Datetime -> Bool) (currentUser : UUID)
    (limit : Nat) (cursor : Option Text) : Py ConversationPage :=
  match cursorUpdatedAt reader cursor with
  | .error e => Prog.raise e
  | .ok updatedAt => do
      let items <- listFrom binds currentUser limit updatedAt
      let page <- listResponse items limit
      withCursorText page

end ConversationsApi
end ConversationService
