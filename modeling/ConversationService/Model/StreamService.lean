import Mathlib.Data.Prod.Lex
import ConversationService.Model.JsonInput
import ConversationService.Model.Pagination
import ConversationService.Model.Replicas
import ConversationService.Python.Numerals

/-!
# Resumable streams (`app/services/stream_service.py`)

The reading half of the stream service. A subscription is handed what is published on the
channel of its conversation after it has subscribed, one message at a time, and reads the
replay log once. A message may be lost with the connection.
-/

namespace ConversationService

open Python Programs

/-!
# Event ids
-/

/-- The first number of an id decides, then the second. -/
def StreamId.Below (id id' : StreamId) : Prop :=
  id.ms < id'.ms ∨ (id.ms = id'.ms ∧ id.seq < id'.seq)

instance decidableBelow (id id' : StreamId) : Decidable (id.Below id') :=
  inferInstanceAs (Decidable (id.ms < id'.ms ∨ (id.ms = id'.ms ∧ id.seq < id'.seq)))

namespace StreamService

/-- The digits of `int(s)`; one underscore may stand between two of them. -/
def intDigits : Bool -> Nat -> Text -> Option Nat
  | afterDigit, value, [] => if afterDigit then some value else none
  | afterDigit, value, c :: rest =>
      if Fingerprint.isDigit c then intDigits true (10 * value + (c.val - 0x30)) rest
      else if c = 0x5F ∧ afterDigit then intDigits false value rest
      else none

/--
`int(s)`, with `none` where it raises `ValueError`. The numbers of an id have at most 20
digits, far from the limit of 4300.
-/
def pyInt (s : Text) : Option Int :=
  match stripBy isIntSpace (asciiNumeral s) with
  | [] => none
  | c :: rest =>
      if c = 0x2D then (intDigits false 0 rest).map (fun n => -(n : Int))
      else if c = 0x2B then (intDigits false 0 rest).map Int.ofNat
      else (intDigits false 0 (c :: rest)).map Int.ofNat

/-- The tuples that event ids are compared by. -/
abbrev EventKey : Type := Int ×ₗ Int

/-- The key of a missing or unknown id, which sorts first. -/
def unknownKey : EventKey := toLex (-1, -1)

/-- `event_id_key(event_id)` -/
def eventIdKey (eventId : Json) : EventKey :=
  let s := eventId.pyStr
  let seq := (s.dropWhile (fun c => c != 0x2D)).drop 1
  match pyInt (s.takeWhile (fun c => c != 0x2D)),
      pyInt (if seq.isEmpty then text "0" else seq) with
  | some ms, some n => toLex (ms, n)
  | _, _ => unknownKey

/-!
# Replay
-/

/-- A part of a stream id in a range, an unsigned number of 64 bits. -/
def rangePart (s : Text) : Option Nat :=
  if s ≠ [] ∧ s.all Fingerprint.isDigit ∧ Fingerprint.decimal s < 2 ^ 64 then
    some (Fingerprint.decimal s)
  else none

/--
The id in the bound `(<since>` of `XRANGE`, for the texts that the endpoint lets through;
`none` is an error of Redis.
-/
def rangeBound (since : Text) : Option StreamId :=
  let seq := (since.dropWhile (fun c => c != 0x2D)).drop 1
  match rangePart (since.takeWhile (fun c => c != 0x2D)),
      rangePart (if since.contains 0x2D then seq else text "0") with
  | some ms, some n => some ⟨ms, n⟩
  | _, _ => none

/-- `xrange(key, min=lo, max="+")` -/
def xrange (log : List (StreamId × Json)) (since : Option Text) :
    Option (List (StreamId × Json)) :=
  match since with
  | none => some log
  | some s =>
      if s = [] ∨ s = text "0" then some log
      else
        (rangeBound s).map (fun bound =>
          log.filter (fun row => bound.Below row.1))

/-- `data[key] = value` -/
def setField (key : Text) (value : Json) : List (Text × Json) -> List (Text × Json)
  | [] => [(key, value)]
  | field :: rest =>
      if field.1 = key then (key, value) :: rest else field :: setField key value rest

/-- The event of a row of the log, if it belongs to the message. -/
def replayRow (messageId : Text) : StreamId × Json -> Option (List (Text × Json))
  | (id, .obj data) =>
      if (Json.get data (text "message_id")).isText messageId then
        some (setField (text "event_id") (.str id.toText) data)
      else none
  -- `publish_token` logs objects only
  | _ => none

def hasStatus (status : Text) (event : List (Text × Json)) : Bool :=
  (Json.get event (text "status")).isText status

/-- A failure that a completed reply has overtaken is dropped. -/
def dropFailures (events : List (List (Text × Json))) : List (List (Text × Json)) :=
  if events.any (hasStatus (text "completed")) then
    events.filter (fun event => !hasStatus (text "failed") event)
  else events

/-- `replay(conversation_id, message_id, since)` on the log that `XRANGE` reads. -/
def replay (log : List (StreamId × Json)) (messageId : Text) (since : Option Text) :
    List (List (Text × Json)) :=
  match xrange log since with
  | none => []
  | some rows => dropFailures (rows.filterMap (replayRow messageId))

/-!
# Subscriptions
-/

/-- What `subscribe` yields, before it is written as a frame of the stream. -/
inductive Frame where
  | ok
  | heartbeat
  | event (data : List (Text × Json))

/-- The event of a frame. -/
def Frame.event? : Frame -> Option (List (Text × Json))
  | .event data => some data
  | _ => none

/-- `format_sse(data)` -/
def formatSse (data : List (Text × Json)) : Text :=
  let eid := Json.get data (text "event_id")
  (if eid.truthy then text "id: " ++ eid.pyStr ++ text "\n" else []) ++
    (text "data: " ++ Pagination.dumps (.obj data) ++ text "\n\n")

/-- A frame as it is yielded. -/
def Frame.toText : Frame -> Text
  | .ok => text ": ok\n\n"
  | .heartbeat => text ": heartbeat\n\n"
  | .event data => formatSse data

inductive Phase where
  | subscribed
  /-- with the events of the replay that are still to be yielded -/
  | replaying (events : List (List (Text × Json)))
  | following
  | ended

/-- A call of `subscribe` that goes on; a given `messageId` is not empty. -/
structure Subscription where
  conversationId : UUID
  messageId : Option Text
  since : Option Text
  phase : Phase
  /-- how much of what was published it has been handed, or has been lost for it -/
  position : Nat
  lastEid : EventKey
  frames : List Frame

/-- The subscription after `SUBSCRIBE`, with the comment that is yielded first. -/
def opened (s : Store) (conversationId : UUID) (messageId since : Option Text) :
    Subscription :=
  { conversationId := conversationId
    messageId := messageId
    since := since
    phase := .subscribed
    position := (s.published conversationId).length
    lastEid := unknownKey
    frames := [.ok] }

/-- `data.get("is_final") or data.get("status") == "completed"` -/
def isTerminal (data : List (Text × Json)) : Bool :=
  (Json.get data (text "is_final")).truthy || hasStatus (text "completed") data

/-- What is yielded of a message, with the id that counts as the last from then on. -/
def received (messageId : Option Text) (lastEid : EventKey) :
    Json -> Option (List (Text × Json) × EventKey)
  | .obj data =>
      match messageId with
      | none => some (data, lastEid)
      | some messageId =>
          let eventId := Json.get data (text "event_id")
          if !(Json.get data (text "message_id")).isText messageId then none
          -- already delivered
          else if eventId.truthy && eventIdKey eventId ≤ lastEid then none
          else some (data, max lastEid (eventIdKey eventId))
  -- `data.get` raises, and the loop goes on
  | _ => none

namespace Subscription

/-- The events that have been yielded, oldest first. -/
def events (sub : Subscription) : List (List (Text × Json)) :=
  sub.frames.filterMap Frame.event?

/-- The body of the response so far. -/
def response (sub : Subscription) : Text :=
  sub.frames.flatMap Frame.toText

/-- An event is yielded, and the generator returns behind a terminal one. -/
def afterYield (sub : Subscription) (data : List (Text × Json)) (lastEid : EventKey)
    (phase : Phase) : Subscription :=
  { sub with
    phase := if isTerminal data then .ended else phase
    lastEid := lastEid
    frames := sub.frames ++ [.event data] }

/-- The log is read, if a message is followed. -/
def readLog (s : Store) (sub : Subscription) : Subscription :=
  match sub.phase, sub.messageId with
  | .subscribed, some messageId =>
      { sub with
        phase := .replaying (replay (s.eventLog sub.conversationId) messageId sub.since) }
  | .subscribed, none => { sub with phase := .following }
  | _, _ => sub

/-- Reading the log raises, which `replay` answers with no events. -/
def readFails (sub : Subscription) : Subscription :=
  match sub.phase with
  | .subscribed => { sub with phase := .following }
  | _ => sub

/-- The next event of the replay is yielded. -/
def yieldNext (sub : Subscription) : Subscription :=
  match sub.phase with
  | .replaying [] => { sub with phase := .following }
  | .replaying (data :: rest) =>
      sub.afterYield data
        (max sub.lastEid (eventIdKey (Json.get data (text "event_id")))) (.replaying rest)
  | _ => sub

/-- What the loop does with a message. -/
def onMessage (sub : Subscription) (message : Json) : Subscription :=
  match received sub.messageId sub.lastEid message with
  | some (data, lastEid) => sub.afterYield data lastEid .following
  | none => sub

/-- The subscription behind the next message of its channel. -/
def advanced (sub : Subscription) : Subscription :=
  { sub with position := sub.position + 1 }

/-- `pubsub.get_message`, if there is a message. -/
def getMessage (s : Store) (sub : Subscription) : Subscription :=
  match sub.phase, (s.published sub.conversationId)[sub.position]? with
  | .following, some message => sub.advanced.onMessage message
  | _, _ => sub

/-- No message comes within the timeout. -/
def wait (sub : Subscription) : Subscription :=
  match sub.phase with
  | .following => { sub with frames := sub.frames ++ [.heartbeat] }
  | _ => sub

/-- A message is lost with the connection. -/
def lose (s : Store) (sub : Subscription) : Subscription :=
  if sub.position < (s.published sub.conversationId).length then sub.advanced else sub

/-- The deadline has passed, or the client has gone. -/
def close (sub : Subscription) : Subscription := { sub with phase := .ended }

/-- What may happen to a subscription. -/
inductive Act where
  | readLog
  | readFails
  | yieldNext
  | getMessage
  | wait
  | lose
  | close
deriving DecidableEq, Repr

def perform (s : Store) (sub : Subscription) : Act -> Subscription
  | .readLog => sub.readLog s
  | .readFails => sub.readFails
  | .yieldNext => sub.yieldNext
  | .getMessage => sub.getMessage s
  | .wait => sub.wait
  | .lose => sub.lose s
  | .close => sub.close

end Subscription

/-!
# Publishers and subscriptions
-/

/-- The programs that run against the stores, and the subscriptions. -/
structure Streaming (ι alpha : Type) where
  pool : Pool ι storage PyExc alpha Store
  subscriptions : List Subscription

/-- What the subscriptions of a system may do. -/
structure StreamRules (ι alpha : Type) where
  pool : Rules ι storage PyExc alpha Store
  /-- the subscriptions that may be opened -/
  mayOpen : Pool ι storage PyExc alpha Store -> Subscription -> Prop
  mayAct : Subscription.Act -> Prop

inductive Streaming.Step {ι alpha : Type} (R : StreamRules ι alpha) :
    Streaming ι alpha -> Streaming ι alpha -> Prop where
  | pool (c d : Pool ι storage PyExc alpha Store) (subs : List Subscription) :
      Pool.Step R.pool c d -> Streaming.Step R ⟨c, subs⟩ ⟨d, subs⟩
  | connect (c : Pool ι storage PyExc alpha Store) (subs : List Subscription)
      (conversationId : UUID) (messageId since : Option Text) :
      R.mayOpen c (opened c.store conversationId messageId since) ->
      Streaming.Step R ⟨c, subs⟩
        ⟨c, subs ++ [opened c.store conversationId messageId since]⟩
  | act (c : Pool ι storage PyExc alpha Store) (before after : List Subscription)
      (sub : Subscription) (a : Subscription.Act) :
      R.mayAct a ->
      Streaming.Step R ⟨c, before ++ sub :: after⟩
        ⟨c, before ++ sub.perform c.store a :: after⟩

def Streaming.Reaches {ι alpha : Type} (R : StreamRules ι alpha) :
    Streaming ι alpha -> Streaming ι alpha -> Prop :=
  Relation.ReflTransGen (Streaming.Step R)

/-- Nothing has been published for the conversation, and nobody has subscribed. -/
def fresh {ι alpha : Type} (s : Store) : Streaming ι alpha := ⟨startingFrom s, []⟩

/-!
# Calls of `publish_token`
-/

structure PublishCall where
  conversationId : UUID
  chunkData : List (Text × Json)

def PublishCall.program (call : PublishCall) : Py Unit :=
  StreamService.publishToken ⟨true⟩ call.conversationId call.chunkData

end StreamService
end ConversationService
