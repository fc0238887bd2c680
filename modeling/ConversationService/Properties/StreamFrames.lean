import ConversationService.Library.EventStream
import ConversationService.Properties.CompleteStreams
import ConversationService.Properties.WireJson

/-!
# The text of a stream

What a client reads of the response of a subscription, wherever the connection breaks off:
the events that were yielded, as values, and the id to resume from.
-/

namespace ConversationService
namespace StreamService

open Python Programs
open Pagination (IsWire Printable Unpaired isHigh loads_dumps printable_dumps printable_intText
  printable_of_all)

/-!
# Blocks
-/

theorem isName_of_all {name : Text} (hne : name ≠ [])
    (h : name.all (fun c => c != 0x0A && (c != 0x0D && c != 0x3A)) = true) :
    name ≠ [] ∧ forall c, c ∈ name -> c ≠ 0x0A ∧ c ≠ 0x0D ∧ c ≠ 0x3A := by
  refine ⟨hne, ?_⟩
  intro c hc
  have hall := List.all_eq_true.mp h c hc
  rw [Bool.and_eq_true, Bool.and_eq_true, bne_iff_ne, bne_iff_ne, bne_iff_ne] at hall
  exact hall

theorem isName_data : text "data" ≠ [] ∧
    forall c, c ∈ text "data" -> c ≠ 0x0A ∧ c ≠ 0x0D ∧ c ≠ 0x3A :=
  isName_of_all (by decide) (by decide)

theorem isName_id : text "id" ≠ [] ∧
    forall c, c ∈ text "id" -> c ≠ 0x0A ∧ c ≠ 0x0D ∧ c ≠ 0x3A :=
  isName_of_all (by decide) (by decide)

theorem colon_inLine : (0x3A : CodePoint) ≠ 0x0A ∧ (0x3A : CodePoint) ≠ 0x0D := by decide

theorem space_inLine : (0x20 : CodePoint) ≠ 0x0A ∧ (0x20 : CodePoint) ≠ 0x0D := by decide

theorem data_ne_id : text "data" ≠ text "id" := by decide

/-- `text/event-stream` -/
def streamFormat : EventStream.Format CodePoint :=
  { lf := 0x0A
    cr := 0x0D
    colon := 0x3A
    space := 0x20
    nul := 0
    data := text "data"
    id := text "id"
    event := text "event"
    colonInLine := colon_inLine
    spaceInLine := space_inLine
    dataName := isName_data
    idName := isName_id
    names := data_ne_id }

def idText (data : Fields) : Option Text :=
  let eid := Json.get data (text "event_id")
  if eid.truthy then some eid.pyStr else none

def Frame.block : Frame -> EventStream.Block CodePoint
  | .ok => .comment (text " ok")
  | .heartbeat => .comment (text " heartbeat")
  | .event data => .message (idText data) (Pagination.dumps (.obj data))

theorem toText_block (frame : Frame) : frame.toText = frame.block.text streamFormat := by
  cases frame with
  | ok => decide
  | heartbeat => decide
  | event data =>
      have hdata : text "data: " = text "data" ++ [0x3A, 0x20] := by decide
      have hid : text "id: " = text "id" ++ [0x3A, 0x20] := by decide
      have hend : text "\n\n" = [0x0A, 0x0A] := by decide
      have hline : text "\n" = [0x0A] := by decide
      unfold Frame.toText formatSse Frame.block idText EventStream.Block.text
        EventStream.Block.lines EventStream.Block.fieldLine
      dsimp only
      rw [hdata, hid, hend, hline]
      split
      · simp [streamFormat]
      · simp [streamFormat]

theorem response_blocks (sub : Subscription) :
    sub.response = (sub.frames.map Frame.block).flatMap (EventStream.Block.text streamFormat) := by
  unfold Subscription.response
  rw [List.flatMap_map]
  exact List.flatMap_congr (fun frame _ => toText_block frame)

/-!
# Reading a response
-/

/-- A JSON value whose id, if it has one, is that of an entry of the log. -/
structure Readable (float : Text -> Text) (data : Fields) : Prop where
  wire : IsWire float (.obj data)
  id : idText data = none ∨ exists id : StreamId, idText data = some id.toText

theorem inLine_of_printable {s : Text} (h : Printable s) :
    EventStream.InLine streamFormat s ∧ streamFormat.nul ∉ s := by
  have hcontrol : forall c, c ∈ s -> forall d : CodePoint, d.val < 0x20 -> c ≠ d := by
    rintro c hc d hd rfl
    exact absurd (h c hc).left (Nat.not_le_of_lt hd)
  constructor
  · intro c hc
    exact ⟨hcontrol c hc _ (by decide), hcontrol c hc _ (by decide)⟩
  · intro hnul
    exact hcontrol _ hnul _ (by decide) rfl

theorem printable_toText (id : StreamId) : Printable id.toText :=
  ((printable_intText id.ms).append (printable_of_all (by decide))).append
    (printable_intText id.seq)

theorem clean_frame {float : Text -> Text} {frame : Frame}
    (h : forall data, frame.event? = some data -> Readable float data) :
    frame.block.Clean streamFormat := by
  cases frame with
  | ok => exact (inLine_of_printable (printable_of_all (by decide))).left
  | heartbeat => exact (inLine_of_printable (printable_of_all (by decide))).left
  | event data =>
      have hdata := h data rfl
      refine ⟨(inLine_of_printable (printable_dumps hdata.wire)).left, ?_⟩
      intro value hvalue
      rcases hdata.id with hnone | ⟨id, hid⟩
      · rw [hnone] at hvalue
        cases hvalue
      · rw [hid] at hvalue
        cases hvalue
        exact inLine_of_printable (printable_toText id)

theorem clean_frames {float : Text -> Text} {sub : Subscription}
    (h : forall data, data ∈ sub.events -> Readable float data) :
    forall b, b ∈ sub.frames.map Frame.block -> b.Clean streamFormat := by
  intro b hb
  rcases List.mem_map.mp hb with ⟨frame, hframe, rfl⟩
  exact clean_frame (fun data hdata => h data (List.mem_filterMap.mpr ⟨frame, hframe, hdata⟩))

/-- What a client reads of a part of a response that starts behind `lastId`. -/
def readBody (lastId body : Text) :
    EventStream.Client CodePoint × List (EventStream.Event CodePoint) :=
  EventStream.Client.read streamFormat (.idle lastId) body

/-- The values of the events that a client has read. -/
def valuesOf (float : Text -> Text) (events : List (EventStream.Event CodePoint)) :
    List (Option Json) :=
  events.map (fun event => Fingerprint.loads float event.data)

/-- The id of the last event that has one. -/
def resumeId (lastId : Text) (events : List Fields) : Text :=
  events.foldl (fun last data => (idText data).getD last) lastId

theorem valuesOf_frames {float : Text -> Text} {frames : List Frame}
    (h : forall data, data ∈ frames.filterMap Frame.event? -> Readable float data)
    (lastId : Text) :
    valuesOf float (EventStream.events lastId (frames.map Frame.block)) =
        (frames.filterMap Frame.event?).map (fun data => some (.obj data)) ∧
      EventStream.idAfter lastId (frames.map Frame.block) =
        resumeId lastId (frames.filterMap Frame.event?) := by
  induction frames generalizing lastId with
  | nil => exact ⟨rfl, rfl⟩
  | cons frame frames ih =>
      cases frame with
      | ok => exact ih h lastId
      | heartbeat => exact ih h lastId
      | event data =>
          have hdata : Readable float data := h data List.mem_cons_self
          rcases ih (fun d hd => h d (List.mem_cons_of_mem data hd)) ((idText data).getD lastId)
            with ⟨hvalues, hid⟩
          constructor
          · show Fingerprint.loads float (Pagination.dumps (.obj data)) ::
              valuesOf float (EventStream.events ((idText data).getD lastId)
                (frames.map Frame.block)) = _
            rw [hvalues, loads_dumps hdata.wire]
            rfl
          · exact hid

/-- Where a response breaks off, the client has the first of the events that were yielded. -/
theorem read_response {float : Text -> Text} {sub : Subscription}
    (h : forall data, data ∈ sub.events -> Readable float data) {body : Text}
    (hbody : body <+: sub.response) (lastId : Text) :
    exists got, got <+: sub.events ∧
      valuesOf float (readBody lastId body).2 = got.map (fun data => some (.obj data)) ∧
      (readBody lastId body).1.lastId = resumeId lastId got := by
  rw [response_blocks] at hbody
  rcases EventStream.read_cut (clean_frames h) lastId hbody with ⟨done, hdone, hevents, hlast⟩
  rcases List.prefix_map_iff.mp hdone with ⟨frames, hframes, rfl⟩
  have hgot : frames.filterMap Frame.event? <+: sub.events := hframes.filterMap _
  rcases valuesOf_frames (fun data hdata => h data (hgot.subset hdata)) lastId with
    ⟨hvalues, hid⟩
  refine ⟨frames.filterMap Frame.event?, hgot, ?_, ?_⟩
  · unfold readBody
    rw [hevents]
    exact hvalues
  · exact hlast.trans hid

theorem read_pieces {float : Text -> Text} {sub : Subscription}
    (h : forall data, data ∈ sub.events -> Readable float data) {pieces : List Text}
    (hpieces : pieces.flatten = sub.response) (lastId : Text) :
    valuesOf float (EventStream.Client.readPieces streamFormat (.idle lastId) pieces).2 =
      sub.events.map (fun data => some (.obj data)) := by
  rw [EventStream.Client.readPieces_eq, hpieces, response_blocks,
    EventStream.read_all (clean_frames h) lastId]
  exact (valuesOf_frames h lastId).left

/-!
# What is published can be read
-/

/-- What callers of `publish_token` send. -/
structure Sendable (float : Text -> Text) (data : Fields) : Prop where
  noId : HasNoId data
  wire : IsWire float (.obj data)

variable {float : Text -> Text}

theorem get_noId {data : Fields} (h : HasNoId data) :
    Json.get data (text "event_id") = .null := by
  induction data with
  | nil => rfl
  | cons field rest ih =>
      rcases field with ⟨name, value⟩
      rw [get_cons, if_neg (fun heq => h (name, value) List.mem_cons_self heq.symm)]
      exact ih (fun f hf => h f (List.mem_cons_of_mem _ hf))

theorem readable_of_sendable {data : Fields} (h : Sendable float data) :
    Readable float data := by
  refine ⟨h.wire, Or.inl ?_⟩
  unfold idText
  rw [get_noId h.noId]
  rfl

theorem unpaired_of_printable {s : Text} (h : Printable s) :
    Unpaired s := by
  have hhigh : forall c, c ∈ s -> isHigh c = false := by
    intro c hc
    have hplain := (h c hc).right
    unfold isHigh
    rw [decide_eq_false (show ¬0xD800 ≤ c.val by omega), Bool.false_and]
  unfold Unpaired
  clear h
  induction s with
  | nil => exact List.IsChain.nil
  | cons c rest ih =>
      cases rest with
      | nil => exact List.IsChain.singleton c
      | cons d rest =>
          refine List.isChain_cons_cons.mpr ⟨?_, ih (fun x hx => hhigh x
            (List.mem_cons_of_mem c hx))⟩
          rw [hhigh c List.mem_cons_self]
          exact fun hpair => Bool.false_ne_true hpair.left

theorem idText_withId {data : Fields} (h : HasNoId data) (id : StreamId) :
    idText (withId id data) = some id.toText := by
  unfold idText
  rw [get_withId h]
  dsimp only
  rw [toText_truthy, if_pos rfl]
  rfl

theorem readable_withId {data : Fields} (h : Sendable float data) (id : StreamId) :
    Readable float (withId id data) := by
  refine ⟨?_, Or.inr ⟨id, idText_withId h.noId id⟩⟩
  cases h.wire with
  | obj hkeys htexts hvalues =>
      unfold withId
      refine .obj ?_ (List.forall_mem_append.mpr ⟨htexts, ?_⟩)
        (List.forall_mem_append.mpr ⟨hvalues, ?_⟩)
      · rw [List.map_append]
        refine List.nodup_append.mpr ⟨hkeys, List.nodup_singleton _, ?_⟩
        intro key hkey other hother
        rcases List.mem_map.mp hkey with ⟨field, hfield, rfl⟩
        rw [List.mem_singleton.mp hother]
        exact h.noId field hfield
      · rw [List.forall_mem_singleton]
        exact unpaired_of_printable (s := text "event_id") (printable_of_all (by decide))
      · rw [List.forall_mem_singleton]
        exact .str (unpaired_of_printable (printable_toText id))

/-- What is logged has been sent, and what is published can be read. -/
structure StoreReadable (float : Text -> Text) (s : Store) : Prop where
  logs : forall c row, row ∈ s.eventLog c -> exists data, row.2 = .obj data ∧ Sendable float data
  published : forall c event, event ∈ s.published c ->
    exists data, event = .obj data ∧ Readable float data

/-- What is left of a call of `publish_token`. -/
inductive Publishes (float : Text -> Text) : PublishTask -> Prop where
  | logging (call : PublishCall) : Sendable float call.chunkData ->
      Publishes float
        ⟨call, .op (.xaddEvent call.conversationId (.obj call.chunkData)) call.logged⟩
  | expiring (call : PublishCall) (id : StreamId) : Sendable float call.chunkData ->
      Publishes float ⟨call, .op (.expireEvents call.conversationId) (call.expired id)⟩
  | sending (call : PublishCall) (payload : Fields) : Readable float payload ->
      Publishes float ⟨call, call.sending payload⟩
  | done (call : PublishCall) : Publishes float ⟨call, .ret ()⟩

/-- Calls of `publish_token` and subscriptions, whatever happens to the stores. -/
def publishingStream (float : Text -> Text) : StreamRules PublishCall Unit :=
  { pool := disturbed PublishCall.program (fun _ _ => True)
      (fun _ call => Sendable float call.chunkData)
    mayOpen := fun _ _ => True
    mayAct := fun _ => True }

theorem publishes_faulted {call : PublishCall} {o : Op}
    {next : Option (storage.Res o) -> Py Unit} (h : Publishes float ⟨call, .op o next⟩) :
    Publishes float ⟨call, next none⟩ := by
  cases h with
  | logging _ hdata => exact .sending call _ (readable_of_sendable hdata)
  | expiring _ id hdata => exact .sending call _ (readable_of_sendable hdata)
  | sending _ payload hpayload => exact .done call

theorem publishes_performed {call : PublishCall} {o : Op}
    {next : Option (storage.Res o) -> Py Unit} {s : Store} (hs : StoreReadable float s)
    (h : Publishes float ⟨call, .op o next⟩) :
    StoreReadable float (o.exec s).2 ∧ Publishes float ⟨call, next (some (o.exec s).1)⟩ := by
  cases h with
  | logging _ hdata =>
      refine ⟨⟨?_, hs.published⟩, .expiring call _ hdata⟩
      intro c
      show forall row, row ∈
        (s.appendEvent call.conversationId (.obj call.chunkData)).eventLog c -> _
      rw [eventLog_appendEvent]
      split
      · exact List.forall_mem_append.mpr ⟨hs.logs c,
          List.forall_mem_singleton.mpr ⟨call.chunkData, rfl, hdata⟩⟩
      · exact hs.logs c
  | expiring _ id hdata => exact ⟨hs, .sending call _ (readable_withId hdata id)⟩
  | sending _ payload hpayload =>
      refine ⟨⟨hs.logs, ?_⟩, .done call⟩
      intro c
      show forall event, event ∈
        (s.publishEvent call.conversationId (.obj payload)).published c -> _
      rw [published_publishEvent]
      split
      · exact List.forall_mem_append.mpr ⟨hs.published c,
          List.forall_mem_singleton.mpr ⟨payload, rfl, hpayload⟩⟩
      · exact hs.published c

theorem publishingProof (float : Text -> Text) :
    Pool.TaskProof (publishingStream float).pool (StoreReadable float) (Publishes float) where
  done := fun _ _ _ _ hs htask _ => publishes_performed hs htask
  failed := fun _ _ _ htask _ => publishes_faulted htask
  started := by
    intro pool call hs hstart
    show Publishes float ⟨call, call.program⟩
    rw [call.program_eq]
    exact .logging call hstart
  moved := by
    intro s t hs hmove
    refine ⟨fun c row hrow => hs.logs c row ((hmove.eventLog c).subset hrow), ?_⟩
    have hsame : t.published = s.published := by rw [hmove.rest]
    rw [hsame]
    exact hs.published

/-- What a subscription has yielded, and has still to yield, can be read. -/
structure YieldsReadable (float : Text -> Text) (sub : Subscription) : Prop where
  events : forall data, data ∈ sub.events -> Readable float data
  rest : forall events, sub.phase = .replaying events ->
    forall data, data ∈ events -> Readable float data

theorem replay_readable {s : Store} (hs : StoreReadable float s) (c : UUID) (messageId : Text)
    (since : Option Text) {data : Fields}
    (hdata : data ∈ replay (s.eventLog c) messageId since) : Readable float data := by
  unfold replay at hdata
  split at hdata
  · cases hdata
  · rename_i rows hrows
    rcases List.mem_filterMap.mp ((dropFailures_sublist _).subset hdata) with ⟨row, hrow, hkept⟩
    rcases hs.logs c row ((xrange_sublist hrows).subset hrow) with ⟨sent, hsent, hsendable⟩
    rcases row with ⟨id, value⟩
    cases hsent
    unfold replayRow at hkept
    dsimp only at hkept
    split at hkept
    · cases hkept
      rw [setField_noId hsendable.noId]
      exact readable_withId hsendable id
    · cases hkept

theorem yieldsReadable_afterYield {sub : Subscription} (h : YieldsReadable float sub)
    {data : Fields} (hdata : Readable float data) (lastEid : EventKey) {phase : Phase}
    (hphase : forall events, phase = .replaying events ->
      forall d, d ∈ events -> Readable float d) :
    YieldsReadable float (sub.afterYield data lastEid phase) := by
  constructor
  · rw [events_afterYield]
    exact List.forall_mem_append.mpr ⟨h.events, List.forall_mem_singleton.mpr hdata⟩
  · intro events hevents
    have hcase : (if isTerminal data then Phase.ended else phase) = .replaying events := hevents
    split at hcase
    · cases hcase
    · exact hphase events hcase

theorem yieldsReadable_quiet {sub sub' : Subscription} (h : YieldsReadable float sub)
    (hevents : sub'.events = sub.events)
    (hphase : forall events, sub'.phase = .replaying events -> sub.phase = .replaying events) :
    YieldsReadable float sub' := by
  constructor
  · rw [hevents]
    exact h.events
  · intro events heq
    exact h.rest events (hphase events heq)

theorem received_data {messageId : Option Text} {lastEid lastEid' : EventKey} {message : Json}
    {data : Fields} (h : received messageId lastEid message = some (data, lastEid')) :
    message = .obj data := by
  cases message with
  | obj fields =>
      unfold received at h
      cases messageId with
      | none =>
          cases h
          rfl
      | some id =>
          dsimp only at h
          split at h
          · cases h
          · split at h
            · cases h
            · cases h
              rfl
  | _ => cases h

theorem yieldsReadable_perform {s : Store} (hs : StoreReadable float s) {sub : Subscription}
    (h : YieldsReadable float sub) (a : Subscription.Act) :
    YieldsReadable float (sub.perform s a) := by
  have hadvanced : YieldsReadable float sub.advanced :=
    yieldsReadable_quiet h rfl (fun _ heq => heq)
  have hperforms := performs_perform s sub a
  generalize sub.perform s a = sub' at hperforms ⊢
  cases hperforms with
  | idle => exact h
  | reads messageId _ _ =>
      refine ⟨h.events, ?_⟩
      intro events hevents
      cases hevents
      exact fun data hdata => replay_readable hs sub.conversationId messageId sub.since hdata
  | skips => exact yieldsReadable_quiet h rfl (fun events heq => by cases heq)
  | replayed => exact yieldsReadable_quiet h rfl (fun events heq => by cases heq)
  | yields data rest hphase =>
      have hall := h.rest _ hphase
      refine yieldsReadable_afterYield h (hall data List.mem_cons_self) _ ?_
      intro events heq
      cases heq
      exact fun d hd => hall d (List.mem_cons_of_mem data hd)
  | receives message _ hmessage =>
      unfold Subscription.onMessage
      split
      · rename_i data lastEid hreceived
        rcases hs.published _ message (List.mem_of_getElem? hmessage) with
          ⟨payload, hpayload, hreadable⟩
        rw [received_data hreceived] at hpayload
        cases hpayload
        exact yieldsReadable_afterYield hadvanced hreadable _ (fun events heq => by cases heq)
      · exact hadvanced
  | waits => exact yieldsReadable_quiet h (events_heartbeat sub) (fun _ heq => heq)
  | loses => exact hadvanced
  | closes => exact yieldsReadable_quiet h rfl (fun events heq => by cases heq)

structure AllReadable (float : Text -> Text) (st : PublishStream) : Prop where
  pool : Pool.Keeps (StoreReadable float) (Publishes float) st.pool
  subscriptions : forall sub, sub ∈ st.subscriptions -> YieldsReadable float sub

theorem allReadable_step {st st' : PublishStream}
    (hstep : Streaming.Step (publishingStream float) st st') (h : AllReadable float st) :
    AllReadable float st' := by
  cases hstep with
  | pool c d subs hpool =>
      exact ⟨Pool.keeps_step (publishingProof float) hpool h.pool, h.subscriptions⟩
  | connect c subs conversationId messageId since hopen =>
      refine ⟨h.pool, List.forall_mem_append.mpr ⟨h.subscriptions, ?_⟩⟩
      rw [List.forall_mem_singleton]
      exact ⟨List.forall_mem_nil _, fun events heq => by cases heq⟩
  | act c before after sub a hact =>
      rcases List.forall_mem_append.mp h.subscriptions with ⟨hbefore, htail⟩
      rcases List.forall_mem_cons.mp htail with ⟨hsub, hafter⟩
      exact ⟨h.pool, List.forall_mem_append.mpr ⟨hbefore, List.forall_mem_cons.mpr
        ⟨yieldsReadable_perform h.pool.store hsub a, hafter⟩⟩⟩

theorem allReadable_reaches {s : Store} (hempty : NoEvents s) {st : PublishStream}
    (hreach : Streaming.Reaches (publishingStream float) (fresh s) st) :
    AllReadable float st := by
  induction hreach with
  | refl =>
      refine ⟨⟨⟨?_, ?_⟩, List.forall_mem_nil _⟩, List.forall_mem_nil _⟩
      · intro c row hrow
        cases (hempty c).left ▸ hrow
      · intro c event hevent
        cases (hempty c).right ▸ hevent
  | tail _ hstep ih => exact allReadable_step hstep ih

/--
In every run of calls of `publish_token` with JSON values, in which operations may raise,
processes may stop, logs may be trimmed and messages may be lost, a client that reads the
response of a subscription has the values of the events that were yielded, however the text
comes in pieces. Where it breaks off, the client has the first of them and names the id of
the last one that has an id.
-/
theorem stream_readable {s : Store} (hempty : NoEvents s) {st : PublishStream}
    (hreach : Streaming.Reaches (publishingStream float) (fresh s) st) {sub : Subscription}
    (hsub : sub ∈ st.subscriptions) (lastId : Text) :
    (forall pieces : List Text, pieces.flatten = sub.response ->
      valuesOf float (EventStream.Client.readPieces streamFormat (.idle lastId) pieces).2 =
        sub.events.map (fun data => some (.obj data))) ∧
      forall body, body <+: sub.response -> exists got, got <+: sub.events ∧
        valuesOf float (readBody lastId body).2 = got.map (fun data => some (.obj data)) ∧
        (readBody lastId body).1.lastId = resumeId lastId got := by
  have hevents := ((allReadable_reaches hempty hreach).subscriptions sub hsub).events
  exact ⟨fun _ hpieces => read_pieces hevents hpieces lastId,
    fun _ hbody => read_response hevents hbody lastId⟩

def readableAfter (float : Text -> Text) (acts : List (StreamAct PublishCall)) :
    PublishStream :=
  acts.foldl (Streaming.play (publishingStream float)) (fresh .blank)

theorem sendable_replyCall (float : Text -> Text) {status : String}
    (h : Printable (text status)) : Sendable float (replyCall status).chunkData := by
  have hid : Unpaired (text "message_id") := unpaired_of_printable (printable_of_all (by decide))
  have hstatus : Unpaired (text "status") := unpaired_of_printable (printable_of_all (by decide))
  have hreply : Unpaired (text "r") := unpaired_of_printable (printable_of_all (by decide))
  have hkeys : [text "message_id", text "status"].Nodup := by decide
  constructor
  · intro field hfield
    have hkey : field.1 ∈ [text "message_id", text "status"] := List.mem_map_of_mem hfield
    rintro heq
    rw [heq] at hkey
    exact absurd hkey (by decide)
  · exact .obj hkeys
      (List.forall_mem_cons.mpr ⟨hid, List.forall_mem_singleton.mpr hstatus⟩)
      (List.forall_mem_cons.mpr ⟨.str hreply,
        List.forall_mem_singleton.mpr (.str (unpaired_of_printable h))⟩)

theorem reaches_readableAfter (float : Text -> Text) :
    Streaming.Reaches (publishingStream float) (fresh .blank)
      (readableAfter float readThenFollow) := by
  apply Streaming.reaches_schedule
  apply Streaming.allowsAll_of_forall
  intro act hact st
  cases act with
  | pool act =>
      cases act with
      | start call =>
          have hcall : call = replyCall "streaming" ∨ call = replyCall "completed" := by
            simpa [readThenFollow] using hact
          rcases hcall with rfl | rfl
          · exact sendable_replyCall float (printable_of_all (by decide))
          · exact sendable_replyCall float (printable_of_all (by decide))
      | perform i => exact fun _ _ => trivial
      | fault i => exact fun _ _ _ _ => trivial
      | stop i => exact fun _ _ => ⟨trivial, trivial⟩
  | connect c messageId since => trivial
  | act i a => trivial

theorem readThenFollow_readable : exists sub,
    sub ∈ (readableAfter id readThenFollow).subscriptions ∧ sub.events.length = 2 ∧
      valuesOf id (EventStream.Client.readPieces streamFormat (.idle [])
        (sub.response.map (fun c => [c]))).2 = sub.events.map (fun data => some (.obj data)) := by
  refine ⟨(readableAfter id readThenFollow).subscriptions.get ⟨0, by decide⟩,
    List.get_mem _ _, by decide, ?_⟩
  refine (stream_readable noEvents_blank (reaches_readableAfter id) (List.get_mem _ _) []).left
    _ ?_
  exact List.flatMap_singleton' _

/-!
# Reconnecting
-/

/--
In every run in which every call of Redis succeeds, nothing is trimmed or lost and the calls
of `publish_token` take turns, a client reads a part of the response of a subscription, loses
the connection, and connects again with the id of the last event that it has read. If that
event has been published by then, the values it reads before and after are together a prefix
of what was logged of the message: none is lost between the connections and none comes twice,
wherever the two responses break off.
-/
theorem stream_reconnected {s : Store} (hempty : NoEvents s) {st : PublishStream}
    (hreach : Streaming.Reaches (delivering TakesTurns opensKnown) (fresh s) st)
    {sub sub' : Subscription} (hsub : sub ∈ st.subscriptions) (hsub' : sub' ∈ st.subscriptions)
    (hsame : sub'.conversationId = sub.conversationId) {messageId : Text}
    (hmessage : sub.messageId = some messageId) (hmessage' : sub'.messageId = some messageId)
    (hwire : forall id data, (id, .obj data) ∈ st.pool.store.eventLog sub.conversationId ->
      IsWire float (.obj data))
    (hnone : forall d, d ∈ due (st.pool.store.eventLog sub.conversationId) messageId sub.since ->
      hasStatus (text "failed") d = false)
    {body body' : Text} (hbody : body <+: sub.response) (hbody' : body' <+: sub'.response)
    (hread : (readBody [] body).2 ≠ [])
    (hsince : sub'.since = some (readBody [] body).1.lastId) :
    valuesOf float ((readBody [] body).2 ++ (readBody (readBody [] body).1.lastId body').2) <+:
      (due (st.pool.store.eventLog sub.conversationId) messageId sub.since).map
        (fun data => some (.obj data)) := by
  have hst := delivers_reaches inTurnDiscipline hempty hreach
  have hreadable : forall sub'' : Subscription, sub'' ∈ st.subscriptions ->
      sub''.conversationId = sub.conversationId -> sub''.messageId = some messageId ->
      forall data, data ∈ sub''.events -> Readable float data ∧
        exists id, idText data = some (StreamId.toText id) ∧
          Json.get data (text "event_id") = .str id.toText := by
    intro sub'' hsub'' hc hmessage'' data hdata
    rcases event_logged inTurnDiscipline hst hsub'' hmessage'' hdata with
      ⟨id, logged, hlogged, hnoId, rfl⟩
    rw [hc] at hlogged
    exact ⟨readable_withId ⟨hnoId, hwire id logged hlogged⟩ id, id, idText_withId hnoId id,
      get_withId hnoId id⟩
  have hfirst := hreadable sub hsub rfl hmessage
  have hsecond := hreadable sub' hsub' hsame hmessage'
  rcases read_response (fun data hdata => (hfirst data hdata).left) hbody [] with
    ⟨got, hgot, hvalues, hlast⟩
  rcases read_response (fun data hdata => (hsecond data hdata).left) hbody'
    (readBody [] body).1.lastId with ⟨got', hgot', hvalues', _⟩
  have hboth : valuesOf float
      ((readBody [] body).2 ++ (readBody (readBody [] body).1.lastId body').2) =
        (got ++ got').map (fun data => some (.obj data)) := by
    unfold valuesOf at hvalues hvalues' ⊢
    rw [List.map_append, hvalues, hvalues', List.map_append]
  rw [hboth]
  apply List.IsPrefix.map
  rcases List.eq_nil_or_concat got with rfl | ⟨front, event, rfl⟩
  · exact absurd (List.map_eq_nil_iff.mp hvalues) hread
  · rw [List.concat_eq_append] at hgot hlast ⊢
    rcases (hfirst event (hgot.subset (by simp))).right with ⟨id, htext, hid⟩
    have hsinceId : (readBody [] body).1.lastId = id.toText := by
      rw [hlast]
      unfold resumeId
      rw [List.foldl_append, List.foldl_cons, List.foldl_nil, htext]
      rfl
    have hresumed := resumed_front hempty hreach hsub hsub' hsame hmessage hmessage' hgot hid
      (hsince.trans (congrArg some hsinceId)) hnone
    exact ((List.prefix_append_right_inj (front ++ [event])).mpr hgot').trans hresumed

/-- A client loses its connection, and asks for what follows the event it has read. -/
def reconnects : List (StreamAct PublishCall) :=
  [ .pool (.start (replyCall "streaming")), .pool (.perform 0), .pool (.perform 0),
    .pool (.perform 0), .connect (.ofInt 1) (some (text "r")) none, .act 0 .readLog,
    .act 0 .yieldNext, .act 0 .close,
    .connect (.ofInt 1) (some (text "r")) (some (text "0-0")), .act 1 .readLog,
    .act 1 .yieldNext, .pool (.start (replyCall "completed")), .pool (.perform 1),
    .pool (.perform 1), .pool (.perform 1), .act 1 .getMessage ]

theorem log_reconnects {id : StreamId} {data : Fields}
    (h : (id, .obj data) ∈ (inTurnAfter reconnects).pool.store.eventLog (.ofInt 1)) :
    IsWire (fun repr => repr) (.obj data) := by
  have hlog : (inTurnAfter reconnects).pool.store.eventLog (.ofInt 1) =
      [(⟨0, 0⟩, .obj (replyCall "streaming").chunkData),
        (⟨0, 1⟩, .obj (replyCall "completed").chunkData)] := rfl
  rw [hlog] at h
  rcases List.mem_cons.mp h with heq | h
  · cases heq
    exact (sendable_replyCall _ (printable_of_all (by decide))).wire
  · cases List.mem_singleton.mp h
    exact (sendable_replyCall _ (printable_of_all (by decide))).wire

theorem reconnects_reconnected : exists sub sub',
    sub ∈ (inTurnAfter reconnects).subscriptions ∧
      sub' ∈ (inTurnAfter reconnects).subscriptions ∧
      (readBody [] sub.response).2.length = 1 ∧
      valuesOf (fun repr => repr) ((readBody [] sub.response).2 ++
          (readBody (readBody [] sub.response).1.lastId sub'.response).2) <+:
        (due ((inTurnAfter reconnects).pool.store.eventLog sub.conversationId) (text "r")
          sub.since).map (fun data => some (.obj data)) := by
  have hlength : (inTurnAfter reconnects).subscriptions.length = 2 := by decide
  rcases List.length_eq_two.mp hlength with ⟨first, second, hboth⟩
  have hsubject : (inTurnAfter reconnects).subscriptions.map
      (fun sub => (sub.conversationId, sub.messageId, sub.since)) =
        [(.ofInt 1, some (text "r"), none), (.ofInt 1, some (text "r"), some (text "0-0"))] := by
    decide
  have hread : (inTurnAfter reconnects).subscriptions.map (fun sub =>
      ((readBody [] sub.response).2.length, (readBody [] sub.response).1.lastId)) =
        [(1, text "0-0"), (1, text "0-1")] := by
    decide +kernel
  have hnone : (due ((inTurnAfter reconnects).pool.store.eventLog (.ofInt 1))
      (text "r") none).all (fun d => !hasStatus (text "failed") d) = true := by decide
  rw [hboth] at hsubject hread
  simp only [List.map_cons, List.map_nil, List.cons.injEq, Prod.mk.injEq, and_true]
    at hsubject hread
  rcases hsubject with ⟨⟨hc, hmessage, hsince⟩, hc', hmessage', hsince'⟩
  rcases hread with ⟨⟨hone, hlast⟩, _⟩
  rw [<- hc, <- hsince] at hnone
  have hwire : forall id data,
      (id, .obj data) ∈ (inTurnAfter reconnects).pool.store.eventLog first.conversationId ->
        IsWire (fun repr => repr) (.obj data) := by
    rw [hc]
    exact fun id data h => log_reconnects h
  refine ⟨first, second, by simp [hboth], by simp [hboth], hone, ?_⟩
  exact stream_reconnected noEvents_blank (reaches_inTurnAfter (by decide)) (by simp [hboth])
    (by simp [hboth]) (hc'.trans hc.symm) hmessage hmessage' hwire
    (fun d hd => Bool.not_eq_eq_eq_not.mp (List.all_eq_true.mp hnone d hd))
    List.prefix_rfl List.prefix_rfl (List.ne_nil_of_length_pos (by rw [hone]; exact Nat.one_pos))
    (hsince'.trans (congrArg some hlast.symm))

/--
A client that has read an event from the log before it is published, and connects again before
that, is sent it twice: `subscribe` does not compare what is published with `since`.
-/
def reconnectsEarly : List (StreamAct PublishCall) :=
  [ .pool (.start (replyCall "streaming")), .pool (.perform 0), .pool (.perform 0),
    .connect (.ofInt 1) (some (text "r")) none, .act 0 .readLog, .act 0 .yieldNext,
    .act 0 .close, .connect (.ofInt 1) (some (text "r")) (some (text "0-0")),
    .act 1 .readLog, .act 1 .yieldNext, .pool (.perform 0), .act 1 .getMessage ]

example : (inTurnAfter reconnectsEarly).subscriptions.map (fun sub => eventKeys sub.events) =
    [[toLex (0, 0)], [toLex (0, 0)]] := by
  decide

end StreamService
end ConversationService
