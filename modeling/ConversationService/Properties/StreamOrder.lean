import ConversationService.Library.LiveLog
import ConversationService.Model.StreamService
import ConversationService.Properties.JsonRoundTrip

/-!
# The order of a stream

Whatever happens to the stores and to the connection, a subscription to a message yields
the events of that message only, and their ids increase: no event of the log is delivered
twice on one connection.
-/

namespace ConversationService

open Python Programs

/-!
# Event ids
-/

def StreamId.key (id : StreamId) : StreamService.EventKey :=
  toLex ((id.ms : Int), (id.seq : Int))

namespace StreamService

abbrev Fields : Type := List (Text × Json)

theorem below_iff (id id' : StreamId) : id.Below id' <-> id.key < id'.key := by
  unfold StreamId.Below StreamId.key
  rw [Prod.Lex.toLex_lt_toLex]
  dsimp only
  rw [Int.ofNat_lt, Int.ofNat_inj, Int.ofNat_lt]

theorem unknownKey_lt (id : StreamId) : unknownKey < id.key := by
  unfold unknownKey StreamId.key
  rw [Prod.Lex.toLex_lt_toLex]
  exact Or.inl (by dsimp only; omega)

/-- A numeral as it is written. -/
def IsNumeral (s : Text) : Prop :=
  s ≠ [] ∧ forall c, c ∈ s -> Fingerprint.isDigit c = true

theorem isNumeral_intText (n : Nat) : IsNumeral (intText n) := by
  constructor
  · rcases Fingerprint.digit_of_isInteger (Fingerprint.isInteger_intText n) with
      ⟨c, more, heq, _⟩
    rw [heq]
    exact List.cons_ne_nil c more
  · intro c hc
    rw [Fingerprint.intText_natCast] at hc
    exact Fingerprint.isDigit_of_mem_digitsRev c (List.mem_reverse.mp hc)

theorem digit_bounds {c : CodePoint} (h : Fingerprint.isDigit c = true) :
    0x30 ≤ c.val ∧ c.val ≤ 0x39 := by
  unfold Fingerprint.isDigit at h
  rw [Bool.and_eq_true, decide_eq_true_eq, decide_eq_true_eq] at h
  exact h

theorem digit_ne {c : CodePoint} (h : Fingerprint.isDigit c = true) {d : CodePoint}
    (hd : d.val < 0x30) : c ≠ d := by
  rintro rfl
  exact absurd (digit_bounds h).left (Nat.not_le_of_lt hd)

theorem intDigits_numeral {s : Text} (h : forall c, c ∈ s -> Fingerprint.isDigit c = true)
    (hne : s ≠ []) (afterDigit : Bool) (value : Nat) :
    intDigits afterDigit value s =
      some (s.foldl (fun n c => 10 * n + (c.val - 0x30)) value) := by
  induction s generalizing afterDigit value with
  | nil => exact absurd rfl hne
  | cons c rest ih =>
      rw [intDigits, if_pos (h c List.mem_cons_self), List.foldl_cons]
      cases rest with
      | nil => rfl
      | cons d rest =>
          exact ih (fun x hx => h x (List.mem_cons_of_mem _ hx)) (List.cons_ne_nil d rest)
            true _

theorem pyInt_numeral {s : Text} (h : IsNumeral s) :
    pyInt s = some (Fingerprint.decimal s : Int) := by
  rcases h with ⟨hne, hdigits⟩
  have hascii : asciiNumeral s = s := by
    apply asciiNumeral_ascii
    intro c hc
    have hbounds := digit_bounds (hdigits c hc)
    omega
  have hstrip : stripBy isIntSpace s = s := by
    apply UUID.stripBy_of_forall
    intro c hc
    have hbounds := digit_bounds (hdigits c hc)
    exact isIntSpace_eq_false (by omega)
  unfold pyInt
  rw [hascii, hstrip]
  cases s with
  | nil => exact absurd rfl hne
  | cons c rest =>
      have hc := hdigits c List.mem_cons_self
      dsimp only
      rw [if_neg (digit_ne hc (by decide)), if_neg (digit_ne hc (by decide)),
        intDigits_numeral hdigits hne]
      rfl

theorem pyInt_intText (n : Nat) : pyInt (intText n) = some (n : Int) := by
  rw [pyInt_numeral (isNumeral_intText n), Fingerprint.decimal_intText]

theorem takeWhile_numeral {s : Text} (h : IsNumeral s) (rest : Text) :
    (s ++ 0x2D :: rest).takeWhile (fun c => c != 0x2D) = s ∧
      (s ++ 0x2D :: rest).dropWhile (fun c => c != 0x2D) = 0x2D :: rest := by
  have hall : forall c, c ∈ s -> (c != 0x2D) = true := by
    intro c hc
    exact bne_iff_ne.mpr (digit_ne (h.right c hc) (by decide))
  constructor
  · rw [List.takeWhile_append_of_pos hall]
    exact List.append_nil s
  · rw [List.dropWhile_append_of_pos hall]
    rfl

theorem toText_eq (id : StreamId) : id.toText = intText id.ms ++ 0x2D :: intText id.seq := by
  unfold StreamId.toText
  rw [List.append_assoc]
  rfl

theorem eventIdKey_toText (id : StreamId) : eventIdKey (.str id.toText) = id.key := by
  rcases takeWhile_numeral (isNumeral_intText id.ms) (intText id.seq) with
    ⟨htake, hdrop⟩
  have hseq : (intText id.seq).isEmpty = false := by
    rw [List.isEmpty_eq_false_iff]
    exact (isNumeral_intText id.seq).left
  unfold eventIdKey
  dsimp only [Json.pyStr]
  rw [toText_eq, htake, hdrop, List.drop_one, List.tail_cons, hseq, if_neg Bool.false_ne_true,
    pyInt_intText, pyInt_intText]
  rfl

theorem toText_truthy (id : StreamId) : (Json.str id.toText).truthy = true := by
  unfold Json.truthy
  rw [toText_eq, Bool.not_eq_true', List.isEmpty_eq_false_iff]
  exact List.append_ne_nil_of_right_ne_nil _ (List.cons_ne_nil _ _)

/-!
# The replay log
-/

def LogsIncrease (s : Store) : Prop :=
  forall c, (s.eventLog c).Pairwise (fun row row' => row.1.Below row'.1)

theorem below_next (clockMs : Nat) (id : StreamId) :
    id.Below (.next clockMs (some id)) := by
  unfold StreamId.next StreamId.Below
  dsimp only
  split
  · rename_i hlt
    exact Or.inl hlt
  · exact Or.inr ⟨rfl, Nat.lt_succ_self id.seq⟩

theorem below_trans {id id' id'' : StreamId} (h : id.Below id')
    (h' : id'.Below id'') : id.Below id'' := by
  rw [below_iff] at h h' ⊢
  exact h.trans h'

theorem below_nextEventId {s : Store} {c : UUID}
    (h : (s.eventLog c).Pairwise (fun row row' => row.1.Below row'.1))
    {row : StreamId × Json} (hrow : row ∈ s.eventLog c) :
    row.1.Below (s.nextEventId c) := by
  unfold Store.nextEventId
  rcases List.eq_nil_or_concat (s.eventLog c) with hnil | ⟨front, last, heq⟩
  · rw [hnil] at hrow
    cases hrow
  · rw [List.concat_eq_append] at heq
    rw [heq] at h hrow
    rw [heq, List.getLast?_concat]
    rcases List.mem_append.mp hrow with hfront | hlast
    · exact below_trans ((List.pairwise_append.mp h).right.right row hfront last (by simp))
        (below_next _ _)
    · rw [List.mem_singleton.mp hlast]
      exact below_next _ _

theorem eventLog_exec (o : Op) (s : Store) :
    (o.exec s).2.eventLog = s.eventLog ∨
      exists c event, (o.exec s).2 = s.appendEvent c event := by
  cases o
  case xaddEvent c event => exact Or.inr ⟨c, event, rfl⟩
  all_goals exact Or.inl rfl

theorem logsIncrease_exec (o : Op) {s : Store} (h : LogsIncrease s) :
    LogsIncrease (o.exec s).2 := by
  intro c
  rcases eventLog_exec o s with hsame | ⟨c', event, happend⟩
  · rw [hsame]
    exact h c
  · rw [happend]
    unfold Store.appendEvent
    dsimp only
    by_cases hc : c = c'
    · subst hc
      rw [Function.update_self]
      refine List.pairwise_append.mpr ⟨h c, List.pairwise_singleton _ _, ?_⟩
      intro row hrow new hnew
      rw [List.mem_singleton.mp hnew]
      exact below_nextEventId (h c) hrow
    · rw [Function.update_of_ne hc]
      exact h c

theorem logsIncrease_elapsed {s t : Store} (helapsed : Elapsed s t) (h : LogsIncrease s) :
    LogsIncrease t :=
  fun c => (h c).sublist (helapsed.eventLog c).sublist

/-!
# Replayed events
-/

/-- The key of an event that carries an id. -/
def eventKey? (data : Fields) : Option EventKey :=
  let eventId := Json.get data (text "event_id")
  if eventId.truthy then some (eventIdKey eventId) else none

/-- The keys of the events that carry an id. -/
def eventKeys (events : List Fields) : List EventKey :=
  events.filterMap eventKey?

def IsOf (messageId : Text) (data : Fields) : Prop :=
  (Json.get data (text "message_id")).isText messageId = true

theorem get_cons (key name : Text) (value : Json) (rest : Fields) :
    Json.get ((name, value) :: rest) key =
      if key = name then value else Json.get rest key := by
  unfold Json.get
  rw [List.lookup_cons]
  by_cases h : key = name
  · rw [if_pos h, h, beq_self_eq_true]
  · rw [if_neg h, beq_false_of_ne h]

theorem get_setField (key : Text) (value : Json) (data : Fields) :
    Json.get (setField key value data) key = value := by
  induction data with
  | nil => rw [setField, get_cons, if_pos rfl]
  | cons field rest ih =>
      rcases field with ⟨name, v⟩
      rw [setField]
      split
      · rw [get_cons, if_pos rfl]
      · rename_i hne
        rw [get_cons, if_neg (fun heq => hne heq.symm)]
        exact ih

theorem get_setField_ne {key other : Text} (value : Json) (data : Fields)
    (h : other ≠ key) : Json.get (setField key value data) other = Json.get data other := by
  induction data with
  | nil =>
      rw [setField, get_cons, if_neg h]
  | cons field rest ih =>
      rcases field with ⟨name, v⟩
      rw [setField]
      split
      · rename_i heq
        have hname : name = key := heq
        rw [get_cons, get_cons, if_neg h, hname, if_neg h]
      · rw [get_cons, get_cons, ih]

theorem replayRow_some {messageId : Text} {row : StreamId × Json}
    {data : Fields} (h : replayRow messageId row = some data) :
    eventKey? data = some row.1.key ∧ IsOf messageId data := by
  rcases row with ⟨id, value⟩
  cases value with
  | obj fields =>
      rw [replayRow] at h
      split at h
      · rename_i hmine
        cases h
        constructor
        · unfold eventKey?
          dsimp only
          rw [get_setField, toText_truthy, if_pos rfl, eventIdKey_toText]
        · unfold IsOf
          rw [get_setField_ne _ _ (by decide)]
          exact hmine
      · cases h
  | _ => cases h

theorem eventKeys_rows {messageId : Text} (rows : List (StreamId × Json)) :
    List.Sublist (eventKeys (rows.filterMap (replayRow messageId)))
      (rows.map (fun row => row.1.key)) := by
  induction rows with
  | nil => exact List.Sublist.slnil
  | cons row rest ih =>
      rw [List.map_cons]
      cases hrow : replayRow messageId row with
      | none =>
          rw [List.filterMap_cons_none hrow]
          exact ih.cons _
      | some data =>
          rw [List.filterMap_cons_some hrow]
          unfold eventKeys
          rw [List.filterMap_cons_some (replayRow_some hrow).left]
          exact ih.cons_cons _

theorem dropFailures_sublist (events : List Fields) :
    List.Sublist (dropFailures events) events := by
  unfold dropFailures
  split
  · exact List.filter_sublist
  · exact List.Sublist.refl _

theorem xrange_sublist {log rows : List (StreamId × Json)} {since : Option Text}
    (h : xrange log since = some rows) : List.Sublist rows log := by
  unfold xrange at h
  cases since with
  | none =>
      cases h
      exact List.Sublist.refl _
  | some s =>
      dsimp only at h
      split at h
      · cases h
        exact List.Sublist.refl _
      · rcases Option.map_eq_some_iff.mp h with ⟨bound, _, rfl⟩
        exact List.filter_sublist

/-- What is replayed belongs to the message, carries ids, and these increase. -/
theorem replay_increasing {log : List (StreamId × Json)}
    (h : log.Pairwise (fun row row' => row.1.Below row'.1)) (messageId : Text)
    (since : Option Text) :
    (eventKeys (replay log messageId since)).Pairwise (fun k k' => k < k') ∧
      forall data, data ∈ replay log messageId since -> IsOf messageId data ∧
        exists id : StreamId, eventKey? data = some id.key := by
  unfold replay
  split
  · exact ⟨List.Pairwise.nil, fun data hdata => by cases hdata⟩
  · rename_i rows hrows
    constructor
    · have hkeys : (rows.map (fun row => row.1.key)).Pairwise (fun k k' => k < k') := by
        rw [List.pairwise_map]
        exact (h.sublist (xrange_sublist hrows)).imp (fun hlt => (below_iff _ _).mp hlt)
      exact hkeys.sublist
        (((dropFailures_sublist _).filterMap eventKey?).trans (eventKeys_rows rows))
    · intro data hdata
      rcases List.mem_filterMap.mp ((dropFailures_sublist _).subset hdata) with
        ⟨row, _, hrow⟩
      rcases replayRow_some hrow with ⟨hkey, hmine⟩
      exact ⟨hmine, row.1, hkey⟩

/-!
# One connection
-/

inductive Performs (s : Store) (sub : Subscription) :
    Subscription.Act -> Subscription -> Prop where
  | idle (a : Subscription.Act) : Performs s sub a sub
  | reads (messageId : Text) : sub.phase = .subscribed -> sub.messageId = some messageId ->
      Performs s sub .readLog { sub with
        phase := .replaying (replay (s.eventLog sub.conversationId) messageId sub.since) }
  | skips (a : Subscription.Act) : sub.messageId = none ∨ a = .readFails ->
      Performs s sub a { sub with phase := .following }
  | replayed : sub.phase = .replaying [] ->
      Performs s sub .yieldNext { sub with phase := .following }
  | yields (data : Fields) (rest : List Fields) : sub.phase = .replaying (data :: rest) ->
      Performs s sub .yieldNext (sub.afterYield data
        (max sub.lastEid (eventIdKey (Json.get data (text "event_id")))) (.replaying rest))
  | receives (message : Json) : sub.phase = .following ->
      (s.published sub.conversationId)[sub.position]? = some message ->
      Performs s sub .getMessage (sub.advanced.onMessage message)
  | waits : sub.phase = .following ->
      Performs s sub .wait { sub with frames := sub.frames ++ [.heartbeat] }
  | loses : Performs s sub .lose sub.advanced
  | closes : Performs s sub .close sub.close

theorem performs_perform (s : Store) (sub : Subscription) (a : Subscription.Act) :
    Performs s sub a (sub.perform s a) := by
  cases a with
  | readLog =>
      show Performs s sub .readLog (sub.readLog s)
      unfold Subscription.readLog
      split
      · exact .reads _ ‹_› ‹_›
      · exact .skips _ (Or.inl ‹_›)
      · exact .idle _
  | readFails =>
      show Performs s sub .readFails sub.readFails
      unfold Subscription.readFails
      split
      · exact .skips _ (Or.inr rfl)
      · exact .idle _
  | yieldNext =>
      show Performs s sub .yieldNext sub.yieldNext
      unfold Subscription.yieldNext
      split
      · exact .replayed ‹_›
      · exact .yields _ _ ‹_›
      · exact .idle _
  | getMessage =>
      show Performs s sub .getMessage (sub.getMessage s)
      unfold Subscription.getMessage
      split
      · exact .receives _ ‹_› ‹_›
      · exact .idle _
  | wait =>
      show Performs s sub .wait sub.wait
      unfold Subscription.wait
      split
      · exact .waits ‹_›
      · exact .idle _
  | lose =>
      show Performs s sub .lose (sub.lose s)
      unfold Subscription.lose
      split
      · exact .loses
      · exact .idle _
  | close => exact .closes

theorem events_heartbeat (sub : Subscription) :
    Subscription.events { sub with frames := sub.frames ++ [.heartbeat] } = sub.events := by
  unfold Subscription.events
  rw [List.filterMap_append]
  exact List.append_nil _

/-- The two are subscriptions to the same. -/
structure SameSubject (sub sub' : Subscription) : Prop where
  conversation : sub'.conversationId = sub.conversationId
  message : sub'.messageId = sub.messageId
  since : sub'.since = sub.since

theorem sameSubject_perform (s : Store) (sub : Subscription) (a : Subscription.Act) :
    SameSubject sub (sub.perform s a) := by
  have hperforms := performs_perform s sub a
  generalize sub.perform s a = sub' at hperforms ⊢
  cases hperforms with
  | receives message _ _ =>
      unfold Subscription.onMessage
      split
      · exact ⟨rfl, rfl, rfl⟩
      · exact ⟨rfl, rfl, rfl⟩
  | _ => exact ⟨rfl, rfl, rfl⟩

/-- What a subscription to a message has yielded, and has still to yield of a replay. -/
structure InOrder (messageId : Text) (sub : Subscription) : Prop where
  message : sub.messageId = some messageId
  increasing : (eventKeys sub.events).Pairwise (fun k k' => k < k')
  below : forall k, k ∈ eventKeys sub.events -> k ≤ sub.lastEid
  mine : forall data, data ∈ sub.events -> IsOf messageId data
  known : unknownKey ≤ sub.lastEid
  start : sub.phase = .subscribed -> sub.events = [] ∧ sub.lastEid = unknownKey
  rest : forall events, sub.phase = .replaying events ->
    (eventKeys events).Pairwise (fun k k' => k < k') ∧
      forall data, data ∈ events -> IsOf messageId data ∧
        exists k, eventKey? data = some k ∧ sub.lastEid < k

theorem eventKeys_concat (events : List Fields) (data : Fields) :
    eventKeys (events ++ [data]) = eventKeys events ++ (eventKey? data).toList := by
  unfold eventKeys
  rw [List.filterMap_append]
  cases h : eventKey? data with
  | none => rw [List.filterMap_cons_none h]; rfl
  | some k => rw [List.filterMap_cons_some h]; rfl

theorem events_afterYield (sub : Subscription) (data : Fields)
    (lastEid : EventKey) (phase : Phase) :
    (sub.afterYield data lastEid phase).events = sub.events ++ [data] := by
  unfold Subscription.events Subscription.afterYield
  rw [List.filterMap_append]
  rfl

section Connection

variable {s : Store} {messageId : Text} {sub : Subscription} {data : Fields}

theorem inOrder_afterYield (h : InOrder messageId sub) {lastEid : EventKey}
    {phase : Phase} (hmine : IsOf messageId data)
    (habove : forall k, eventKey? data = some k -> sub.lastEid < k ∧ k ≤ lastEid)
    (hlast : sub.lastEid ≤ lastEid) (hphase : phase ≠ .subscribed)
    (hrest : forall events, phase = .replaying events ->
      (eventKeys events).Pairwise (fun k k' => k < k') ∧
        forall d, d ∈ events -> IsOf messageId d ∧
          exists k, eventKey? d = some k ∧ lastEid < k) :
    InOrder messageId (sub.afterYield data lastEid phase) := by
  have hkeys : forall k, k ∈ (eventKey? data).toList -> sub.lastEid < k ∧ k ≤ lastEid :=
    fun k hk => habove k (Option.mem_toList.mp hk)
  refine ⟨h.message, ?_, ?_, ?_, h.known.trans hlast, ?_, ?_⟩
  · rw [events_afterYield, eventKeys_concat]
    refine List.pairwise_append.mpr ⟨h.increasing, ?_, ?_⟩
    · cases eventKey? data with
      | none => exact List.Pairwise.nil
      | some k => exact List.pairwise_singleton _ _
    · intro k hk k' hk'
      exact lt_of_le_of_lt (h.below k hk) (hkeys k' hk').left
  · rw [events_afterYield, eventKeys_concat]
    exact List.forall_mem_append.mpr
      ⟨fun k hk => (h.below k hk).trans hlast, fun k hk => (hkeys k hk).right⟩
  · rw [events_afterYield]
    exact List.forall_mem_append.mpr ⟨h.mine, List.forall_mem_singleton.mpr hmine⟩
  · intro hstart
    have hphase' : (if isTerminal data then Phase.ended else phase) = .subscribed := hstart
    split at hphase'
    · cases hphase'
    · exact absurd hphase' hphase
  · intro events hevents
    have hphase' : (if isTerminal data then Phase.ended else phase) = .replaying events :=
      hevents
    split at hphase'
    · cases hphase'
    · exact hrest events hphase'

theorem inOrder_of_same {sub' : Subscription} (h : InOrder messageId sub)
    (hmessage : sub'.messageId = sub.messageId)
    (hevents : sub'.events = sub.events) (hlast : sub'.lastEid = sub.lastEid)
    (hphase : sub'.phase = sub.phase ∨ sub'.phase = .following ∨ sub'.phase = .ended) :
    InOrder messageId sub' := by
  refine ⟨hmessage.trans h.message, ?_, ?_, ?_, ?_, ?_, ?_⟩
  · rw [hevents]
    exact h.increasing
  · rw [hevents, hlast]
    exact h.below
  · rw [hevents]
    exact h.mine
  · rw [hlast]
    exact h.known
  · intro hstart
    rcases hphase with hsame | hother | hother
    · rw [hevents, hlast]
      exact h.start (hsame.symm.trans hstart)
    · cases hother.symm.trans hstart
    · cases hother.symm.trans hstart
  · intro events hreplay
    rcases hphase with hsame | hother | hother
    · rw [hlast]
      exact h.rest events (hsame.symm.trans hreplay)
    · cases hother.symm.trans hreplay
    · cases hother.symm.trans hreplay

theorem received_some {lastEid lastEid' : EventKey} {message : Json}
    (h : received (some messageId) lastEid message = some (data, lastEid')) :
    message = .obj data ∧ IsOf messageId data ∧
      lastEid' = max lastEid (eventIdKey (Json.get data (text "event_id"))) ∧
      forall k, eventKey? data = some k -> lastEid < k := by
  cases message with
  | obj fields =>
      unfold received at h
      dsimp only at h
      split at h
      · cases h
      · rename_i hmine
        split at h
        · cases h
        · rename_i hnew
          cases h
          refine ⟨rfl, by simpa [IsOf] using hmine, rfl, ?_⟩
          intro k hk
          unfold eventKey? at hk
          dsimp only at hk
          split at hk
          · rename_i htruthy
            cases hk
            rw [htruthy, Bool.true_and, decide_eq_true_eq] at hnew
            exact lt_of_not_ge hnew
          · cases hk
  | _ => cases h

theorem inOrder_reads (hlogs : LogsIncrease s) (h : InOrder messageId sub)
    (hphase : sub.phase = .subscribed) :
    InOrder messageId { sub with
      phase := .replaying (replay (s.eventLog sub.conversationId) messageId sub.since) } := by
  rcases h.start hphase with ⟨_, hlast⟩
  rcases replay_increasing (hlogs sub.conversationId) messageId sub.since with
    ⟨hincreasing, hall⟩
  refine ⟨h.message, h.increasing, h.below, h.mine, h.known, ?_, ?_⟩
  · intro hstart
    cases hstart
  · intro events hreplay
    cases hreplay
    refine ⟨hincreasing, ?_⟩
    intro data hdata
    rcases hall data hdata with ⟨hmine, id, hkey⟩
    refine ⟨hmine, id.key, hkey, ?_⟩
    dsimp only
    rw [hlast]
    exact unknownKey_lt id

theorem eventIdKey_of_eventKey {k : EventKey} (h : eventKey? data = some k) :
    eventIdKey (Json.get data (text "event_id")) = k := by
  unfold eventKey? at h
  dsimp only at h
  split at h
  · exact Option.some.inj h
  · cases h

theorem inOrder_yields (h : InOrder messageId sub) {rest : List Fields}
    (hphase : sub.phase = .replaying (data :: rest)) :
    InOrder messageId (sub.afterYield data
      (max sub.lastEid (eventIdKey (Json.get data (text "event_id")))) (.replaying rest)) := by
  rcases h.rest _ hphase with ⟨hincreasing, hall⟩
  rcases hall data List.mem_cons_self with ⟨hmine, k, hkey, hlt⟩
  have hsplit : eventKeys (data :: rest) = k :: eventKeys rest := by
    unfold eventKeys
    rw [List.filterMap_cons_some hkey]
  rw [hsplit] at hincreasing
  rcases List.pairwise_cons.mp hincreasing with ⟨hhead, htail⟩
  rw [eventIdKey_of_eventKey hkey, max_eq_right (le_of_lt hlt)]
  refine inOrder_afterYield h hmine ?_ (le_of_lt hlt) (by intro heq; cases heq) ?_
  · intro k' hk'
    cases hkey.symm.trans hk'
    exact ⟨hlt, le_refl k⟩
  · intro events hevents
    cases hevents
    refine ⟨htail, ?_⟩
    intro d hd
    rcases hall d (List.mem_cons_of_mem _ hd) with ⟨hmineD, kd, hkd, _⟩
    exact ⟨hmineD, kd, hkd, hhead kd (List.mem_filterMap.mpr ⟨d, hd, hkd⟩)⟩

theorem inOrder_onMessage (h : InOrder messageId sub) (message : Json) :
    InOrder messageId (sub.onMessage message) := by
  unfold Subscription.onMessage
  rw [h.message]
  split
  · rename_i data lastEid hreceived
    rcases received_some hreceived with ⟨_, hmine, hlast, habove⟩
    refine inOrder_afterYield h hmine ?_ ?_ (by intro heq; cases heq)
      (by intro events heq; cases heq)
    · intro k hk
      refine ⟨habove k hk, ?_⟩
      rw [hlast, eventIdKey_of_eventKey hk]
      exact le_max_right _ _
    · rw [hlast]
      exact le_max_left _ _
  · exact h

/-- What a subscription does keeps the order. -/
theorem inOrder_perform (hlogs : LogsIncrease s) (h : InOrder messageId sub)
    (a : Subscription.Act) :
    InOrder messageId (sub.perform s a) := by
  have hadvanced : InOrder messageId sub.advanced := inOrder_of_same h rfl rfl rfl (Or.inl rfl)
  have hperforms := performs_perform s sub a
  generalize sub.perform s a = sub' at hperforms ⊢
  cases hperforms with
  | idle => exact h
  | reads id hphase hid =>
      cases hid.symm.trans h.message
      exact inOrder_reads hlogs h hphase
  | skips => exact inOrder_of_same h rfl rfl rfl (Or.inr (Or.inl rfl))
  | replayed => exact inOrder_of_same h rfl rfl rfl (Or.inr (Or.inl rfl))
  | yields data rest hphase => exact inOrder_yields h hphase
  | receives message => exact inOrder_onMessage hadvanced message
  | waits => exact inOrder_of_same h rfl (events_heartbeat sub) rfl (Or.inl rfl)
  | loses => exact hadvanced
  | closes => exact inOrder_of_same h rfl rfl rfl (Or.inr (Or.inr rfl))

theorem inOrder_opened (s : Store) (c : UUID) (messageId : Text) (since : Option Text) :
    InOrder messageId (opened s c (some messageId) since) := by
  refine ⟨rfl, List.Pairwise.nil, List.forall_mem_nil _, List.forall_mem_nil _, le_refl _,
    fun _ => ⟨rfl, rfl⟩, ?_⟩
  intro events hevents
  cases hevents

end Connection

/-!
# Runs
-/

/-- The logs increase, and so does what each subscription to a message has yielded. -/
structure AllInOrder {ι alpha : Type} (st : Streaming ι alpha) : Prop where
  logs : LogsIncrease st.pool.store
  subscriptions : forall sub, sub ∈ st.subscriptions -> forall messageId,
    sub.messageId = some messageId -> InOrder messageId sub

theorem logsIncrease_step {ι alpha : Type} {R : Rules ι storage PyExc alpha Store}
    (hmachine : R.machine = storageMachine) (hmoves : forall s t, R.moves s t -> Elapsed s t)
    {c d : Pool ι storage PyExc alpha Store} (hstep : Pool.Step R c d)
    (h : LogsIncrease c.store) : LogsIncrease d.store := by
  rcases Pool.step_store hstep with hsame | hmove | ⟨call, o, next, _, _, hexec, _⟩
  · rw [hsame]
    exact h
  · exact logsIncrease_elapsed (hmoves _ _ hmove) h
  · rw [hexec, hmachine]
    exact logsIncrease_exec o h

theorem allInOrder_step {ι alpha : Type} {R : StreamRules ι alpha}
    (hmachine : R.pool.machine = storageMachine)
    (hmoves : forall s t, R.pool.moves s t -> Elapsed s t) {st st' : Streaming ι alpha}
    (hstep : Streaming.Step R st st') (h : AllInOrder st) : AllInOrder st' := by
  cases hstep with
  | pool c d subs hpool =>
      exact ⟨logsIncrease_step hmachine hmoves hpool h.logs, h.subscriptions⟩
  | connect c subs conversationId messageId since hopen =>
      refine ⟨h.logs, List.forall_mem_append.mpr ⟨h.subscriptions, ?_⟩⟩
      rw [List.forall_mem_singleton]
      intro id hid
      have hmessage : messageId = some id := hid
      rw [hmessage]
      exact inOrder_opened c.store conversationId id since
  | act c before after sub a hact =>
      rcases List.forall_mem_append.mp h.subscriptions with ⟨hbefore, htail⟩
      rcases List.forall_mem_cons.mp htail with ⟨hsub, hafter⟩
      refine ⟨h.logs, List.forall_mem_append.mpr
        ⟨hbefore, List.forall_mem_cons.mpr ⟨?_, hafter⟩⟩⟩
      intro id hid
      rw [(sameSubject_perform c.store sub a).message] at hid
      exact inOrder_perform h.logs (hsub id hid) a

/-!
# Schedules
-/

/-- An act of a run with subscriptions. -/
inductive StreamAct (ι : Type) where
  | pool (act : Pool.Act ι)
  | connect (conversationId : UUID) (messageId since : Option Text)
  | act (i : Nat) (a : Subscription.Act)

namespace Streaming

variable {ι alpha : Type} {R : StreamRules ι alpha} {st : Streaming ι alpha}
  {acts : List (StreamAct ι)}

def play (R : StreamRules ι alpha) (st : Streaming ι alpha) :
    StreamAct ι -> Streaming ι alpha
  | .pool act => ⟨Pool.play R.pool st.pool act, st.subscriptions⟩
  | .connect c messageId since =>
      ⟨st.pool, st.subscriptions ++ [opened st.pool.store c messageId since]⟩
  | .act i a =>
      match st.subscriptions[i]? with
      | some sub => ⟨st.pool, st.subscriptions.set i (sub.perform st.pool.store a)⟩
      | none => st

def Allows (R : StreamRules ι alpha) (st : Streaming ι alpha) :
    StreamAct ι -> Prop
  | .pool act => Pool.Allows R.pool st.pool act
  | .connect c messageId since => R.mayOpen st.pool (opened st.pool.store c messageId since)
  | .act _ a => R.mayAct a

def AllowsAll (R : StreamRules ι alpha) :
    Streaming ι alpha -> List (StreamAct ι) -> Prop
  | _, [] => True
  | st, act :: rest => Allows R st act ∧ AllowsAll R (play R st act) rest

def checks (R : StreamRules ι alpha)
    (ok : Streaming ι alpha -> StreamAct ι -> Bool) :
    Streaming ι alpha -> List (StreamAct ι) -> Bool
  | _, [] => true
  | st, act :: rest => ok st act && checks R ok (play R st act) rest

theorem allowsAll_of_checks {ok : Streaming ι alpha -> StreamAct ι -> Bool}
    (hok : forall st act, ok st act = true -> Allows R st act)
    (h : checks R ok st acts = true) : AllowsAll R st acts := by
  induction acts generalizing st with
  | nil => trivial
  | cons act rest ih =>
      rcases Bool.and_eq_true_iff.mp h with ⟨hact, hrest⟩
      exact ⟨hok st act hact, ih hrest⟩

theorem allowsAll_of_forall (h : forall act, act ∈ acts -> forall st, Allows R st act)
    (st : Streaming ι alpha) : AllowsAll R st acts := by
  induction acts generalizing st with
  | nil => trivial
  | cons act rest ih =>
      exact ⟨h act List.mem_cons_self st,
        ih (fun act' hact' => h act' (List.mem_cons_of_mem act hact')) _⟩

theorem reaches_pool {c d : Pool ι storage PyExc alpha Store} (h : Pool.Reaches R.pool c d)
    (subs : List Subscription) : Reaches R ⟨c, subs⟩ ⟨d, subs⟩ := by
  induction h with
  | refl => exact Relation.ReflTransGen.refl
  | tail _ hstep ih => exact ih.tail (Step.pool _ _ subs hstep)

theorem reaches_play {act : StreamAct ι} (h : Allows R st act) : Reaches R st (play R st act) := by
  rcases st with ⟨c, subs⟩
  cases act with
  | pool act => exact reaches_pool (Pool.reaches_play h) subs
  | connect conversationId messageId since =>
      exact Relation.ReflTransGen.single (Step.connect c subs conversationId messageId since h)
  | act i a =>
      unfold play
      dsimp only
      split
      · rename_i sub hget
        rcases List.getElem?_eq_some_iff.mp hget with ⟨hi, hsub⟩
        have hsplit : subs = subs.take i ++ sub :: subs.drop (i + 1) := by
          rw [<- hsub, List.getElem_cons_drop, List.take_append_drop]
        have hset : subs.set i (sub.perform c.store a) =
            subs.take i ++ sub.perform c.store a :: subs.drop (i + 1) := by
          rw [List.set_eq_take_append_cons_drop, if_pos hi]
        rw [hset]
        conv => lhs; rw [hsplit]
        exact Relation.ReflTransGen.single (Step.act c _ _ sub a h)
      · exact Relation.ReflTransGen.refl

theorem reaches_schedule (h : AllowsAll R st acts) :
    Reaches R st (acts.foldl (play R) st) := by
  induction acts generalizing st with
  | nil => exact Relation.ReflTransGen.refl
  | cons act rest ih => exact (reaches_play h.left).trans (ih h.right)

end Streaming

def anyStream {ι alpha : Type} (program : ι -> Py alpha) : StreamRules ι alpha :=
  { pool := disturbed program (fun _ _ => True) (fun _ _ => True)
    mayOpen := fun _ _ => True
    mayAct := fun _ => True }

/--
In every run of any programs of the service, in which operations may raise, processes may
stop, logs may be trimmed and messages may be lost, each connection for a message yields
events of that message only, and the ids of those that carry one increase.
-/
theorem stream_inOrder {ι alpha : Type} (program : ι -> Py alpha) (s : Store)
    (hempty : forall c, s.eventLog c = []) {st : Streaming ι alpha}
    (hreach : Streaming.Reaches (anyStream program) (fresh s) st) {sub : Subscription}
    (hsub : sub ∈ st.subscriptions) {messageId : Text}
    (hmessage : sub.messageId = some messageId) :
    (eventKeys sub.events).Pairwise (fun k k' => k < k') ∧
      forall data, data ∈ sub.events -> IsOf messageId data := by
  have hall : AllInOrder st := by
    clear hsub
    induction hreach with
    | refl =>
        refine ⟨?_, ?_⟩
        · intro c
          show (s.eventLog c).Pairwise _
          rw [hempty c]
          exact List.Pairwise.nil
        · exact List.forall_mem_nil _
    | tail _ hstep ih => exact allInOrder_step rfl (fun _ _ h => h) hstep ih
  have horder := hall.subscriptions sub hsub messageId hmessage
  exact ⟨horder.increasing, horder.mine⟩

/-- Two events of a reply, as its consumers publish them. -/
def replyCall (status : String) : PublishCall :=
  ⟨.ofInt 1, [(text "message_id", .str (text "r")), (text "status", .str (text status))]⟩

/-- A client reads the first event of a reply from the log and the next one live. -/
def readThenFollow : List (StreamAct PublishCall) :=
  [ .pool (.start (replyCall "streaming")), .pool (.perform 0), .pool (.perform 0),
    .connect (.ofInt 1) (some (text "r")) none, .act 0 .readLog, .pool (.perform 0),
    .act 0 .yieldNext, .act 0 .yieldNext, .act 0 .getMessage,
    .pool (.start (replyCall "completed")), .pool (.perform 1), .pool (.perform 1),
    .pool (.perform 1), .act 0 .getMessage ]

def afterReading : Streaming PublishCall Unit :=
  readThenFollow.foldl (Streaming.play (anyStream PublishCall.program)) (fresh .blank)

theorem reaches_afterReading :
    Streaming.Reaches (anyStream PublishCall.program) (fresh .blank) afterReading := by
  apply Streaming.reaches_schedule
  apply Streaming.allowsAll_of_forall
  intro act _ st
  cases act with
  | pool act =>
      cases act with
      | start call => trivial
      | perform i => exact fun _ _ => trivial
      | fault i => exact fun _ _ _ _ => trivial
      | stop i => exact fun _ _ => ⟨trivial, trivial⟩
  | connect c messageId since => trivial
  | act i a => trivial

theorem readThenFollow_inOrder :
    exists sub, sub ∈ afterReading.subscriptions ∧
      eventKeys sub.events = [toLex (0, 0), toLex (0, 1)] ∧
      (eventKeys sub.events).Pairwise (fun k k' => k < k') := by
  refine ⟨afterReading.subscriptions.get ⟨0, by decide⟩, List.get_mem _ _, by decide, ?_⟩
  exact (stream_inOrder PublishCall.program .blank (fun _ => rfl) reaches_afterReading
    (List.get_mem _ _) (show _ = some (text "r") from rfl)).left

end StreamService
end ConversationService
