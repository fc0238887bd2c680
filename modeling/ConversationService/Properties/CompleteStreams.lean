import ConversationService.Properties.StreamDelivery

/-!
# Complete streams

What the subscriptions of a run have yielded in the end. Where the calls of
`publish_token` take turns, a subscription yields what is asked for in the order of the
log, without a gap and without repetition, and so does a client that reconnects with the
id of the last event it was sent. Where they do not, an event may only be passed over for
one with a later id.
-/

namespace ConversationService
namespace StreamService

open Python Programs LiveLog

/-!
# Opening a subscription
-/

/-- Redis accepts the bound of the replay. -/
def Accepted (sub : Subscription) : Prop :=
  exists key, sinceKey sub.since = some key

/-- The subscription asks for all events, or for those after one that has been published. -/
def Resumes (pool : PublisherPool) (sub : Subscription) : Prop :=
  forall since, sub.since = some since -> since = [] ∨ since = text "0" ∨
    exists data, .obj data ∈ pool.store.published sub.conversationId ∧
      Json.get data (text "event_id") = .str since

/-- All entries are above `since`, or an entry of the channel before `start` has this key. -/
def FromKnown (p : StreamPublishing) (start : Nat) (since : EventKey) : Prop :=
  since = unknownKey ∨ exists e, e ∈ p.channel.take start ∧ e.1 = since

theorem rangePart_intText {n m : Nat} (h : rangePart (intText n) = some m) : m = n := by
  unfold rangePart at h
  rw [Fingerprint.decimal_intText] at h
  split at h
  · exact (Option.some.inj h).symm
  · cases h

theorem sinceKey_toText {id : StreamId} {key : EventKey}
    (h : sinceKey (some id.toText) = some key) : key = id.key := by
  have hdash : (0x2D : CodePoint) ∈ id.toText := by
    rw [toText_eq]
    simp
  unfold sinceKey at h
  dsimp only at h
  split at h
  · rename_i hspecial
    rcases hspecial with hnil | hzero
    · rw [hnil] at hdash
      cases hdash
    · rw [hzero] at hdash
      exact absurd hdash (by decide)
  · rcases Option.map_eq_some_iff.mp h with ⟨bound, hbound, rfl⟩
    rcases takeWhile_numeral (isNumeral_intText id.ms) (intText id.seq) with
      ⟨htake, hdrop⟩
    unfold rangeBound at hbound
    dsimp only at hbound
    rw [if_pos (List.contains_iff_mem.mpr hdash), toText_eq, htake, hdrop, List.drop_one,
      List.tail_cons] at hbound
    split at hbound
    · rename_i ms n hms hn
      cases hbound
      rw [rangePart_intText hms, rangePart_intText hn]
    · cases hbound

theorem sinceKey_labelled {row : StreamId × Fields} (hdata : HasNoId row.2) {since : Text}
    (hid : Json.get (entry row).2 (text "event_id") = .str since) {key : EventKey}
    (hkey : sinceKey (some since) = some key) : (entry row).1 = key := by
  unfold entry at hid ⊢
  dsimp only at hid ⊢
  rw [get_withId hdata] at hid
  cases hid
  exact (sinceKey_toText hkey).symm

theorem Refines.entry_of_mem {c : UUID} {pool : PublisherPool} {p : StreamPublishing}
    (h : Refines c pool p) {e : Entry} (he : e ∈ p.log) :
    exists row, HasNoId row.2 ∧ e = entry row := by
  rcases h.log with ⟨rows, _, hnoId, hlog⟩
  rw [hlog] at he
  rcases List.mem_map.mp he with ⟨row, hrow, rfl⟩
  exact ⟨row, hnoId row hrow, rfl⟩

theorem fromKnown_opened {pool : PublisherPool} {p : StreamPublishing} {sub : Subscription}
    (hrefines : Refines sub.conversationId pool p) (hp : p.Accounted)
    (hresumes : Resumes pool sub) {key : EventKey}
    (hkey : sinceKey sub.since = some key) : FromKnown p p.channel.length key := by
  cases hsince : sub.since with
  | none =>
      rw [hsince] at hkey
      cases hkey
      exact Or.inl rfl
  | some since =>
      rw [hsince] at hkey
      by_cases hspecial : since = [] ∨ since = text "0"
      · unfold sinceKey at hkey
        dsimp only at hkey
        rw [if_pos hspecial] at hkey
        cases hkey
        exact Or.inl rfl
      · rcases hresumes since hsince with hnil | hzero | ⟨data, hdata, hid⟩
        · exact absurd (Or.inl hnil) hspecial
        · exact absurd (Or.inr hzero) hspecial
        · rw [hrefines.channel] at hdata
          rcases List.mem_map.mp hdata with ⟨e, he, heq⟩
          cases heq
          rcases hrefines.entry_of_mem (hp.mem_log he) with ⟨row, hrow, rfl⟩
          refine Or.inr ⟨entry row, ?_, sinceKey_labelled hrow hid hkey⟩
          rw [List.take_length]
          exact he

/-!
# Publishers that take turns
-/

section InTurn

variable {c : UUID} {pool : PublisherPool} {p : StreamPublishing} {start position : Nat}
  {since : EventKey} {messageId : Text} {base got : List Entry}

def opensKnown (pool : PublisherPool) (sub : Subscription) : Prop :=
  Accepted sub ∧ Resumes pool sub

theorem inTurnDiscipline :
    Discipline TakesTurns opensKnown Publishing.InTurn FromKnown where
  initial := ⟨List.Pairwise.nil, rfl, Nat.zero_le 1⟩
  accounted := fun _ hp => hp.accounted
  step := fun _ _ _ _ _ hrefines hstep hp => hstep.inTurn hrefines hp
  accepted := fun _ _ hopen => hopen.left
  opens := by
    intro pool sub p key hrefines hp hopen hkey
    exact fromKnown_opened hrefines hp.accounted hopen.right hkey
  stable := by
    intro p q start key hstep hfits
    rcases hfits with hunknown | ⟨e, he, hkey⟩
    · exact Or.inl hunknown
    · rcases (Publishing.step_log hstep).right with ⟨rest, hrest⟩
      refine Or.inr ⟨e, ?_, hkey⟩
      rw [<- hrest, List.take_append]
      exact List.mem_append_left _ he

theorem above_fromKnown (hp : p.InTurn) (hrefines : Refines c pool p)
    (hfits : FromKnown p start since) {e : Entry} (he : e ∈ p.channel.drop start) :
    since < e.1 := by
  rcases hfits with rfl | ⟨d, hd, rfl⟩
  · exact (hrefines.labelled (hp.accounted.mem_log (List.mem_of_mem_drop he))).right
  · have hchannel : Increasing (p.channel.take start ++ p.channel.drop start) := by
      rw [List.take_append_drop]
      refine hp.increasing.sublist ?_
      rw [hp.sent]
      exact List.sublist_append_left _ _
    exact (List.pairwise_append.mp hchannel).right.right d hd e he

theorem shown_asked (hp : p.InTurn) (hrefines : Refines c pool p) (messageId : Text)
    (hreads : Reader.Reads p ⟨base, start, position⟩) (hfits : FromKnown p start since) :
    Reader.shown since (wants messageId) unknownKey ⟨base, start, position⟩ p.channel =
      (p.log.take (max base.length position)).filter (asked messageId since) :=
  Reader.shown_inTurn hp hreads (fun _ he => (hrefines.labelled he).right)
    (fun _ he => above_fromKnown hp hrefines hfits he)

theorem filter_take_prefix {α : Type} (l : List α) (n : Nat) (q : α -> Bool) :
    exists k, (l.take n).filter q = (l.filter q).take k := by
  refine ⟨((l.take n).filter q).length, ?_⟩
  have hsplit : l.filter q = (l.take n).filter q ++ (l.drop n).filter q := by
    rw [<- List.filter_append, List.take_append_drop]
  rw [hsplit, List.take_left' rfl]

/-- What a subscription has yielded of the entries that are asked for. -/
theorem yielded_inTurn (hp : p.InTurn) (hrefines : Refines c pool p)
    (hfits : FromKnown p start since) (h : Yielded messageId since p start got) :
    got <+: p.log.filter (asked messageId since) ∨
      exists n, got <+: dropFailed ((p.log.filter (asked messageId since)).take n) := by
  cases h with
  | replayed base hbase hgot =>
      have hfront : base = p.log.take base.length := List.prefix_iff_eq_take.mp hbase
      rcases filter_take_prefix p.log base.length (asked messageId since) with ⟨n, hn⟩
      rw [hfront, hn] at hgot
      exact Or.inr ⟨n, hgot⟩
  | followed base position hreads hgot =>
      rcases filter_take_prefix p.log (max base.length position) (asked messageId since) with
        ⟨n, hn⟩
      rw [shown_asked hp hrefines messageId hreads hfits, hn] at hgot
      rw [hgot]
      exact Or.inl (List.take_prefix _ _)

theorem yielded_of_tracks {sub : Subscription} (h : Tracks messageId since p start sub) :
    exists got, sub.events = got.map Prod.snd ∧ Yielded messageId since p start got := by
  cases h with
  | subscribed hphase hevents hlast hposition hstart =>
      exact ⟨[], hevents, .replayed [] List.nil_prefix List.nil_prefix⟩
  | replaying base got rest hphase hevents hlast hposition hreads hgot hopen =>
      exact ⟨got, hevents, .replayed base hreads.base ⟨rest, hgot⟩⟩
  | following base got hphase hevents hlast hreads hgot hopen =>
      exact ⟨got, hevents, .followed base sub.position hreads hgot⟩
  | ended got hphase hevents hyielded => exact ⟨got, hevents, hyielded⟩

/-- No call goes on, and the subscription has been handed all that was published. -/
def Drained (st : PublishStream) (sub : Subscription) : Prop :=
  st.pool.Quiet ∧ sub.position = (st.pool.store.published sub.conversationId).length

theorem pending_of_quiet (hrefines : Refines c pool p) (hquiet : pool.Quiet) : p.pending = [] := by
  apply pending_nil hrefines
  intro u hu hsends
  have hdone := hquiet u hu
  cases hprog : u.prog with
  | op o next =>
      rw [hprog] at hdone
      exact hdone trivial
  | ret a =>
      rw [hprog] at hsends
      cases hsends
  | raise e =>
      rw [hprog] at hsends
      cases hsends

theorem Refines.due (h : Refines c pool p) (messageId : Text) {since : Option Text} {key : EventKey}
    (hkey : sinceKey since = some key) :
    StreamService.due (pool.store.eventLog c) messageId since =
      (p.log.filter (asked messageId key)).map Prod.snd := by
  rcases h.log with ⟨rows, hrows, hnoId, hlog⟩
  rw [hrows, (due_entries hnoId messageId hkey).left, hlog]

end InTurn

/--
In every run in which every call of Redis succeeds, nothing is trimmed or lost, the calls of
`publish_token` take turns, and subscriptions start from the beginning or behind an event
that has been published by then: a subscription to a message has yielded a prefix of the
events that it asks for, in the order of the log; a failure may be missing where the replay
has read that the message was completed after all. Once all is published and received, it has
yielded every event, unless it has ended.
-/
theorem stream_complete {s : Store} (hempty : NoEvents s) {st : PublishStream}
    (hreach : Streaming.Reaches (delivering TakesTurns opensKnown) (fresh s) st)
    {sub : Subscription} (hsub : sub ∈ st.subscriptions) {messageId : Text}
    (hmessage : sub.messageId = some messageId) :
    let events := due (st.pool.store.eventLog sub.conversationId) messageId sub.since
    (sub.events <+: events ∨ exists n, sub.events <+: dropFailures (events.take n)) ∧
      (sub.phase = .following -> Drained st sub -> sub.events = events) := by
  rcases (delivers_reaches inTurnDiscipline hempty hreach).conversations sub.conversationId
    with ⟨p, hrefines, hp, hfollows⟩
  rcases hfollows sub hsub rfl messageId hmessage with ⟨key, start, hkey, hfits, htracks⟩
  intro events
  have hevents : events = (p.log.filter (asked messageId key)).map Prod.snd :=
    hrefines.due messageId hkey
  rw [hevents]
  constructor
  · rcases yielded_of_tracks htracks with ⟨got, hgot, hyielded⟩
    rw [hgot]
    rcases yielded_inTurn hp hrefines hfits hyielded with hfront | ⟨n, hfront⟩
    · exact Or.inl (hfront.map Prod.snd)
    · refine Or.inr ⟨n, ?_⟩
      rw [<- List.map_take, <- map_dropFailed]
      exact hfront.map Prod.snd
  · intro hphase hdrained
    have hpending := pending_of_quiet hrefines hdrained.left
    have hlog : p.log = p.channel := by rw [hp.sent, hpending, List.append_nil]
    have hposition : sub.position = p.log.length := by
      rw [hdrained.right, hrefines.channel, List.length_map, hlog]
    cases htracks with
    | subscribed hother => cases hother.symm.trans hphase
    | replaying base got rest hother => cases hother.symm.trans hphase
    | following base got _ hgot hlast hreads hshown hopen =>
        rw [hgot, hshown, shown_asked hp hrefines messageId hreads hfits,
          List.take_of_length_le (hposition ▸ le_max_right _ _)]
    | ended got hother => cases hother.symm.trans hphase

def takesTurn? (pool : PublisherPool) (t : PublishTask) : Bool :=
  match logsTo t.prog with
  | some c => pool.tasks.all (fun u => sendsTo u.prog != some c)
  | none => true

theorem takesTurns_of_test {pool : PublisherPool} {t : PublishTask}
    (h : takesTurn? pool t = true) : TakesTurns pool t := by
  intro c hlogs u hu
  unfold takesTurn? at h
  rw [hlogs] at h
  exact bne_iff_ne.mp (List.all_eq_true.mp h u hu)

def isPublished (published : List Json) (since : Text) : Bool :=
  published.any (fun event =>
    match event with
    | .obj data => (Json.get data (text "event_id")).isText since
    | _ => false)

/-- A test whether an act is allowed, where tasks are tested for their turn. -/
def calmActs (turn : PublisherPool -> PublishTask -> Bool)
    (st : PublishStream) : StreamAct PublishCall -> Bool
  | .pool (.start call) => call.chunkData.all (fun field => field.1 != text "event_id")
  | .pool (.perform i) => (st.pool.tasks[i]?).all (turn st.pool)
  | .pool _ => false
  | .connect c _ since =>
      (sinceKey since).isSome && since.all (isPublished (st.pool.store.published c))
  | .act _ a => a != .readFails && a != .lose

theorem resumes_of_test {pool : PublisherPool} {sub : Subscription}
    (h : sub.since.all (isPublished (pool.store.published sub.conversationId)) = true) :
    Resumes pool sub := by
  intro since hsince
  rw [hsince] at h
  rcases List.any_eq_true.mp h with ⟨event, hevent, hid⟩
  cases event with
  | obj data =>
      exact Or.inr (Or.inr ⟨data, hevent, eq_of_isText hid⟩)
  | _ => cases hid

theorem allows_calmActs {mayOpen : PublisherPool -> Subscription -> Prop}
    {turn : PublisherPool -> PublishTask -> Bool}
    (hturn : forall pool t, turn pool t = true -> permits pool t)
    (hopens : forall pool sub, opensKnown pool sub -> mayOpen pool sub)
    (st : PublishStream) (act : StreamAct PublishCall)
    (h : calmActs turn st act = true) :
    Streaming.Allows (delivering permits mayOpen) st act := by
  cases act with
  | pool act =>
      cases act with
      | start call =>
          intro field hfield
          exact bne_iff_ne.mp (List.all_eq_true.mp h field hfield)
      | perform i =>
          intro t ht
          unfold calmActs at h
          dsimp only at h
          rw [ht] at h
          exact hturn st.pool t h
      | fault i => cases h
      | stop i => cases h
  | connect c messageId since =>
      rcases Bool.and_eq_true_iff.mp h with ⟨hkey, hpublished⟩
      exact hopens _ _ ⟨Option.isSome_iff_exists.mp hkey, resumes_of_test hpublished⟩
  | act i a =>
      rcases Bool.and_eq_true_iff.mp h with ⟨hfails, hlose⟩
      exact ⟨bne_iff_ne.mp hfails, bne_iff_ne.mp hlose⟩

def inTurnAfter (acts : List (StreamAct PublishCall)) : PublishStream :=
  acts.foldl (Streaming.play (delivering TakesTurns opensKnown)) (fresh .blank)

theorem reaches_inTurnAfter {acts : List (StreamAct PublishCall)}
    (h : Streaming.checks (delivering TakesTurns opensKnown) (calmActs takesTurn?)
      (fresh .blank) acts = true) :
    Streaming.Reaches (delivering TakesTurns opensKnown) (fresh .blank) (inTurnAfter acts) :=
  Streaming.reaches_schedule (Streaming.allowsAll_of_checks
    (allows_calmActs (fun _ _ => takesTurns_of_test) (fun _ _ h => h)) h)

theorem noEvents_blank : NoEvents .blank := fun _ => ⟨rfl, rfl⟩

theorem readThenFollow_complete : exists sub, sub ∈ (inTurnAfter readThenFollow).subscriptions ∧
    sub.events.length = 2 ∧
    (sub.events <+: due ((inTurnAfter readThenFollow).pool.store.eventLog sub.conversationId)
        (text "r") none ∨
      exists n, sub.events <+: dropFailures
        ((due ((inTurnAfter readThenFollow).pool.store.eventLog sub.conversationId)
          (text "r") none).take n)) := by
  refine ⟨(inTurnAfter readThenFollow).subscriptions.get ⟨0, by decide⟩, List.get_mem _ _,
    by decide, ?_⟩
  exact (stream_complete noEvents_blank (reaches_inTurnAfter (by decide)) (List.get_mem _ _)
    (show _ = some (text "r") from rfl)).left

/-!
# Reconnecting
-/

section Reconnecting

variable {p : StreamPublishing} {start : Nat} {since : EventKey} {messageId : Text}
  {got : List Entry} {e : Entry}

theorem dropFailed_noFailure {entries : List Entry}
    (h : forall e, e ∈ entries -> hasStatus (text "failed") e.2 = false) :
    dropFailed entries = entries := by
  unfold dropFailed
  split
  · apply List.filter_eq_self.mpr
    intro e he
    rw [h e he]
    rfl
  · rfl

theorem yielded_front (hp : p.InTurn) {c : UUID} {pool : PublisherPool}
    (hrefines : Refines c pool p) (hfits : FromKnown p start since)
    (hnone : forall e, e ∈ p.log.filter (asked messageId since) ->
      hasStatus (text "failed") e.2 = false) (h : Yielded messageId since p start got) :
    got <+: p.log.filter (asked messageId since) := by
  rcases yielded_inTurn hp hrefines hfits h with hfront | ⟨n, hfront⟩
  · exact hfront
  · rw [dropFailed_noFailure (fun e he => hnone e (List.mem_of_mem_take he))] at hfront
    exact hfront.trans (List.take_prefix _ _)

theorem filter_asked_after {log front back : List Entry} (hlog : Increasing log)
    (h : log.filter (asked messageId since) = front ++ e :: back) :
    log.filter (asked messageId e.1) = back := by
  have hmem : e ∈ log.filter (asked messageId since) := by
    rw [h]
    simp
  have hsince : since < e.1 := by
    have hasked := (List.mem_filter.mp hmem).right
    unfold asked at hasked
    exact of_decide_eq_true (Bool.and_eq_true_iff.mp hasked).right
  have hboth : log.filter (asked messageId e.1) =
      (log.filter (asked messageId since)).filter (fun d => e.1 < d.1) := by
    rw [List.filter_filter]
    apply List.filter_congr
    intro d _
    unfold asked
    by_cases hd : e.1 < d.1
    · rw [decide_eq_true hd, decide_eq_true (hsince.trans hd), Bool.and_true, Bool.true_and]
    · rw [decide_eq_false hd, Bool.and_false, Bool.false_and]
  have hincreasing : Increasing (front ++ e :: back) := by
    rw [<- h]
    exact hlog.sublist List.filter_sublist
  rw [hboth, h, hincreasing.filter_above]

theorem yielded_mem (hp : p.Accounted) (h : Yielded messageId since p start got) (he : e ∈ got) :
    e ∈ p.log.filter (wants messageId) := by
  have hasked : forall base : List Entry, base <+: p.log ->
      e ∈ base.filter (asked messageId since) -> e ∈ p.log.filter (wants messageId) := by
    intro base hbase hmem
    rcases List.mem_filter.mp hmem with ⟨hin, htest⟩
    exact List.mem_filter.mpr ⟨hbase.subset hin, (Bool.and_eq_true_iff.mp htest).left⟩
  cases h with
  | replayed base hbase hgot =>
      exact hasked base hbase ((dropFailed_sublist _).subset (hgot.subset he))
  | followed base position hreads hgot =>
      rw [hgot] at he
      rcases List.mem_append.mp he with hbase | hfollow
      · exact hasked base hreads.base hbase
      · rcases List.mem_filter.mp (mem_follow hfollow) with ⟨hin, htest⟩
        exact List.mem_filter.mpr
          ⟨hp.mem_log (List.mem_of_mem_take (List.mem_of_mem_drop hin)), htest⟩

end Reconnecting

/--
A subscription that asks for what follows an event that another one has yielded: what the
first one has yielded up to there, and what the second one yields, is together a prefix of
what the first one has asked for.
-/
theorem resumed_front {s : Store} (hempty : NoEvents s) {st : PublishStream}
    (hreach : Streaming.Reaches (delivering TakesTurns opensKnown) (fresh s) st)
    {sub sub' : Subscription} (hsub : sub ∈ st.subscriptions) (hsub' : sub' ∈ st.subscriptions)
    (hsame : sub'.conversationId = sub.conversationId) {messageId : Text}
    (hmessage : sub.messageId = some messageId) (hmessage' : sub'.messageId = some messageId)
    {events : List Fields} {event : Fields} {since : Text}
    (hevents : events ++ [event] <+: sub.events)
    (hid : Json.get event (text "event_id") = .str since) (hsince : sub'.since = some since)
    (hnone : forall d, d ∈ due (st.pool.store.eventLog sub.conversationId) messageId sub.since ->
      hasStatus (text "failed") d = false) :
    events ++ [event] ++ sub'.events <+:
      due (st.pool.store.eventLog sub.conversationId) messageId sub.since := by
  rcases (delivers_reaches inTurnDiscipline hempty hreach).conversations sub.conversationId
    with ⟨p, hrefines, hp, hfollows⟩
  rcases hfollows sub hsub rfl messageId hmessage with ⟨key, start, hkey, hfits, htracks⟩
  rcases hfollows sub' hsub' hsame messageId hmessage' with
    ⟨key', start', hkey', hfits', htracks'⟩
  rcases yielded_of_tracks htracks with ⟨got, hgot, hyielded⟩
  rcases yielded_of_tracks htracks' with ⟨got', hgot', hyielded'⟩
  rw [hrefines.due messageId hkey] at hnone ⊢
  have hquiet : forall e, e ∈ p.log.filter (asked messageId key) ->
      hasStatus (text "failed") e.2 = false :=
    fun e he => hnone e.2 (List.mem_map_of_mem he)
  -- the entry of the event, among those that the first subscription asks for
  have hfront : events ++ [event] <+: (p.log.filter (asked messageId key)).map Prod.snd := by
    rw [hgot] at hevents
    exact hevents.trans ((yielded_front hp hrefines hfits hquiet hyielded).map Prod.snd)
  rcases hfront with ⟨more, hmore⟩
  rw [List.append_assoc] at hmore
  rcases List.map_eq_append_iff.mp hmore.symm with ⟨front, tail, hsplit, hfront, htail⟩
  rcases List.map_eq_cons_iff.mp htail with ⟨e, back, rfl, hlast, hback⟩
  have hmem : e ∈ p.log := by
    apply List.mem_of_mem_filter (p := asked messageId key)
    rw [hsplit]
    simp
  have hbound : e.1 = key' := by
    rcases hrefines.entry_of_mem hmem with ⟨row, hrow, rfl⟩
    rw [hsince] at hkey'
    rw [<- hlast] at hid
    exact sinceKey_labelled hrow hid hkey'
  have hafter : p.log.filter (asked messageId key') = back := by
    rw [<- hbound]
    exact filter_asked_after hp.increasing hsplit
  have hrest : got' <+: back := by
    rw [<- hafter]
    refine yielded_front hp hrefines hfits' ?_ hyielded'
    intro d hd
    apply hquiet
    rw [hafter] at hd
    rw [hsplit]
    exact List.mem_append_right _ (List.mem_cons_of_mem _ hd)
  rw [hgot', hsplit, List.map_append, List.map_cons, hfront, hlast, List.append_assoc]
  exact (List.prefix_append_right_inj events).mpr
    ((List.prefix_append_right_inj [event]).mpr (hrest.map Prod.snd))

theorem event_logged {mayOpen : PublisherPool -> Subscription -> Prop}
    {Good : StreamPublishing -> Prop} {Fits : StreamPublishing -> Nat -> EventKey -> Prop}
    (h : Discipline permits mayOpen Good Fits) {st : PublishStream}
    (hst : Delivers Good Fits st) {sub : Subscription} (hsub : sub ∈ st.subscriptions)
    {messageId : Text} (hmessage : sub.messageId = some messageId) {event : Fields}
    (hevent : event ∈ sub.events) :
    exists id data, (id, .obj data) ∈ st.pool.store.eventLog sub.conversationId ∧
      HasNoId data ∧ event = withId id data := by
  rcases hst.conversations sub.conversationId with ⟨p, hrefines, hgood, hfollows⟩
  rcases hfollows sub hsub rfl messageId hmessage with ⟨key, start, hkey, _, htracks⟩
  rcases yielded_of_tracks htracks with ⟨got, hgot, hyielded⟩
  rw [hgot] at hevent
  rcases List.mem_map.mp hevent with ⟨e, he, rfl⟩
  have hmem := List.mem_of_mem_filter (yielded_mem (h.accounted p hgood) hyielded he)
  rcases hrefines.log with ⟨rows, hrows, hnoId, hlog⟩
  rw [hlog] at hmem
  rcases List.mem_map.mp hmem with ⟨row, hrow, rfl⟩
  refine ⟨row.1, row.2, ?_, hnoId row hrow, rfl⟩
  rw [hrows]
  exact List.mem_map.mpr ⟨row, hrow, rfl⟩

/-!
# Publishers that do not take turns
-/

theorem anyDiscipline :
    Discipline (fun _ _ => True) (fun _ sub => Accepted sub) Publishing.Accounted
      (fun _ _ _ => True) where
  initial := ⟨List.Pairwise.nil, List.Perm.refl _⟩
  accounted := fun _ hp => hp
  step := fun _ _ _ _ _ _ hstep hp => hstep.accounted hp
  accepted := fun _ _ hopen => hopen
  opens := fun _ _ _ _ _ _ _ _ => trivial
  stable := fun _ _ _ _ _ _ => trivial

/--
In every run of concurrent calls of `publish_token` in which every call of Redis succeeds and
nothing is trimmed or lost, a subscription to a message yields nothing but events of the log
of that message. Once all is published and received, each event that it asks for has been
yielded, or one with a later id has, unless it has ended.
-/
theorem stream_overtaken {s : Store} (hempty : NoEvents s) {st : PublishStream}
    (hreach : Streaming.Reaches
      (delivering (fun _ _ => True) (fun _ sub => Accepted sub)) (fresh s) st)
    {sub : Subscription} (hsub : sub ∈ st.subscriptions) {messageId : Text}
    (hmessage : sub.messageId = some messageId) :
    (forall event, event ∈ sub.events ->
      event ∈ due (st.pool.store.eventLog sub.conversationId) messageId none) ∧
      (sub.phase = .following -> Drained st sub -> forall event,
        event ∈ due (st.pool.store.eventLog sub.conversationId) messageId sub.since ->
          event ∈ sub.events ∨ exists later, later ∈ sub.events ∧
            eventIdKey (Json.get event (text "event_id")) <
              eventIdKey (Json.get later (text "event_id"))) := by
  rcases (delivers_reaches anyDiscipline hempty hreach).conversations sub.conversationId
    with ⟨p, hrefines, hp, hfollows⟩
  rcases hfollows sub hsub rfl messageId hmessage with ⟨key, start, hkey, _, htracks⟩
  constructor
  · intro event hevent
    rcases yielded_of_tracks htracks with ⟨got, hgot, hyielded⟩
    rw [hgot] at hevent
    rcases List.mem_map.mp hevent with ⟨e, he, rfl⟩
    rcases hrefines.log with ⟨rows, _, _, hlog⟩
    rw [hrefines.due messageId rfl, hlog, asked_unknown, <- hlog]
    exact List.mem_map_of_mem (yielded_mem hp hyielded he)
  · intro hphase hdrained event hevent
    rw [hrefines.due messageId hkey] at hevent
    rcases List.mem_map.mp hevent with ⟨e, he, rfl⟩
    rcases List.mem_filter.mp he with ⟨hlogged, hasked⟩
    unfold asked at hasked
    rcases Bool.and_eq_true_iff.mp hasked with ⟨hwants, hsince⟩
    have hsent : e ∈ p.channel := by
      have hmem := hp.sent.mem_iff.mp hlogged
      rw [pending_of_quiet hrefines hdrained.left, List.append_nil] at hmem
      exact hmem
    have hposition : sub.position = p.channel.length := by
      rw [hdrained.right, hrefines.channel, List.length_map]
    cases htracks with
    | subscribed hother => cases hother.symm.trans hphase
    | replaying base got rest hother => cases hother.symm.trans hphase
    | following base got _ hgot hlast hreads hshown hopen =>
        have htaken : e ∈ p.channel.take sub.position := by
          rw [hposition, List.take_length]
          exact hsent
        rw [hgot, hshown]
        have habove : forall d, d ∈ p.log -> unknownKey < d.1 :=
          fun d hd => (hrefines.labelled hd).right
        rcases Reader.shown_or_overtaken hp hreads habove hwants (of_decide_eq_true hsince)
          (Or.inr htaken) with hyes | ⟨later, hlater, hlt⟩
        · exact Or.inl (List.mem_map_of_mem hyes)
        · refine Or.inr ⟨later.2, List.mem_map_of_mem hlater, ?_⟩
          have hmem : later ∈ p.log := by
            rw [<- hshown] at hlater
            exact List.mem_of_mem_filter (yielded_mem hp
              (.followed base sub.position hreads hshown) hlater)
          rw [(hrefines.labelled hlogged).left.right, (hrefines.labelled hmem).left.right]
          exact hlt
    | ended got hother => cases hother.symm.trans hphase

/-- Two events are published in the other order than they have been logged. -/
def overtakes : List (StreamAct PublishCall) :=
  [ .connect (.ofInt 1) (some (text "r")) none, .act 0 .readLog, .act 0 .yieldNext,
    .pool (.start (replyCall "streaming")), .pool (.start (replyCall "streaming")),
    .pool (.perform 0), .pool (.perform 1), .pool (.perform 0), .pool (.perform 1),
    .pool (.perform 1), .pool (.perform 0), .act 0 .getMessage, .act 0 .getMessage ]

def anyAfter (acts : List (StreamAct PublishCall)) : PublishStream :=
  acts.foldl (Streaming.play (delivering (fun _ _ => True) (fun _ sub => Accepted sub)))
    (fresh .blank)

theorem overtakes_overtaken : exists sub, sub ∈ (anyAfter overtakes).subscriptions ∧
    sub.events.length = 1 ∧
    (due ((anyAfter overtakes).pool.store.eventLog sub.conversationId) (text "r")
      sub.since).length = 2 ∧
    forall event, event ∈ due ((anyAfter overtakes).pool.store.eventLog sub.conversationId)
        (text "r") sub.since -> event ∈ sub.events ∨ exists later, later ∈ sub.events ∧
          eventIdKey (Json.get event (text "event_id")) <
            eventIdKey (Json.get later (text "event_id")) := by
  refine ⟨(anyAfter overtakes).subscriptions.get ⟨0, by decide⟩, List.get_mem _ _, by decide,
    by decide, ?_⟩
  have hreach : Streaming.Reaches (delivering (fun _ _ => True) (fun _ sub => Accepted sub))
      (fresh .blank) (anyAfter overtakes) :=
    Streaming.reaches_schedule (Streaming.allowsAll_of_checks
      (allows_calmActs (fun _ _ _ => trivial) (fun _ _ h => h.left))
      (show Streaming.checks _ (calmActs (fun _ _ => true)) _ overtakes = true by decide))
  exact (stream_overtaken noEvents_blank hreach (List.get_mem _ _)
    (show _ = some (text "r") from rfl)).right rfl ⟨by decide, by decide⟩

end StreamService
end ConversationService
