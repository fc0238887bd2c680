import ConversationService.Properties.StreamPublishers

/-!
# Delivery of a stream

A subscription to a message, while every call of Redis succeeds, nothing is trimmed and no
message is lost, is a reader of the log and the channel of its conversation.
-/

namespace ConversationService
namespace StreamService

open Python Programs LiveLog

/-!
# What is asked for
-/

/-- The key above which events are asked for; `none` is an error of Redis. -/
def sinceKey : Option Text -> Option EventKey
  | none => some unknownKey
  | some s =>
      if s = [] ∨ s = text "0" then some unknownKey else (rangeBound s).map StreamId.key

def wants (messageId : Text) (e : Entry) : Bool :=
  (Json.get e.2 (text "message_id")).isText messageId

def asked (messageId : Text) (since : EventKey) (e : Entry) : Bool :=
  wants messageId e && decide (since < e.1)

/-- `dropFailures` on entries. -/
def dropFailed (entries : List Entry) : List Entry :=
  if entries.any (fun e => hasStatus (text "completed") e.2) then
    entries.filter (fun e => !hasStatus (text "failed") e.2)
  else entries

theorem map_dropFailed (entries : List Entry) :
    (dropFailed entries).map Prod.snd = dropFailures (entries.map Prod.snd) := by
  unfold dropFailed dropFailures
  rw [List.any_map]
  show _ = if entries.any (fun e => hasStatus (text "completed") e.2) = true then _ else _
  by_cases h : entries.any (fun e => hasStatus (text "completed") e.2) = true
  · rw [if_pos h, if_pos h, List.filter_map]
    rfl
  · rw [if_neg h, if_neg h]

theorem dropFailed_sublist (entries : List Entry) :
    List.Sublist (dropFailed entries) entries := by
  unfold dropFailed
  split
  · exact List.filter_sublist
  · exact List.Sublist.refl _

theorem eq_of_isText {value : Json} {t : Text} (h : value.isText t = true) :
    value = .str t := by
  cases value with
  | str s =>
      unfold Json.isText at h
      rw [eq_of_beq h]
  | _ => cases h

theorem dropFailed_eq_self {entries : List Entry}
    (h : forall e, e ∈ dropFailed entries -> isTerminal e.2 = false) :
    dropFailed entries = entries := by
  unfold dropFailed at h ⊢
  split
  · rename_i hany
    rw [if_pos hany] at h
    rcases List.any_eq_true.mp hany with ⟨e, he, hcompleted⟩
    have hkept : e ∈ entries.filter (fun e => !hasStatus (text "failed") e.2) := by
      refine List.mem_filter.mpr ⟨he, ?_⟩
      rw [Bool.not_eq_true', <- Bool.not_eq_true]
      intro hfailed
      unfold hasStatus at hcompleted hfailed
      rw [eq_of_isText hcompleted] at hfailed
      exact absurd hfailed (by decide)
    have hterminal := h e hkept
    unfold isTerminal at hterminal
    rw [hcompleted, Bool.or_true] at hterminal
    cases hterminal
  · rfl

theorem replayRow_entry {row : StreamId × Fields} (hdata : HasNoId row.2) (messageId : Text) :
    replayRow messageId (row.1, .obj row.2) =
      if wants messageId (entry row) then some (entry row).2 else none := by
  unfold replayRow wants entry
  dsimp only
  rw [setField_noId hdata, get_withId_ne hdata _ (by decide)]
  rfl

theorem replayRows_entries {rows : List (StreamId × Fields)}
    (hnoId : forall row, row ∈ rows -> HasNoId row.2) (messageId : Text) :
    (rows.map (fun row => (row.1, Json.obj row.2))).filterMap (replayRow messageId) =
      ((rows.map entry).filter (wants messageId)).map Prod.snd := by
  induction rows with
  | nil => rfl
  | cons row rest ih =>
      have hrest := ih (fun r hr => hnoId r (List.mem_cons_of_mem _ hr))
      have hhead := replayRow_entry (hnoId row List.mem_cons_self) messageId
      rw [List.map_cons, List.map_cons]
      by_cases hwants : wants messageId (entry row) = true
      · rw [if_pos hwants] at hhead
        rw [List.filterMap_cons_some hhead, List.filter_cons_of_pos hwants, List.map_cons,
          hrest]
      · rw [if_neg hwants] at hhead
        rw [List.filterMap_cons_none hhead, List.filter_cons_of_neg hwants, hrest]

theorem asked_unknown (rows : List (StreamId × Fields)) (messageId : Text) :
    (rows.map entry).filter (asked messageId unknownKey) =
      (rows.map entry).filter (wants messageId) := by
  apply List.filter_congr
  intro e he
  rcases List.mem_map.mp he with ⟨row, _, rfl⟩
  have hlt : unknownKey < (entry row).1 := unknownKey_lt row.1
  unfold asked
  rw [decide_eq_true hlt, Bool.and_true]

theorem asked_bound (rows : List (StreamId × Fields)) (messageId : Text) (bound : StreamId) :
    (rows.map entry).filter (asked messageId bound.key) =
      ((rows.filter (fun row => bound.Below row.1)).map entry).filter (wants messageId) := by
  have hrows : (rows.filter (fun row => bound.Below row.1)).map entry =
      (rows.map entry).filter (fun e => decide (bound.key < e.1)) := by
    rw [List.filter_map]
    congr 1
    apply List.filter_congr
    intro row _
    exact decide_eq_decide.mpr (below_iff bound row.1)
  rw [hrows, List.filter_filter]
  rfl

def due (log : List (StreamId × Json)) (messageId : Text) (since : Option Text) :
    List Fields :=
  ((xrange log since).getD []).filterMap (replayRow messageId)

/-- What is read of a log of entries. -/
theorem due_entries {rows : List (StreamId × Fields)}
    (hnoId : forall row, row ∈ rows -> HasNoId row.2) (messageId : Text)
    {since : Option Text} {key : EventKey} (hkey : sinceKey since = some key) :
    due (rows.map (fun row => (row.1, .obj row.2))) messageId since =
        ((rows.map entry).filter (asked messageId key)).map Prod.snd ∧
      replay (rows.map (fun row => (row.1, .obj row.2))) messageId since =
        (dropFailed ((rows.map entry).filter (asked messageId key))).map Prod.snd := by
  have hrange : exists rows' : List (StreamId × Fields),
      xrange (rows.map (fun row => (row.1, .obj row.2))) since =
        some (rows'.map (fun row => (row.1, .obj row.2))) ∧
      (forall row, row ∈ rows' -> HasNoId row.2) ∧
      (rows.map entry).filter (asked messageId key) =
        (rows'.map entry).filter (wants messageId) := by
    unfold sinceKey at hkey
    unfold xrange
    cases since with
    | none =>
        cases hkey
        exact ⟨rows, rfl, hnoId, asked_unknown rows messageId⟩
    | some s =>
        dsimp only at hkey ⊢
        split at hkey
        · rename_i hs
          cases hkey
          exact ⟨rows, by rw [if_pos hs], hnoId, asked_unknown rows messageId⟩
        · rename_i hs
          rcases Option.map_eq_some_iff.mp hkey with ⟨bound, hbound, rfl⟩
          refine ⟨rows.filter (fun row => bound.Below row.1), ?_,
            fun row hr => hnoId row (List.mem_of_mem_filter hr),
            asked_bound rows messageId bound⟩
          rw [if_neg hs, hbound, Option.map_some, List.filter_map]
          rfl
  rcases hrange with ⟨rows', hxrange, hnoId', hasked⟩
  constructor
  · unfold due
    rw [hxrange, Option.getD_some, replayRows_entries hnoId', hasked]
  · unfold replay
    rw [hxrange]
    dsimp only
    rw [replayRows_entries hnoId', <- map_dropFailed, hasked]

/-!
# A subscription as a reader
-/

variable {c : UUID} {pool : PublisherPool} {p q : StreamPublishing} {messageId : Text}
  {key : EventKey} {start : Nat} {sub : Subscription} {got rest : List Entry} {e : Entry}

/-- The entry carries its key as the id of its event. -/
def Labelled (e : Entry) : Prop :=
  (Json.get e.2 (text "event_id")).truthy = true ∧
    eventIdKey (Json.get e.2 (text "event_id")) = e.1

theorem labelled_entry {row : StreamId × Fields} (h : HasNoId row.2) :
    Labelled (entry row) := by
  unfold Labelled entry
  dsimp only
  rw [get_withId h]
  exact ⟨toText_truthy row.1, eventIdKey_toText row.1⟩

theorem Refines.labelled (h : Refines c pool p) (he : e ∈ p.log) :
    Labelled e ∧ unknownKey < e.1 := by
  rcases h.log with ⟨rows, _, hnoId, hlog⟩
  rw [hlog] at he
  rcases List.mem_map.mp he with ⟨row, hrow, rfl⟩
  exact ⟨labelled_entry (hnoId row hrow), unknownKey_lt row.1⟩

/-- The entries of a list do not end the stream. -/
def Open (entries : List Entry) : Prop :=
  forall e, e ∈ entries -> isTerminal e.2 = false

/-- What a subscription that wants events above `since` may have yielded. -/
inductive Yielded (messageId : Text) (since : EventKey) (p : StreamPublishing)
    (start : Nat) (got : List Entry) : Prop where
  | replayed (base : List Entry) :
      base <+: p.log -> got <+: dropFailed (base.filter (asked messageId since)) ->
      Yielded messageId since p start got
  | followed (base : List Entry) (position : Nat) :
      Reader.Reads p ⟨base, start, position⟩ ->
      got = Reader.shown since (wants messageId) unknownKey ⟨base, start, position⟩ p.channel ->
      Yielded messageId since p start got

/-- How a subscription that was opened at a place of the channel stands to the publishers. -/
inductive Tracks (messageId : Text) (since : EventKey) (p : StreamPublishing)
    (start : Nat) (sub : Subscription) : Prop where
  | subscribed : sub.phase = .subscribed -> sub.events = [] -> sub.lastEid = unknownKey ->
      sub.position = start -> start ≤ p.channel.length -> Tracks messageId since p start sub
  | replaying (base got rest : List Entry) :
      sub.phase = .replaying (rest.map Prod.snd) -> sub.events = got.map Prod.snd ->
      sub.lastEid = lastKey unknownKey got -> sub.position = start ->
      Reader.Reads p ⟨base, start, start⟩ ->
      got ++ rest = dropFailed (base.filter (asked messageId since)) -> Open got ->
      Tracks messageId since p start sub
  | following (base got : List Entry) :
      sub.phase = .following -> sub.events = got.map Prod.snd ->
      sub.lastEid = lastKey unknownKey got ->
      Reader.Reads p ⟨base, start, sub.position⟩ ->
      got = Reader.shown since (wants messageId) unknownKey ⟨base, start, sub.position⟩
        p.channel -> Open got -> Tracks messageId since p start sub
  | ended (got : List Entry) :
      sub.phase = .ended -> sub.events = got.map Prod.snd ->
      Yielded messageId since p start got -> Tracks messageId since p start sub

theorem yielded_step (hstep : Publishing.Step p q) (h : Yielded messageId key p start got) :
    Yielded messageId key q start got := by
  cases h with
  | replayed base hbase hgot =>
      exact .replayed base (hbase.trans (Publishing.step_log hstep).left) hgot
  | followed base position hreads hgot =>
      refine .followed base position (Reader.reads_step hstep hreads) ?_
      rw [hgot, Reader.shown_append hreads.position (Publishing.step_log hstep).right]

/-- What is logged and published does not change what a subscription stands for. -/
theorem tracks_step (hstep : Publishing.Step p q) (h : Tracks messageId key p start sub) :
    Tracks messageId key q start sub := by
  cases h with
  | subscribed hphase hevents hlast hposition hstart =>
      exact .subscribed hphase hevents hlast hposition
        (hstart.trans (Publishing.step_log hstep).right.length_le)
  | replaying base got rest hphase hevents hlast hposition hreads hgot hopen =>
      exact .replaying base got rest hphase hevents hlast hposition
        (Reader.reads_step hstep hreads) hgot hopen
  | following base got hphase hevents hlast hreads hgot hopen =>
      refine .following base got hphase hevents hlast (Reader.reads_step hstep hreads) ?_ hopen
      rw [hgot, Reader.shown_append hreads.position (Publishing.step_log hstep).right]
  | ended got hphase hevents hyielded =>
      exact .ended got hphase hevents (yielded_step hstep hyielded)

theorem tracks_close (h : Tracks messageId key p start sub) :
    Tracks messageId key p start sub.close := by
  cases h with
  | subscribed hphase hevents hlast hposition hstart =>
      exact .ended [] rfl hevents (.replayed [] List.nil_prefix List.nil_prefix)
  | replaying base got rest hphase hevents hlast hposition hreads hgot hopen =>
      exact .ended got rfl hevents (.replayed base hreads.base ⟨rest, hgot⟩)
  | following base got hphase hevents hlast hreads hgot hopen =>
      exact .ended got rfl hevents (.followed base sub.position hreads hgot)
  | ended got hphase hevents hyielded => exact .ended got rfl hevents hyielded

/-!
# What a subscription does
-/

theorem tracks_reads (hrefines : Refines c pool p) (hp : p.Accounted)
    (hc : sub.conversationId = c) (hkey : sinceKey sub.since = some key)
    (hphase : sub.phase = .subscribed) (h : Tracks messageId key p start sub) :
    Tracks messageId key p start { sub with
      phase := .replaying (replay (pool.store.eventLog sub.conversationId) messageId
        sub.since) } := by
  cases h with
  | subscribed _ hevents hlast hposition hstart =>
      rcases hrefines.log with ⟨rows, hrows, hnoId, hlog⟩
      refine .replaying p.log [] (dropFailed (p.log.filter (asked messageId key))) ?_ hevents
        hlast hposition (Reader.reads_log hp hstart) (List.nil_append _)
        (fun e he => by cases he)
      show Phase.replaying _ = _
      rw [hc, hrows, (due_entries hnoId messageId hkey).right, hlog]
  | replaying _ _ _ hother => cases hother.symm.trans hphase
  | following _ _ hother => cases hother.symm.trans hphase
  | ended _ hother => cases hother.symm.trans hphase

theorem max_lastKey (h : Increasing (got ++ e :: rest)) (habove : unknownKey < e.1) :
    max (lastKey unknownKey got) e.1 = e.1 := by
  apply max_eq_right
  rcases lastKey_mem unknownKey got with rfl | ⟨d, hd, hlast⟩
  · exact le_of_lt habove
  · rw [hlast]
    exact le_of_lt ((List.pairwise_append.mp h).right.right d hd e List.mem_cons_self)

theorem tracks_afterYield {phase : Phase} (hevents : sub.events = got.map Prod.snd)
    (hyielded : Yielded messageId key p start (got ++ [e]))
    (hnext : isTerminal e.2 = false -> (sub.afterYield e.2 e.1 phase).phase = phase ->
      (sub.afterYield e.2 e.1 phase).events = (got ++ [e]).map Prod.snd ->
      Tracks messageId key p start (sub.afterYield e.2 e.1 phase)) :
    Tracks messageId key p start (sub.afterYield e.2 e.1 phase) := by
  have hafter : (sub.afterYield e.2 e.1 phase).events = (got ++ [e]).map Prod.snd := by
    rw [events_afterYield, hevents, List.map_append]
    rfl
  cases hterminal : isTerminal e.2 with
  | false =>
      refine hnext hterminal ?_ hafter
      unfold Subscription.afterYield
      dsimp only
      rw [hterminal, if_neg Bool.false_ne_true]
  | true =>
      refine .ended (got ++ [e]) ?_ hafter hyielded
      unfold Subscription.afterYield
      dsimp only
      rw [hterminal, if_pos rfl]

theorem open_concat (h : Open got) (he : isTerminal e.2 = false) : Open (got ++ [e]) :=
  List.forall_mem_append.mpr ⟨h, List.forall_mem_singleton.mpr he⟩

theorem tracks_replayed (hphase : sub.phase = .replaying [])
    (h : Tracks messageId key p start sub) :
    Tracks messageId key p start { sub with phase := .following } := by
  cases h with
  | replaying base got rest hrest hevents hlast hposition hreads hgot hopen =>
      cases List.map_eq_nil_iff.mp (Phase.replaying.inj (hrest.symm.trans hphase))
      rw [List.append_nil] at hgot
      rw [hgot] at hopen
      have hall := dropFailed_eq_self hopen
      refine .following base got rfl hevents hlast ?_ ?_ (hgot ▸ hopen)
      · rw [<- hposition] at hreads ⊢
        exact hreads
      · show got = Reader.shown key (wants messageId) unknownKey
          ⟨base, start, sub.position⟩ p.channel
        rw [hposition, Reader.shown_start, hgot, hall]
        rfl
  | subscribed hother => cases hother.symm.trans hphase
  | following _ _ hother => cases hother.symm.trans hphase
  | ended _ hother => cases hother.symm.trans hphase

theorem tracks_yields (hrefines : Refines c pool p) (hp : p.Accounted) {data : Fields}
    {more : List Fields} (hphase : sub.phase = .replaying (data :: more))
    (h : Tracks messageId key p start sub) :
    Tracks messageId key p start (sub.afterYield data
      (max sub.lastEid (eventIdKey (Json.get data (text "event_id")))) (.replaying more)) := by
  cases h with
  | replaying base got rest hrest hevents hlast hposition hreads hgot hopen =>
      rcases List.map_eq_cons_iff.mp (Phase.replaying.inj (hrest.symm.trans hphase)) with
        ⟨e, rest, rfl, rfl, rfl⟩
      have hsub : List.Sublist (got ++ e :: rest) p.log := by
        rw [hgot]
        exact (dropFailed_sublist _).trans (List.filter_sublist.trans hreads.base.sublist)
      rcases hrefines.labelled (hsub.subset (List.mem_append_right _ List.mem_cons_self))
        with ⟨hlabelled, habove⟩
      have hmax := max_lastKey (hp.increasing.sublist hsub) habove
      rw [hlast, hlabelled.right, hmax]
      have hsplit : got ++ [e] ++ rest = dropFailed (base.filter (asked messageId key)) := by
        rw [<- hgot, List.append_assoc]
        rfl
      refine tracks_afterYield hevents (.replayed base hreads.base ⟨rest, hsplit⟩) ?_
      intro hterminal hphase' hevents'
      refine .replaying base (got ++ [e]) rest hphase' hevents' ?_ hposition hreads hsplit
        (open_concat hopen hterminal)
      rw [lastKey_concat]
      rfl
  | subscribed hother => cases hother.symm.trans hphase
  | following _ _ hother => cases hother.symm.trans hphase
  | ended _ hother => cases hother.symm.trans hphase

theorem received_entry (hlabelled : Labelled e) (messageId : Text)
    (lastEid : EventKey) :
    received (some messageId) lastEid (.obj e.2) =
      if wants messageId e = true ∧ lastEid < e.1 then some (e.2, e.1) else none := by
  unfold received wants
  dsimp only
  rw [hlabelled.left, hlabelled.right, Bool.true_and]
  cases hwants : (Json.get e.2 (text "message_id")).isText messageId with
  | false =>
      rw [if_pos (by rfl), if_neg (fun h => Bool.false_ne_true h.left)]
  | true =>
      rw [if_neg (by decide)]
      by_cases hle : e.1 ≤ lastEid
      · rw [if_pos (decide_eq_true hle), if_neg (fun h => not_lt_of_ge hle h.right)]
      · rw [if_neg (fun h => hle (of_decide_eq_true h)),
          if_pos ⟨rfl, lt_of_not_ge hle⟩, max_eq_right (le_of_lt (lt_of_not_ge hle))]

theorem tracks_receives (hrefines : Refines c pool p) (hp : p.Accounted)
    (hc : sub.conversationId = c) (hmessage : sub.messageId = some messageId) {message : Json}
    (hphase : sub.phase = .following)
    (hnext : (pool.store.published sub.conversationId)[sub.position]? = some message)
    (h : Tracks messageId key p start sub) :
    Tracks messageId key p start (sub.advanced.onMessage message) := by
  cases h with
  | following base got _ hevents hlast hreads hgot hopen =>
      rw [hc, hrefines.channel, List.getElem?_map] at hnext
      rcases Option.map_eq_some_iff.mp hnext with ⟨e, he, rfl⟩
      have hboth : Reader.shown key (wants messageId) unknownKey
          ⟨base, start, sub.position + 1⟩ p.channel =
            Reader.shown key (wants messageId) unknownKey ⟨base, start, sub.position⟩
              p.channel ++
              (if wants messageId e = true ∧ lastKey unknownKey
                (Reader.shown key (wants messageId) unknownKey
                  ⟨base, start, sub.position⟩ p.channel) < e.1 then [e] else []) ∧
          Reader.Reads p ⟨base, start, sub.position + 1⟩ :=
        Reader.shown_next hreads he
      rcases hboth with ⟨hshown, hreads'⟩
      rw [<- hgot, <- hlast] at hshown
      rcases hrefines.labelled (hp.mem_log (List.mem_of_getElem? he)) with ⟨hlabelled, _⟩
      unfold Subscription.onMessage
      rw [show sub.advanced.messageId = some messageId from hmessage,
        received_entry hlabelled, show sub.advanced.lastEid = sub.lastEid from rfl]
      by_cases hnew : wants messageId e = true ∧ sub.lastEid < e.1
      · rw [if_pos hnew] at hshown ⊢
        refine tracks_afterYield (show sub.advanced.events = got.map Prod.snd from hevents)
          (.followed base (sub.position + 1) hreads' hshown.symm) ?_
        intro hterminal hphase' hevents'
        refine .following base (got ++ [e]) hphase' hevents' ?_ hreads' hshown.symm
          (open_concat hopen hterminal)
        rw [lastKey_concat]
        rfl
      · rw [if_neg hnew] at hshown ⊢
        rw [List.append_nil] at hshown
        exact .following base got hphase hevents hlast hreads' hshown.symm hopen
  | subscribed hother => cases hother.symm.trans hphase
  | replaying _ _ _ hother => cases hother.symm.trans hphase
  | ended _ hother => cases hother.symm.trans hphase

theorem tracks_waits (hphase : sub.phase = .following) (h : Tracks messageId key p start sub) :
    Tracks messageId key p start { sub with frames := sub.frames ++ [.heartbeat] } := by
  cases h with
  | following base got _ hevents hlast hreads hgot hopen =>
      exact .following base got hphase ((events_heartbeat sub).trans hevents) hlast hreads hgot
        hopen
  | subscribed hother => cases hother.symm.trans hphase
  | replaying _ _ _ hother => cases hother.symm.trans hphase
  | ended _ hother => cases hother.symm.trans hphase

/-- The acts of a subscription while Redis answers and the connection holds. -/
def Lossless (a : Subscription.Act) : Prop :=
  a ≠ .readFails ∧ a ≠ .lose

theorem tracks_perform (hrefines : Refines c pool p) (hp : p.Accounted)
    (hc : sub.conversationId = c) (hmessage : sub.messageId = some messageId)
    (hkey : sinceKey sub.since = some key) {a : Subscription.Act} (ha : Lossless a)
    (h : Tracks messageId key p start sub) :
    Tracks messageId key p start (sub.perform pool.store a) := by
  have hperforms := performs_perform pool.store sub a
  generalize sub.perform pool.store a = sub' at hperforms ⊢
  cases hperforms with
  | idle => exact h
  | reads id hphase hid =>
      cases hid.symm.trans hmessage
      exact tracks_reads hrefines hp hc hkey hphase h
  | skips _ hskips =>
      rcases hskips with hnone | hfails
      · cases hnone.symm.trans hmessage
      · exact absurd hfails ha.left
  | replayed hphase => exact tracks_replayed hphase h
  | yields data rest hphase => exact tracks_yields hrefines hp hphase h
  | receives message hphase hnext =>
      exact tracks_receives hrefines hp hc hmessage hphase hnext h
  | waits hphase => exact tracks_waits hphase h
  | loses => exact absurd rfl ha.right
  | closes => exact tracks_close h

/-!
# Runs
-/

/-- Calls of `publish_token` with subscriptions beside them. -/
def delivering (permits : PublisherPool -> PublishTask -> Prop)
    (mayOpen : PublisherPool -> Subscription -> Prop) : StreamRules PublishCall Unit :=
  { pool := publishers permits
    mayOpen := mayOpen
    mayAct := Lossless }

/-- What is kept of the publishers, and of a subscription to them, in all runs. -/
structure Discipline (permits : PublisherPool -> PublishTask -> Prop)
    (mayOpen : PublisherPool -> Subscription -> Prop) (Good : StreamPublishing -> Prop)
    (Fits : StreamPublishing -> Nat -> EventKey -> Prop) : Prop where
  initial : Good ⟨[], [], []⟩
  accounted : forall p, Good p -> p.Accounted
  step : forall c pool pool' p p', Refines c pool p -> StepsTo permits c pool pool' p p' ->
    Good p -> Good p'
  accepted : forall pool sub, mayOpen pool sub -> exists key, sinceKey sub.since = some key
  opens : forall pool sub p key, Refines sub.conversationId pool p -> Good p ->
    mayOpen pool sub -> sinceKey sub.since = some key -> Fits p p.channel.length key
  stable : forall p q start key, Publishing.Step p q -> Fits p start key -> Fits q start key

/-- A subscription to a message is a reader, if it is one to this conversation. -/
def Follows (Fits : StreamPublishing -> Nat -> EventKey -> Prop) (c : UUID)
    (p : StreamPublishing) (sub : Subscription) : Prop :=
  sub.conversationId = c -> forall messageId, sub.messageId = some messageId ->
    exists key start, sinceKey sub.since = some key ∧ Fits p start key ∧
      Tracks messageId key p start sub

structure Delivers (Good : StreamPublishing -> Prop)
    (Fits : StreamPublishing -> Nat -> EventKey -> Prop) (st : PublishStream) :
    Prop where
  logs : LogsIncrease st.pool.store
  conversations : forall c, exists p, Refines c st.pool p ∧ Good p ∧
    forall sub, sub ∈ st.subscriptions -> Follows Fits c p sub

section Runs

variable {mayOpen : PublisherPool -> Subscription -> Prop} {Good : StreamPublishing -> Prop}
  {Fits : StreamPublishing -> Nat -> EventKey -> Prop}

theorem follows_step (h : Discipline permits mayOpen Good Fits) {pool' : PublisherPool}
    {p' : StreamPublishing} (hstep : StepsTo permits c pool pool' p p')
    (hfollows : Follows Fits c p sub) : Follows Fits c p' sub := by
  rcases hstep.step with hsame | hstep
  · rw [hsame]
    exact hfollows
  · intro hc messageId hmessage
    rcases hfollows hc messageId hmessage with ⟨key, start, hkey, hfits, htracks⟩
    exact ⟨key, start, hkey, h.stable p p' start key hstep hfits, tracks_step hstep htracks⟩

theorem follows_opened (h : Discipline permits mayOpen Good Fits) (hrefines : Refines c pool p)
    (hgood : Good p) {conversationId : UUID} {messageId since : Option Text}
    (hopen : mayOpen pool (opened pool.store conversationId messageId since)) :
    Follows Fits c p (opened pool.store conversationId messageId since) := by
  intro hc id hmessage
  have hconversation : conversationId = c := hc
  subst hconversation
  rcases h.accepted _ _ hopen with ⟨key, hkey⟩
  have hlength : (pool.store.published conversationId).length = p.channel.length := by
    rw [hrefines.channel, List.length_map]
  exact ⟨key, p.channel.length, hkey, h.opens _ _ _ _ hrefines hgood hopen hkey,
    .subscribed rfl rfl rfl hlength (Nat.le_refl _)⟩

theorem follows_perform (h : Discipline permits mayOpen Good Fits) (hrefines : Refines c pool p)
    (hgood : Good p) {a : Subscription.Act} (ha : Lossless a)
    (hfollows : Follows Fits c p sub) : Follows Fits c p (sub.perform pool.store a) := by
  have hsame := sameSubject_perform pool.store sub a
  intro hc messageId hmessage
  rw [hsame.conversation] at hc
  rw [hsame.message] at hmessage
  rcases hfollows hc messageId hmessage with ⟨key, start, hkey, hfits, htracks⟩
  exact ⟨key, start, hsame.since ▸ hkey, hfits,
    tracks_perform hrefines (h.accounted p hgood) hc hmessage hkey ha htracks⟩

theorem delivers_step (h : Discipline permits mayOpen Good Fits)
    {st st' : PublishStream}
    (hstep : Streaming.Step (delivering permits mayOpen) st st')
    (hst : Delivers Good Fits st) : Delivers Good Fits st' := by
  cases hstep with
  | pool d d' subs hpool =>
      have hmoves : forall s t, (publishers permits).moves s t -> Elapsed s t := by
        rintro s t ⟨n, rfl⟩
        exact elapsed_clock s n
      refine ⟨logsIncrease_step rfl hmoves hpool hst.logs, ?_⟩
      intro c
      rcases hst.conversations c with ⟨p, hrefines, hgood, hfollows⟩
      rcases refines_step hpool hst.logs hrefines with ⟨p', hsteps⟩
      exact ⟨p', hsteps.refines, h.step c d d' p p' hrefines hsteps hgood,
        fun sub hsub => follows_step h hsteps (hfollows sub hsub)⟩
  | connect d subs conversationId messageId since hopen =>
      refine ⟨hst.logs, ?_⟩
      intro c
      rcases hst.conversations c with ⟨p, hrefines, hgood, hfollows⟩
      refine ⟨p, hrefines, hgood, List.forall_mem_append.mpr ⟨hfollows, ?_⟩⟩
      rw [List.forall_mem_singleton]
      exact follows_opened h hrefines hgood hopen
  | act d before after sub a ha =>
      refine ⟨hst.logs, ?_⟩
      intro c
      rcases hst.conversations c with ⟨p, hrefines, hgood, hfollows⟩
      rcases List.forall_mem_append.mp hfollows with ⟨hbefore, htail⟩
      rcases List.forall_mem_cons.mp htail with ⟨hsub, hafter⟩
      exact ⟨p, hrefines, hgood, List.forall_mem_append.mpr ⟨hbefore,
        List.forall_mem_cons.mpr ⟨follows_perform h hrefines hgood ha hsub, hafter⟩⟩⟩

/-- No event has been logged or published. -/
def NoEvents (s : Store) : Prop :=
  forall c, s.eventLog c = [] ∧ s.published c = []

theorem delivers_reaches (h : Discipline permits mayOpen Good Fits) {s : Store}
    (hempty : NoEvents s) {st : PublishStream}
    (hreach : Streaming.Reaches (delivering permits mayOpen) (fresh s) st) :
    Delivers Good Fits st := by
  induction hreach with
  | refl =>
      refine ⟨?_, ?_⟩
      · intro c
        show (s.eventLog c).Pairwise _
        rw [(hempty c).left]
        exact List.Pairwise.nil
      · intro c
        refine ⟨⟨[], [], []⟩, ⟨⟨[], (hempty c).left, ?_, rfl⟩, (hempty c).right,
          [], List.Forall₂.nil, rfl⟩, h.initial, ?_⟩
        · exact List.forall_mem_nil _
        · exact List.forall_mem_nil _
  | tail _ hstep ih => exact delivers_step h hstep ih

end Runs

end StreamService
end ConversationService
