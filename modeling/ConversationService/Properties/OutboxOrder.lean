import ConversationService.Effects.OutboxPasses

/-!
# The order of the events of a bucket

A pass over a bucket reads the unpublished events in their order and hands them over one
by one. A pass of an outbox worker ends at the first failure. A pass of a retry worker
goes on behind an event that it could not publish or that is too young for it, and so it
may publish a later event of the conversation first.
-/

namespace ConversationService

open Python ClusteredTable Programs

/-- The clustering order of event ids. -/
def Precedes (eventId eventId' : UUID) : Prop :=
  (⟨eventId⟩ : TimeUUID) < ⟨eventId'⟩

instance (eventId eventId' : UUID) : Decidable (Precedes eventId eventId') :=
  inferInstanceAs (Decidable (_ < _))

theorem ne_of_precedes {eventId eventId' : UUID} (h : Precedes eventId eventId') :
    eventId ≠ eventId' := by
  intro heq
  rw [heq] at h
  exact lt_irrefl _ h

/-- A call of a retry worker on a bucket, with its threshold and its time. -/
def OutboxCall.retries : OutboxCall -> Option (Int × Datetime)
  | .turn _ worker threshold now _ =>
      if worker.kind = .retry then some (threshold, now) else none
  | _ => none

/-- A retry worker has logged a failure of the event, or this call finds it too young. -/
def PassesOver (w : OutboxWorld) (call : OutboxCall) (e : OutboxEvent) : Prop :=
  exists threshold now, call.retries = some (threshold, now) ∧
    ((WorkerKind.retry, e.eventId) ∈ w.failures ∨
      DistributedRetryWorker.IsYoung threshold now e)

/--
No retry worker publishes an event of the bucket of an earlier one that is passed over
and has not been handed to the broker; the events are those of `start`.
-/
def LeavesNoneBehind (start : OutboxWorld) (c : OutboxPool) (t : OutboxTask) : Prop :=
  forall e e' topic key value next, start.event e.bucket e.eventId = some e ->
    start.event e.bucket e'.eventId = some e' -> Precedes e.eventId e'.eventId ->
    t.prog = .op (.publish e'.eventId topic key value) next ->
    PassesOver c.store t.call e -> c.store.Handed e.eventId

/-- All calls, with no event left behind by a retry worker. -/
def orderRules (outboxBuckets : Nat) (start : OutboxWorld) :
    Rules OutboxCall outboxStorage PyExc Unit OutboxWorld :=
  outboxRules outboxBuckets (LeavesNoneBehind start) (fun _ _ => True)

/-- Every row has the key of its event. -/
def OutboxWorld.WellKeyed (w : OutboxWorld) : Prop :=
  forall bucket entry, entry ∈ (w.outbox bucket).rows ->
    entry.1 = eventKey entry.2.eventId ∧ entry.2.bucket = bucket

/-- The outbox before the passes, with the order kept so far. -/
structure OutboxWorld.Settled (w : OutboxWorld) : Prop where
  keyed : w.WellKeyed
  staged : forall bucket eventId e, w.event bucket eventId = some e ->
    exists e', e' ∈ w.staged ∧ e'.eventId = eventId
  apart : forall bucket bucket' eventId e e', w.event bucket eventId = some e ->
    w.event bucket' eventId = some e' -> bucket = bucket'
  marked : forall bucket eventId e, w.event bucket eventId = some e ->
    e.published = true -> w.Handed eventId
  ordered : forall bucket e e', w.event bucket e.eventId = some e ->
    w.event bucket e'.eventId = some e' -> Precedes e.eventId e'.eventId ->
    w.Handed e'.eventId -> w.Handed e.eventId

/-!
# What a pass reads
-/

/-- Where the later event is listed, the earlier one is listed before it. -/
structure ListsBefore (e : OutboxEvent) (later : UUID) (events : List OutboxEvent) :
    Prop where
  before : forall front x back, events = front ++ x :: back -> x.eventId = later ->
    exists y, y ∈ front ∧ y.eventId = e.eventId
  time : forall y, y ∈ events -> y.eventId = e.eventId -> y.createdAt = e.createdAt

theorem listsBefore_tail {e y : OutboxEvent} {later : UUID} {rest : List OutboxEvent}
    (h : ListsBefore e later (y :: rest)) (hy : y.eventId ≠ e.eventId) :
    y.eventId ≠ later ∧ ListsBefore e later rest := by
  constructor
  · intro hlater
    rcases h.before [] y rest rfl hlater with ⟨z, hz, _⟩
    cases hz
  · constructor
    · intro front x back heq hx
      rcases h.before (y :: front) x back (by rw [heq]; rfl) hx with ⟨z, hz, hid⟩
      rcases List.mem_cons.mp hz with rfl | hin
      · exact absurd hid hy
      · exact ⟨z, hin, hid⟩
    · exact fun z hz => h.time z (List.mem_cons_of_mem _ hz)

theorem mem_front_of_lt {xs front back : List OutboxEvent} {x y : OutboxEvent} {n : Nat}
    (hsorted : xs.Pairwise (fun a b => Precedes a.eventId b.eventId))
    (hsplit : xs.take n = front ++ x :: back) (hy : y ∈ xs)
    (hlt : Precedes y.eventId x.eventId) : y ∈ front := by
  have hwhole : xs = front ++ x :: (back ++ xs.drop n) := by
    conv_lhs => rw [← List.take_append_drop n xs, hsplit]
    simp
  rw [hwhole] at hsorted hy
  rcases List.mem_append.mp hy with hfront | hrest
  · exact hfront
  · exfalso
    rcases List.mem_cons.mp hrest with rfl | hbehind
    · exact lt_irrefl _ hlt
    · have hgt := (List.pairwise_cons.mp (List.pairwise_append.mp hsorted).right.left).left
        y hbehind
      exact lt_asymm hlt hgt

section Reading

variable {w : OutboxWorld} {bucket : Nat}

theorem mem_rows_of_event {eventId : UUID} {e : OutboxEvent}
    (h : w.event bucket eventId = some e) :
    (eventKey eventId, e) ∈ (w.outbox bucket).rows := by
  unfold OutboxWorld.event at h
  rw [Partition.get_eq_some_iff] at h
  exact h

theorem event_of_mem_rows (hkeyed : w.WellKeyed) {e : OutboxEvent}
    (h : e ∈ (w.outbox bucket).rows.map Prod.snd) :
    w.event bucket e.eventId = some e := by
  rcases List.mem_map.mp h with ⟨entry, hentry, rfl⟩
  unfold OutboxWorld.event
  rw [Partition.get_eq_some_iff, ← (hkeyed bucket entry hentry).left]
  exact hentry

theorem sorted_events (hkeyed : w.WellKeyed) :
    ((w.outbox bucket).rows.map Prod.snd).Pairwise
      (fun a b => Precedes a.eventId b.eventId) := by
  rw [List.pairwise_map]
  apply (w.outbox bucket).sorted.imp_of_mem
  intro a b ha hb hlt
  rw [(hkeyed bucket a ha).left, (hkeyed bucket b hb).left] at hlt
  exact hlt

end Reading

/-!
# One operation
-/

/--
While the passes run: where the two events are, what is known of the row of the earlier
one, and that it is handed over first.
-/
structure InOrder (e : OutboxEvent) (later : UUID) (w : OutboxWorld) : Prop where
  keyed : w.WellKeyed
  staged : forall eventId, eventId = e.eventId ∨ eventId = later ->
    exists e', e' ∈ w.staged ∧ e'.eventId = eventId
  place : forall bucket eventId row, eventId = e.eventId ∨ eventId = later ->
    w.event bucket eventId = some row -> bucket = e.bucket
  row : exists row, w.event e.bucket e.eventId = some row ∧ row.createdAt = e.createdAt ∧
    (row.published = true -> w.Handed e.eventId)
  order : w.Handed later -> w.Handed e.eventId

section Operations

variable {e : OutboxEvent} {later : UUID} {w : OutboxWorld}

/-- As long as the earlier event is not handed over, it is listed before the later one. -/
theorem listsBefore_fetch (h : InOrder e later w) (hlt : Precedes e.eventId later)
    (hnot : ¬w.Handed e.eventId) (bucket limit : Nat) :
    ListsBefore e later ((OutboxOp.fetchUnpublished bucket limit).exec w).1 := by
  rcases h.row with ⟨row, hrow, htime, hpublished⟩
  have hlisted : forall x, x ∈ ((OutboxOp.fetchUnpublished bucket limit).exec w).1 ->
      w.event bucket x.eventId = some x :=
    fun x hx => event_of_mem_rows h.keyed (List.mem_filter.mp (List.mem_of_mem_take hx)).left
  have hsorted : ((w.outbox bucket).rows.map Prod.snd).Pairwise _ := sorted_events h.keyed
  constructor
  · intro front x back heq hx
    have hmem : x ∈ ((OutboxOp.fetchUnpublished bucket limit).exec w).1 := by
      rw [heq]
      simp
    have hbucket := h.place bucket x.eventId x (Or.inr hx) (hlisted x hmem)
    have hkey := (h.keyed e.bucket _ (mem_rows_of_event hrow)).left
    have hid : row.eventId = e.eventId := by
      have hsame := OrderDual.toDual_inj.mp hkey
      exact (TimeUUID.mk.inj hsame).symm
    refine ⟨row, ?_, hid⟩
    apply mem_front_of_lt (hsorted.sublist List.filter_sublist) heq
    · rw [List.mem_filter]
      constructor
      · rw [hbucket]
        exact List.mem_map.mpr ⟨_, mem_rows_of_event hrow, rfl⟩
      · cases hcase : row.published with
        | false => rfl
        | true => exact absurd (hpublished hcase) hnot
    · rw [hid, hx]
      exact hlt
  · intro y hy hid
    have hevent := hlisted y hy
    have hbucket := h.place bucket y.eventId y (Or.inl hid) hevent
    rw [hbucket, hid, hrow] at hevent
    rw [← Option.some.inj hevent]
    exact htime

theorem wellKeyed_putEvent (h : w.WellKeyed) (e' : OutboxEvent) :
    (w.putEvent e').WellKeyed := by
  intro bucket entry hentry
  have hget := (Partition.get_eq_some_iff _ _ _).mpr hentry
  by_cases hbucket : bucket = e'.bucket
  · subst hbucket
    unfold OutboxWorld.putEvent at hget
    dsimp only at hget
    rw [Function.update_self, Partition.get_upsert] at hget
    split at hget
    · rename_i hkey
      rw [← Option.some.inj hget]
      exact ⟨hkey, rfl⟩
    · exact h _ entry ((Partition.get_eq_some_iff _ _ _).mp hget)
  · unfold OutboxWorld.putEvent at hget
    dsimp only at hget
    rw [Function.update_of_ne hbucket] at hget
    exact h _ entry ((Partition.get_eq_some_iff _ _ _).mp hget)

theorem wellKeyed_exec (h : w.WellKeyed) (o : OutboxOp) : (o.exec w).2.WellKeyed := by
  cases o with
  | storage o' =>
      have hworld : ((OutboxOp.storage o').exec w).2.WellKeyed <-> (w.stage o').WellKeyed :=
        Iff.rfl
      rw [hworld]
      unfold OutboxWorld.stage
      split
      · rename_i e' _
        exact wellKeyed_putEvent h e'
      · exact h
  | markPublished bucket eventId =>
      show (w.markPublished bucket eventId).WellKeyed
      unfold OutboxWorld.markPublished
      split
      · rename_i e' hevent
        rcases h bucket _ (mem_rows_of_event hevent) with ⟨hkey, hbucket⟩
        dsimp only at hkey hbucket
        subst hbucket
        rw [hkey]
        exact wellKeyed_putEvent h { e' with published := true }
      · exact h
  | _ => exact h

theorem event_exec_staged {o : OutboxOp} {eventId : UUID} (bucket : Nat)
    (hstaged : exists e', e' ∈ w.staged ∧ e'.eventId = eventId)
    (hnew : forall o' e', o = .storage o' -> o'.stages = some e' ->
      forall x, x ∈ w.staged -> x.eventId ≠ e'.eventId) :
    (o.exec w).2.event bucket eventId = w.event bucket eventId ∨
      (o.Marks eventId ∧ (o.exec w).2.event bucket eventId =
        (w.event bucket eventId).map (fun row => { row with published := true })) := by
  by_cases hstorage : exists o', o = .storage o'
  · rcases hstorage with ⟨o', rfl⟩
    left
    show (w.stage o').event bucket eventId = w.event bucket eventId
    unfold OutboxWorld.stage
    cases hstages : o'.stages with
    | none => rfl
    | some e' =>
        rcases hstaged with ⟨x, hx, rfl⟩
        show (w.putEvent e').event bucket x.eventId = w.event bucket x.eventId
        rw [event_putEvent, if_neg (fun h => hnew o' e' rfl hstages x hx h.right)]
  · by_cases hmarks : o.Marks eventId
    · cases o with
      | markPublished bucket' eventId' =>
          have hsame : eventId' = eventId := hmarks
          subst hsame
          show (w.markPublished bucket' eventId').event bucket eventId' = _ ∨ _ ∧
            (w.markPublished bucket' eventId').event bucket eventId' = _
          unfold OutboxWorld.markPublished
          cases hevent : w.event bucket' eventId' with
          | none => exact Or.inl rfl
          | some row =>
              by_cases hbucket : bucket = bucket'
              · subst hbucket
                right
                refine ⟨rfl, ?_⟩
                rw [hevent]
                unfold OutboxWorld.event
                dsimp only
                rw [Function.update_self, Partition.get_upsert_self]
                rfl
              · left
                unfold OutboxWorld.event
                dsimp only
                rw [Function.update_of_ne hbucket]
      | _ => exact hmarks.elim
    · exact Or.inl (event_exec (fun o' ho => hstorage ⟨o', ho⟩) bucket hmarks)

theorem mem_staged_exec {x : OutboxEvent} (hx : x ∈ w.staged) (o : OutboxOp) :
    x ∈ (o.exec w).2.staged := by
  by_cases hstorage : exists o', o = .storage o'
  · rcases hstorage with ⟨o', rfl⟩
    show x ∈ (w.stage o').staged
    unfold OutboxWorld.stage
    split
    · exact List.mem_append_left _ hx
    · exact hx
  · rw [staged_exec (fun o' ho => hstorage ⟨o', ho⟩)]
    exact hx

theorem handed_of_exec {o : OutboxOp} {eventId : UUID}
    (h : (o.exec w).2.Handed eventId) : w.Handed eventId ∨ o.Publishes eventId := by
  rcases h with ⟨record, hrecord, hid⟩
  cases o with
  | publish eventId' topic key value =>
      rcases List.mem_append.mp hrecord with hold | hlast
      · exact Or.inl ⟨record, hold, hid⟩
      · rw [List.mem_singleton.mp hlast] at hid
        exact Or.inr hid
  | storage o' =>
      have hbroker : (w.stage o').broker = w.broker := by
        unfold OutboxWorld.stage
        split
        · rfl
        · rfl
      have hstage : record ∈ (w.stage o').broker := hrecord
      rw [hbroker] at hstage
      exact Or.inl ⟨record, hstage, hid⟩
  | markPublished bucket eventId' =>
      have hbroker : (w.markPublished bucket eventId').broker = w.broker := by
        unfold OutboxWorld.markPublished
        split
        · rfl
        · rfl
      have hmark : record ∈ (w.markPublished bucket eventId').broker := hrecord
      rw [hbroker] at hmark
      exact Or.inl ⟨record, hmark, hid⟩
  | _ => exact Or.inl ⟨record, hrecord, hid⟩

/-- What is known of the two events survives an operation. -/
theorem inOrder_exec (h : InOrder e later w) {o : OutboxOp}
    (hnew : forall o' e', o = .storage o' -> o'.stages = some e' ->
      forall x, x ∈ w.staged -> x.eventId ≠ e'.eventId)
    (hmarks : w.Handed e.eventId ∨ ¬o.Marks e.eventId)
    (hpublishes : o.Publishes later -> w.Handed e.eventId) :
    InOrder e later (o.exec w).2 := by
  constructor
  · exact wellKeyed_exec h.keyed o
  · intro eventId hid
    rcases h.staged eventId hid with ⟨x, hx, hxid⟩
    exact ⟨x, mem_staged_exec hx o, hxid⟩
  · intro bucket eventId row hid hrow
    rcases event_exec_staged bucket (h.staged eventId hid) hnew with hsame | ⟨_, hmarked⟩
    · rw [hsame] at hrow
      exact h.place bucket eventId row hid hrow
    · rw [hmarked] at hrow
      rcases Option.map_eq_some_iff.mp hrow with ⟨row', hrow', _⟩
      exact h.place bucket eventId row' hid hrow'
  · rcases h.row with ⟨row, hrow, htime, hpublished⟩
    rcases event_exec_staged e.bucket (h.staged e.eventId (Or.inl rfl)) hnew with
      hsame | ⟨hmark, hmarked⟩
    · exact ⟨row, by rw [hsame, hrow], htime, fun hp => handed_exec (hpublished hp)⟩
    · refine ⟨{ row with published := true }, by rw [hmarked, hrow]; rfl, htime, ?_⟩
      intro _
      exact handed_exec (hmarks.resolve_right (fun hnot => hnot hmark))
  · intro hlater
    rcases handed_of_exec hlater with hold | hnow
    · exact handed_exec (h.order hold)
    · exact handed_exec (hpublishes hnow)

end Operations

/-!
# The passes
-/

/--
What an answer tells of the earlier event: that it was handed over, that a retry worker
failed on it, or that it was not listed before the later one.
-/
def ShowsEarlier (e : OutboxEvent) (later : UUID) (retries : Prop) :
    forall o : outboxStorage.Op, outboxStorage.Res o -> Prop
  | .publish eventId _ _ _, _ => eventId = e.eventId
  | .logFailure .retry eventId, _ => retries ∧ eventId = e.eventId
  | .fetchUnpublished _ _, events => ¬ListsBefore e later events
  | _, _ => False

/-- The later event is not published before something is shown of the earlier one. -/
def Orderly {alpha : Type} (e : OutboxEvent) (later : UUID) (retries : Prop)
    (p : Work alpha) : Prop :=
  Prog.Guarded (ShowsEarlier e later retries) (fun o => o.Publishes later) p

section Programs

variable {e : OutboxEvent} {later : UUID} {retries : Prop}

theorem orderly_handOver {event : OutboxEvent} (h : event.eventId ≠ later) :
    Orderly e later retries (handOver event) := by
  apply Prog.guarded_of_allOps
  exact Prog.allOps_bind (allOps_work h) (fun _ => allOps_work id)

theorem orderly_outboxEvents (hne : e.eventId ≠ later) {events : List OutboxEvent}
    (h : ListsBefore e later events) :
    Orderly e later retries (DistributedOutboxWorker.processEvents events) := by
  induction events with
  | nil => trivial
  | cons event rest ih =>
      by_cases hevent : event.eventId = e.eventId
      · refine ⟨?_, ?_, fun _ => Or.inl hevent⟩
        · intro hlater
          exact hne (hevent.symm.trans hlater)
        · exact ⟨id, by trivial, fun _ => Or.inr (by trivial)⟩
      · rcases listsBefore_tail h hevent with ⟨hother, hrest⟩
        apply Prog.guarded_bind
        · apply Prog.guarded_tryCatch
          · exact Prog.guarded_bind (orderly_handOver hother) (fun _ => by trivial)
          · intro _
            exact Prog.guarded_bind (guarded_work id) (fun _ => by trivial)
        · intro succeeded
          split
          · exact ih hrest
          · trivial

theorem orderly_retryEvents (hne : e.eventId ≠ later) {threshold : Int} {now : Datetime}
    (hold : ¬DistributedRetryWorker.IsYoung threshold now e) (hretries : retries)
    {events : List OutboxEvent} (h : ListsBefore e later events) :
    Orderly e later retries (DistributedRetryWorker.processEvents threshold now events) := by
  induction events with
  | nil => trivial
  | cons event rest ih =>
      unfold DistributedRetryWorker.processEvents
      by_cases hevent : event.eventId = e.eventId
      · have hsame : ¬DistributedRetryWorker.IsYoung threshold now event := by
          unfold DistributedRetryWorker.IsYoung
          rw [h.time event (by simp) hevent]
          exact hold
        rw [if_neg hsame]
        refine ⟨?_, ?_, fun _ => Or.inl hevent⟩
        · intro hlater
          exact hne (hevent.symm.trans hlater)
        · exact ⟨id, by trivial, fun _ => Or.inl ⟨hretries, hevent⟩⟩
      · rcases listsBefore_tail h hevent with ⟨hother, hrest⟩
        split
        · exact ih hrest
        · refine Prog.guarded_bind ?_ (fun _ => ih hrest)
          apply Prog.guarded_tryCatch (orderly_handOver hother)
          intro _
          exact guarded_work id

/-- A pass is orderly, since it reads the events in their order. -/
theorem orderly_processBucket (hne : e.eventId ≠ later) (kind : WorkerKind)
    {threshold : Int} {now : Datetime} (bucket : Nat)
    (hretry : kind = .retry ->
      retries ∧ ¬DistributedRetryWorker.IsYoung threshold now e) :
    Orderly e later retries (kind.processBucket threshold now bucket) := by
  cases kind with
  | outbox =>
      refine Prog.guarded_tryCatch ?_ (fun _ => by trivial)
      refine ⟨id, by trivial, ?_⟩
      intro events
      by_cases hlists : ListsBefore e later events
      · exact Or.inr (orderly_outboxEvents hne hlists)
      · exact Or.inl hlists
  | retry =>
      rcases hretry rfl with ⟨hretries, hold⟩
      refine Prog.guarded_tryCatch ?_ (fun _ => by trivial)
      refine ⟨id, by trivial, ?_⟩
      intro events
      by_cases hlists : ListsBefore e later events
      · exact Or.inr (orderly_retryEvents hne hold hretries hlists)
      · exact Or.inl hlists

theorem orderly_program (hne : e.eventId ≠ later) (call : OutboxCall)
    (hold : forall threshold now, call.retries = some (threshold, now) ->
      ¬DistributedRetryWorker.IsYoung threshold now e) :
    Orderly e later (call.retries.isSome = true) call.program := by
  have hlease : forall o : OutboxOp, o.IsLeaseOp -> ¬o.Publishes later := by
    intro o ho hpublishes
    cases o with
    | publish eventId topic key value => exact ho
    | _ => exact hpublishes
  have hwriter : forall {alpha : Type} (p : Py alpha),
      Prog.AllOps (fun o : OutboxOp => ¬o.Publishes later) (onStore p) :=
    fun p => Prog.allOps_mapOps (Prog.allOps_of_forall (fun o h => h) p)
  cases call with
  | createMessage now c m sender content status eventId eventType payload fileIds =>
      exact Prog.guarded_of_allOps (hwriter _)
  | createConversation now c userId title status eventId eventType payload parent branch =>
      exact Prog.guarded_of_allOps (hwriter _)
  | updateConversation now c title status eventId eventType payload =>
      exact Prog.guarded_of_allOps (hwriter _)
  | turn redis worker threshold now bucket =>
      apply guarded_processWithLease hlease
      apply orderly_processBucket hne
      intro hkind
      have hcall : (OutboxCall.turn redis worker threshold now bucket).retries =
          some (threshold, now) := if_pos hkind
      exact ⟨by rw [hcall]; rfl, hold threshold now hcall⟩
  | renewal redis worker =>
      exact Prog.guarded_of_allOps
        (allOps_renewLocks (fun o ho => hlease o ho.isLeaseOp) redis)
  | shutDown redis worker =>
      exact Prog.guarded_of_allOps
        (allOps_shutDown (fun o ho => hlease o ho.isLeaseOp) redis)
  | crash worker => exact guarded_work id
  | lapse kind bucket => exact guarded_work id

end Programs

/-!
# Runs
-/

/-- What a call still does about two events. -/
structure Trails (e : OutboxEvent) (later : UUID) (w : OutboxWorld) (t : OutboxTask) :
    Prop where
  marks : w.Handed e.eventId ∨ MarksLate e.eventId t.prog
  behind : w.Handed e.eventId ∨ PassesOver w t.call e ∨
    Orderly e later (t.call.retries.isSome = true) t.prog

section Runs

variable {e : OutboxEvent} {later : UUID} {w : OutboxWorld} {call : OutboxCall}
  {o : OutboxOp} {next : Option (outboxStorage.Res o) -> Work Unit}

theorem trails_start (hne : e.eventId ≠ later) (w : OutboxWorld) (call : OutboxCall) :
    Trails e later w ⟨call, call.program⟩ := by
  refine ⟨Or.inr (marksLate_program _ call), Or.inr ?_⟩
  by_cases hyoung : exists threshold now, call.retries = some (threshold, now) ∧
      DistributedRetryWorker.IsYoung threshold now e
  · rcases hyoung with ⟨threshold, now, hcall, hyoung⟩
    exact Or.inl ⟨threshold, now, hcall, Or.inr hyoung⟩
  · refine Or.inr (orderly_program hne call ?_)
    exact fun threshold now hcall hyoung' => hyoung ⟨threshold, now, hcall, hyoung'⟩

theorem failures_exec {entry : WorkerKind × UUID} (h : entry ∈ w.failures) (o : OutboxOp) :
    entry ∈ (o.exec w).2.failures := by
  cases o with
  | storage o' =>
      show entry ∈ (w.stage o').failures
      unfold OutboxWorld.stage
      split
      · exact h
      · exact h
  | markPublished bucket eventId =>
      show entry ∈ (w.markPublished bucket eventId).failures
      unfold OutboxWorld.markPublished
      split
      · exact h
      · exact h
  | logFailure kind eventId => exact List.mem_append_left _ h
  | _ => exact h

theorem passesOver_exec (h : PassesOver w call e) (o : OutboxOp) :
    PassesOver (o.exec w).2 call e := by
  rcases h with ⟨threshold, now, hcall, hfailed | hyoung⟩
  · exact ⟨threshold, now, hcall, Or.inl (failures_exec hfailed o)⟩
  · exact ⟨threshold, now, hcall, Or.inr hyoung⟩

theorem trails_other {t : OutboxTask} (h : Trails e later w t) (o : OutboxOp) :
    Trails e later (o.exec w).2 t := by
  constructor
  · rcases h.marks with hhanded | hlate
    · exact Or.inl (handed_exec hhanded)
    · exact Or.inr hlate
  · rcases h.behind with hhanded | hpassed | horderly
    · exact Or.inl (handed_exec hhanded)
    · exact Or.inr (Or.inl (passesOver_exec hpassed o))
    · exact Or.inr (Or.inr horderly)

theorem trails_fault (h : Trails e later w ⟨call, .op o next⟩) :
    Trails e later w ⟨call, next none⟩ := by
  constructor
  · rcases h.marks with hhanded | hlate
    · exact Or.inl hhanded
    · exact Or.inr hlate.right.left
  · rcases h.behind with hhanded | hpassed | horderly
    · exact Or.inl hhanded
    · exact Or.inr (Or.inl hpassed)
    · exact Or.inr (Or.inr horderly.right.left)

theorem settled_of_shown (h : InOrder e later w) (hlt : Precedes e.eventId later)
    (hshown : ShowsEarlier e later (call.retries.isSome = true) o (o.exec w).1) :
    (o.exec w).2.Handed e.eventId ∨ PassesOver (o.exec w).2 call e := by
  cases o with
  | publish eventId topic key value => exact Or.inl (handed_publish hshown)
  | logFailure kind eventId =>
      cases kind with
      | outbox => exact hshown.elim
      | retry =>
          rcases hshown with ⟨hretries, rfl⟩
          rcases Option.isSome_iff_exists.mp hretries with ⟨⟨threshold, now⟩, hcall⟩
          right
          refine ⟨threshold, now, hcall, Or.inl ?_⟩
          show _ ∈ w.failures ++ [(WorkerKind.retry, e.eventId)]
          simp
  | fetchUnpublished bucket limit =>
      by_cases hhanded : w.Handed e.eventId
      · exact Or.inl hhanded
      · exact absurd (listsBefore_fetch h hlt hhanded bucket limit) hshown
  | _ => exact hshown.elim

theorem trails_next (hinOrder : InOrder e later w) (hlt : Precedes e.eventId later)
    (h : Trails e later w ⟨call, .op o next⟩) :
    Trails e later (o.exec w).2 ⟨call, next (some (o.exec w).1)⟩ := by
  constructor
  · rcases h.marks with hhanded | hlate
    · exact Or.inl (handed_exec hhanded)
    · by_cases hpublishes : o.Publishes e.eventId
      · exact Or.inl (handed_publish hpublishes)
      · exact Or.inr (Prog.guarded_next hlate hpublishes)
  · rcases h.behind with hhanded | hpassed | horderly
    · exact Or.inl (handed_exec hhanded)
    · exact Or.inr (Or.inl (passesOver_exec hpassed o))
    · rcases horderly.right.right (o.exec w).1 with hshown | hnext
      · rcases settled_of_shown hinOrder hlt hshown with hhanded | hpassed
        · exact Or.inl hhanded
        · exact Or.inr (Or.inl hpassed)
      · exact Or.inr (Or.inr hnext)

theorem handed_of_publishes {start : OutboxWorld} {c : OutboxPool} {e' : OutboxEvent}
    (he : start.event e.bucket e.eventId = some e)
    (he' : start.event e.bucket e'.eventId = some e')
    (hlt : Precedes e.eventId e'.eventId)
    (h : Trails e e'.eventId c.store ⟨call, .op o next⟩)
    (hpermits : LeavesNoneBehind start c ⟨call, .op o next⟩)
    (hpublishes : o.Publishes e'.eventId) : c.store.Handed e.eventId := by
  rcases h.behind with hhanded | hpassed | horderly
  · exact hhanded
  · cases o with
    | publish eventId topic key value =>
        have hid : eventId = e'.eventId := hpublishes
        subst hid
        exact hpermits e e' topic key value next he he' hlt rfl hpassed
    | _ => exact hpublishes.elim
  · exact absurd hpublishes horderly.left

end Runs

theorem localProof_inOrder {outboxBuckets : Nat} {start : OutboxWorld}
    {e e' : OutboxEvent} (he : start.event e.bucket e.eventId = some e)
    (he' : start.event e.bucket e'.eventId = some e')
    (hlt : Precedes e.eventId e'.eventId) :
    Pool.LocalProof (orderRules outboxBuckets start)
      (fun c => InOrder e e'.eventId c.store) (Trails e e'.eventId)
      (fun _ _ => True) where
  symm := fun _ _ _ => trivial
  own := by
    intro before after call o next w hholds hpermits
    have htask := hholds.each ⟨call, .op o next⟩ (by simp)
    refine ⟨inOrder_exec hholds.shared ?_ ?_ ?_, trails_next hholds.shared hlt htask⟩
    · intro o' x ho hx
      subst ho
      exact hpermits.left o' next x rfl hx
    · rcases htask.marks with hhanded | hlate
      · exact Or.inl hhanded
      · exact Or.inr hlate.left
    · exact handed_of_publishes he he' hlt htask hpermits.right
  ownFault := by
    intro before after call o next w hholds _
    exact ⟨hholds.shared, trails_fault (hholds.each ⟨call, .op o next⟩ (by simp))⟩
  stable := by
    intro c call o next q hholds _ _ hq _
    exact trails_other (hholds.each q hq) o
  apartNext := fun _ _ _ _ _ _ _ _ _ _ => trivial
  apartFault := fun _ _ _ _ _ _ _ _ _ _ => trivial
  stopped := fun _ _ _ _ _ _ hholds _ _ => hholds.shared
  started := by
    intro c call hholds _
    exact ⟨hholds.shared, trails_start (ne_of_precedes hlt) c.store call, fun _ _ => trivial⟩
  moved := fun _ _ _ _ hmoves => hmoves.elim

/--
In every run of writers and workers in which no retry worker publishes an event behind an
earlier one that it failed on or found too young, of two events that were staged in a
bucket before the passes the earlier one is handed to the broker first.
-/
theorem outbox_in_order {outboxBuckets : Nat} {start : OutboxWorld} {c : OutboxPool}
    (hstart : start.Settled)
    (hreach : Pool.Reaches (orderRules outboxBuckets start) ⟨start, []⟩ c)
    {e e' : OutboxEvent} (he : start.event e.bucket e.eventId = some e)
    (he' : start.event e.bucket e'.eventId = some e')
    (hlt : Precedes e.eventId e'.eventId) :
    c.store.Handed e'.eventId -> c.store.Handed e.eventId := by
  have hholds : Pool.Holds (fun c => InOrder e e'.eventId c.store) (Trails e e'.eventId)
      (fun _ _ => True) (⟨start, []⟩ : OutboxPool) := by
    refine ⟨?_, ?_, List.Pairwise.nil⟩
    · constructor
      · exact hstart.keyed
      · intro eventId hid
        rcases hid with rfl | rfl
        · exact hstart.staged _ _ e he
        · exact hstart.staged _ _ e' he'
      · intro bucket eventId row hid hrow
        rcases hid with rfl | rfl
        · exact hstart.apart _ _ _ _ _ hrow he
        · exact hstart.apart _ _ _ _ _ hrow he'
      · exact ⟨e, he, rfl, hstart.marked _ _ e he⟩
      · exact hstart.ordered _ e e' he he' hlt
    · intro t ht
      cases ht
  exact (Pool.holds_reaches (localProof_inOrder he he' hlt) hreach hholds).shared.order

/-! Two events of a conversation, and a worker of each kind that takes their bucket. -/

def renamedEvent (n : Nat) : OutboxEvent :=
  { bucket := 1
    eventId := .ofInt n
    eventType := text "conversation.updated"
    payload := .conversation
      { conversationId := .ofInt 1, userId := none, title := none, status := text "ACTIVE",
        parentConversationId := none, branchMessageId := none, createdAt := none }
    published := false
    createdAt := ⟨0, false⟩ }

def renamedTwice : OutboxWorld :=
  { (OutboxWorld.blank.putEvent (renamedEvent 1)).putEvent (renamedEvent 2) with
    staged := [renamedEvent 1, renamedEvent 2] }

theorem event_renamedTwice {bucket : Nat} {eventId : UUID} {e : OutboxEvent}
    (h : renamedTwice.event bucket eventId = some e) :
    (e = renamedEvent 1 ∨ e = renamedEvent 2) ∧ bucket = 1 ∧ eventId = e.eventId := by
  have hput : ((OutboxWorld.blank.putEvent (renamedEvent 1)).putEvent
      (renamedEvent 2)).event bucket eventId = some e := h
  rw [event_putEvent, event_putEvent] at hput
  split at hput
  · rename_i hplace
    cases hput
    exact ⟨Or.inr rfl, hplace⟩
  · split at hput
    · rename_i hplace
      cases hput
      exact ⟨Or.inl rfl, hplace⟩
    · cases hput

theorem wellKeyed_blank : OutboxWorld.blank.WellKeyed := by
  intro bucket entry h
  have hnil : entry ∈ ([] : List (TimeUUIDᵒᵈ × OutboxEvent)) := h
  cases hnil

theorem settled_renamedTwice : renamedTwice.Settled := by
  have hnone : forall eventId, ¬renamedTwice.Handed eventId := by
    intro eventId h
    rcases h with ⟨record, hrecord, _⟩
    have hnil : record ∈ ([] : List BrokerRecord) := hrecord
    cases hnil
  constructor
  · have hkeyed := wellKeyed_putEvent
      (wellKeyed_putEvent wellKeyed_blank (renamedEvent 1)) (renamedEvent 2)
    exact fun bucket entry hentry => hkeyed bucket entry hentry
  · intro bucket eventId e h
    rcases event_renamedTwice h with ⟨he, _, hid⟩
    refine ⟨e, ?_, hid.symm⟩
    show e ∈ [renamedEvent 1, renamedEvent 2]
    simpa using he
  · intro bucket bucket' eventId e e' h h'
    rw [(event_renamedTwice h).right.left, (event_renamedTwice h').right.left]
  · intro bucket eventId e h hpublished
    rcases (event_renamedTwice h).left with rfl | rfl
    · cases hpublished
    · cases hpublished
  · intro bucket e e' _ _ _ hhanded
    exact absurd hhanded (hnone _)

/-- A turn of a worker of the kind on the bucket, at a time when both events are old. -/
def renamedTurn (kind : WorkerKind) : OutboxCall :=
  .turn true ⟨kind, text "worker"⟩ 30000000 ⟨60000000, true⟩ 1

/-- What a schedule of turns may do without a look at the rules. -/
def actsPlainly (mayRetry : Bool) (c : OutboxPool) : Pool.Act OutboxCall -> Bool
  | .start (.turn _ _ _ _ bucket) => decide (bucket < 32)
  | .start _ => false
  | .perform i =>
      match c.tasks[i]? with
      | some ⟨_, .op (.storage _) _⟩ => false
      | some t => mayRetry || t.call.retries.isNone
      | none => true
  | .fault i =>
      match c.tasks[i]? with
      | some ⟨_, .op (.publish _ _ _ _) _⟩ => true
      | _ => false
  | .stop _ => true

theorem allows_of_actsPlainly {mayRetry : Bool}
    {permits : OutboxPool -> OutboxTask -> Prop}
    (hpermits : forall c t, mayRetry = true ∨ t.call.retries = none -> permits c t)
    {c : OutboxPool} {act : Pool.Act OutboxCall} (h : actsPlainly mayRetry c act = true) :
    Pool.Allows (outboxRules 32 permits (fun _ _ => True)) c act := by
  cases act with
  | start call =>
      cases call with
      | turn redis worker threshold now bucket =>
          have hbucket : bucket < 32 := of_decide_eq_true h
          exact ⟨hbucket, trivial⟩
      | _ => cases h
  | perform i =>
      intro t ht
      unfold actsPlainly at h
      dsimp only at h
      rw [ht] at h
      constructor
      · intro o next e hprog
        rcases t with ⟨call, prog⟩
        dsimp only at hprog
        rw [hprog] at h
        cases h
      · apply hpermits
        split at h
        · cases h
        · rename_i heq
          cases heq
          simpa using h
        · rename_i heq
          cases heq
  | fault i =>
      intro call o next ht
      unfold actsPlainly at h
      dsimp only at h
      rw [ht] at h
      split at h
      · rename_i heq
        cases heq
        trivial
      · cases h
  | stop i => exact fun _ _ => ⟨trivial, trivial⟩

/-- A turn of an outbox worker that hands both events over. -/
def handsOverBoth : List (Pool.Act OutboxCall) :=
  .start (renamedTurn .outbox) :: List.replicate 8 (.perform 0)

theorem renamedTwice_in_order :
    exists c, Pool.Reaches (orderRules 32 renamedTwice) ⟨renamedTwice, []⟩ c ∧
      c.store.Handed (.ofInt 2) ∧ c.store.Handed (.ofInt 1) := by
  let c := handsOverBoth.foldl (Pool.play (orderRules 32 renamedTwice)) ⟨renamedTwice, []⟩
  have hchecks : Pool.checks (orderRules 32 renamedTwice) (actsPlainly false)
      ⟨renamedTwice, []⟩ handsOverBoth = true := by
    decide
  have hpermits : forall (c : OutboxPool) (t : OutboxTask),
      false = true ∨ t.call.retries = none -> LeavesNoneBehind renamedTwice c t := by
    intro c t hplain e e' topic key value next _ _ _ _ hpassed
    rcases hpassed with ⟨threshold, now, hcall, _⟩
    rw [hplain.resolve_left Bool.false_ne_true] at hcall
    cases hcall
  have hreach : Pool.Reaches (orderRules 32 renamedTwice) ⟨renamedTwice, []⟩ c :=
    Pool.reaches_schedule (Pool.allowsAll_of_checks
      (fun _ _ h => allows_of_actsPlainly hpermits h) hchecks)
  have hbroker : c.store.broker.map BrokerRecord.eventId = [.ofInt 1, .ofInt 2] := by
    decide
  have hlater : c.store.Handed (.ofInt 2) := by
    have hmem : UUID.ofInt 2 ∈ c.store.broker.map BrokerRecord.eventId := by
      rw [hbroker]
      simp
    exact List.mem_map.mp hmem
  refine ⟨c, hreach, hlater, ?_⟩
  have hfirst : renamedTwice.event (renamedEvent 1).bucket (renamedEvent 1).eventId =
      some (renamedEvent 1) := by
    decide
  have hsecond : renamedTwice.event (renamedEvent 1).bucket (renamedEvent 2).eventId =
      some (renamedEvent 2) := by
    decide
  have hlt : Precedes (renamedEvent 1).eventId (renamedEvent 2).eventId := by
    decide
  exact outbox_in_order settled_renamedTwice hreach hfirst hsecond hlt hlater

def failsOnFirst : List (Pool.Act OutboxCall) :=
  .start (renamedTurn .retry) :: List.replicate 4 (.perform 0) ++
    .fault 0 :: List.replicate 2 (.perform 0)

/-- It goes on, and the second event is published before the first one. -/
theorem retry_overtakes :
    ¬forall (start : OutboxWorld) (c : OutboxPool), start.Settled ->
      Pool.Reaches (outboxRules 32 (fun _ _ => True) (fun _ _ => True)) ⟨start, []⟩ c ->
      forall e e' : OutboxEvent, start.event e.bucket e.eventId = some e ->
        start.event e.bucket e'.eventId = some e' -> Precedes e.eventId e'.eventId ->
        c.store.Handed e'.eventId -> c.store.Handed e.eventId := by
  intro hall
  let rules := outboxRules 32 (fun _ _ => True) (fun _ _ => True)
  let c := failsOnFirst.foldl (Pool.play rules) ⟨renamedTwice, []⟩
  have hchecks : Pool.checks rules (actsPlainly true) ⟨renamedTwice, []⟩ failsOnFirst =
      true := by
    decide
  have hreach : Pool.Reaches rules ⟨renamedTwice, []⟩ c :=
    Pool.reaches_schedule (Pool.allowsAll_of_checks
      (fun _ _ h => allows_of_actsPlainly (fun _ _ _ => trivial) h) hchecks)
  have hbroker : c.store.broker.map BrokerRecord.eventId = [.ofInt 2] := by
    decide
  have hlater : c.store.Handed (.ofInt 2) := by
    have hmem : UUID.ofInt 2 ∈ c.store.broker.map BrokerRecord.eventId := by
      rw [hbroker]
      simp
    exact List.mem_map.mp hmem
  have hearlier := hall renamedTwice c settled_renamedTwice hreach (renamedEvent 1)
    (renamedEvent 2) (by decide) (by decide) (by decide) hlater
  have hmem := List.mem_map.mpr hearlier
  rw [hbroker, List.mem_singleton] at hmem
  exact absurd hmem (by decide)

end ConversationService
