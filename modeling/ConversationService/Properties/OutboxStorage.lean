import ConversationService.Effects.OutboxPasses
import ConversationService.Model.ConversationService

/-!
# No event is lost in the outbox

The writers choose one of 32 buckets, and the workers scan the buckets below
`OUTBOX_BUCKETS`. An event is marked only after it was handed to the broker. So an event
is handed over or waits where the workers look, if they look into all the buckets that the
writers use.
-/

namespace ConversationService

open Python Programs

/-- The event is stored as not yet published where the workers scan. -/
def OutboxWorld.Waits (w : OutboxWorld) (outboxBuckets : Nat) (e : OutboxEvent) : Prop :=
  e.bucket < outboxBuckets ∧
    exists row, w.event e.bucket e.eventId = some row ∧ row.published = false ∧
      row.eventType = e.eventType ∧ row.payload = e.payload

/-- Every staged event was handed to the broker or waits. -/
def OutboxWorld.KeepsAll (w : OutboxWorld) (outboxBuckets : Nat) : Prop :=
  forall e, e ∈ w.staged -> w.Handed e.eventId ∨ w.Waits outboxBuckets e

/-- All calls, as long as the ids of new events are new. -/
def openRules (outboxBuckets : Nat) :
    Rules OutboxCall outboxStorage PyExc Unit OutboxWorld :=
  outboxRules outboxBuckets (fun _ _ => True) (fun _ _ => True)

/-- What a call will still do: mark events late, and stage below a bound. -/
structure Careful (n : Nat) (w : OutboxWorld) (t : OutboxTask) : Prop where
  marks : forall eventId, w.Handed eventId ∨ MarksLate eventId t.prog
  stages : Prog.AllOps (OutboxOp.StagesBelow n) t.prog

section Steps

variable {n : Nat} {w : OutboxWorld} {call : OutboxCall} {o : OutboxOp}
  {next : Option (outboxStorage.Res o) -> Work Unit}

theorem careful_start (h : 32 ≤ n) (w : OutboxWorld) (call : OutboxCall) :
    Careful n w ⟨call, call.program⟩ := by
  constructor
  · intro eventId
    exact Or.inr (marksLate_program eventId call)
  · exact stagesBelow_program call h

theorem careful_other {t : OutboxTask} (h : Careful n w t) (o : OutboxOp) :
    Careful n (o.exec w).2 t := by
  constructor
  · intro eventId
    rcases h.marks eventId with hhanded | hlate
    · exact Or.inl (handed_exec hhanded)
    · exact Or.inr hlate
  · exact h.stages

theorem careful_next (h : Careful n w ⟨call, .op o next⟩) :
    Careful n (o.exec w).2 ⟨call, next (some (o.exec w).1)⟩ := by
  constructor
  · intro eventId
    rcases h.marks eventId with hhanded | hlate
    · exact Or.inl (handed_exec hhanded)
    · by_cases hpublishes : o.Publishes eventId
      · exact Or.inl (handed_publish hpublishes)
      · exact Or.inr (Prog.guarded_next hlate hpublishes)
  · exact h.stages.right _

theorem careful_fault (h : Careful n w ⟨call, .op o next⟩) :
    Careful n w ⟨call, next none⟩ := by
  constructor
  · intro eventId
    rcases h.marks eventId with hhanded | hlate
    · exact Or.inl hhanded
    · exact Or.inr hlate.right.left
  · exact h.stages.right _

theorem keepsAll_stage (hkeeps : w.KeepsAll n) {o' : Op}
    (hbelow : OutboxOp.StagesBelow n (.storage o'))
    (hnew : forall e, o'.stages = some e -> forall e', e' ∈ w.staged ->
      e'.eventId ≠ e.eventId) :
    ((OutboxOp.storage o').exec w).2.KeepsAll n := by
  have hworld : ((OutboxOp.storage o').exec w).2.KeepsAll n <->
      (w.stage o').KeepsAll n := Iff.rfl
  rw [hworld]
  unfold OutboxWorld.stage
  cases hstages : o'.stages with
  | none => exact hkeeps
  | some e =>
      intro e' he'
      rcases List.mem_append.mp he' with hold | hlast
      · rcases hkeeps e' hold with hhanded | ⟨hbucket, row, hrow, hrest⟩
        · exact Or.inl hhanded
        · refine Or.inr ⟨hbucket, row, ?_, hrest⟩
          show (w.putEvent e).event e'.bucket e'.eventId = some row
          rw [event_putEvent, if_neg (fun h => hnew e hstages e' hold h.right)]
          exact hrow
      · rw [List.mem_singleton.mp hlast]
        rcases hbelow e hstages with ⟨hbucket, hpublished⟩
        refine Or.inr ⟨hbucket, e, ?_, hpublished, rfl, rfl⟩
        show (w.putEvent e).event e.bucket e.eventId = some e
        rw [event_putEvent, if_pos ⟨rfl, rfl⟩]

theorem keepsAll_exec (hkeeps : w.KeepsAll n) (h : Careful n w ⟨call, .op o next⟩)
    (hnew : forall o' e, o = .storage o' -> o'.stages = some e ->
      forall e', e' ∈ w.staged -> e'.eventId ≠ e.eventId) :
    (o.exec w).2.KeepsAll n := by
  by_cases hstorage : exists o', o = .storage o'
  · rcases hstorage with ⟨o', rfl⟩
    exact keepsAll_stage hkeeps h.stages.left (fun e he => hnew o' e rfl he)
  · have hother : forall o', o ≠ .storage o' := fun o' ho => hstorage ⟨o', ho⟩
    intro e he
    rw [staged_exec hother] at he
    rcases hkeeps e he with hhanded | ⟨hbucket, row, hrow, hrest⟩
    · exact Or.inl (handed_exec hhanded)
    · rcases h.marks e.eventId with hhanded | hlate
      · exact Or.inl (handed_exec hhanded)
      · refine Or.inr ⟨hbucket, row, ?_, hrest⟩
        rw [event_exec hother _ hlate.left]
        exact hrow

end Steps

/-!
# Runs
-/

theorem localProof_keepsAll {outboxBuckets : Nat} (h : 32 ≤ outboxBuckets) :
    Pool.LocalProof (openRules outboxBuckets)
      (fun c => c.store.KeepsAll outboxBuckets) (Careful outboxBuckets)
      (fun _ _ => True) where
  symm := fun _ _ _ => trivial
  own := by
    intro before after call o next w hholds hpermits
    have htask := hholds.each ⟨call, .op o next⟩ (by simp)
    refine ⟨keepsAll_exec hholds.shared htask ?_, careful_next htask⟩
    intro o' e ho he
    subst ho
    exact hpermits.left o' next e rfl he
  ownFault := by
    intro before after call o next w hholds _
    exact ⟨hholds.shared, careful_fault (hholds.each ⟨call, .op o next⟩ (by simp))⟩
  stable := by
    intro c call o next q hholds _ _ hq _
    exact careful_other (hholds.each q hq) o
  apartNext := fun _ _ _ _ _ _ _ _ _ _ => trivial
  apartFault := fun _ _ _ _ _ _ _ _ _ _ => trivial
  stopped := fun _ _ _ _ _ _ hholds _ _ => hholds.shared
  started := by
    intro c call hholds _
    exact ⟨hholds.shared, careful_start h c.store call, fun _ _ => trivial⟩
  moved := fun _ _ _ _ hmoves => hmoves.elim

/-! A conversation of the last of the 32 buckets. -/

def strayPayload : ConversationEvent :=
  { conversationId := .ofInt 31
    userId := some (.ofInt 1)
    title := some []
    status := text "ACTIVE"
    parentConversationId := none
    branchMessageId := none
    createdAt := none }

def strayCall : OutboxCall :=
  .createConversation ⟨0, true⟩ (.ofInt 31) (.ofInt 1) [] .active (.ofInt 2)
    conversationCreatedTopic strayPayload none none

def strayEvent : OutboxEvent :=
  { bucket := 31
    eventId := .ofInt 2
    eventType := conversationCreatedTopic
    payload := .conversation strayPayload
    published := false
    createdAt := ⟨0, false⟩ }

theorem reaches_stray {outboxBuckets : Nat} (h : outboxBuckets < 32) :
    exists c, Pool.Reaches (openRules outboxBuckets) ⟨.blank, []⟩ c ∧
      ¬c.store.KeepsAll outboxBuckets := by
  have hstart : Pool.Allows (openRules outboxBuckets) ⟨.blank, []⟩ (.start strayCall) :=
    ⟨trivial, trivial⟩
  have hperform : Pool.Allows (openRules outboxBuckets)
      (Pool.play (openRules outboxBuckets) ⟨.blank, []⟩ (.start strayCall))
      (.perform 0) := by
    intro t _
    refine ⟨?_, trivial⟩
    intro o next e _ _ e' he'
    cases he'
  refine ⟨_, (Pool.reaches_play hstart).trans (Pool.reaches_play hperform), ?_⟩
  intro hkeeps
  have hstaged : strayEvent ∈ [strayEvent] := by simp
  rcases hkeeps strayEvent hstaged with hhanded | hwaits
  · rcases hhanded with ⟨record, hrecord, _⟩
    cases hrecord
  · have hbucket : 31 < outboxBuckets := hwaits.left
    omega

/--
Whatever the workers and the writers do, every staged event was handed to the broker or
waits in a bucket that is scanned, exactly when the scans reach all 32 buckets.
-/
theorem outbox_keeps_iff (outboxBuckets : Nat) :
    (forall w c, w.staged = [] -> Pool.Reaches (openRules outboxBuckets) ⟨w, []⟩ c ->
      c.store.KeepsAll outboxBuckets) <-> 32 ≤ outboxBuckets := by
  constructor
  · intro hall
    by_contra hfew
    rcases reaches_stray (Nat.not_le.mp hfew) with ⟨c, hreach, hlost⟩
    exact hlost (hall .blank c rfl hreach)
  · intro hmany w c hstaged hreach
    have hstart : Pool.Holds (fun c => c.store.KeepsAll outboxBuckets)
        (Careful outboxBuckets) (fun _ _ => True) (⟨w, []⟩ : OutboxPool) := by
      refine ⟨?_, ?_, List.Pairwise.nil⟩
      · intro e he
        rw [hstaged] at he
        cases he
      · intro t ht
        cases ht
    exact (Pool.holds_reaches (localProof_keepsAll hmany) hreach hstart).shared

/-- Sixteen buckets are accepted, and an event of a higher bucket is never scanned. -/
theorem sixteen_buckets_lose :
    ¬forall outboxBuckets, 0 < outboxBuckets -> forall w c, w.staged = [] ->
      Pool.Reaches (openRules outboxBuckets) ⟨w, []⟩ c -> c.store.KeepsAll outboxBuckets := by
  intro hall
  rcases reaches_stray (by decide : 16 < 32) with ⟨c, hreach, hlost⟩
  exact hlost (hall 16 (by decide) .blank c rfl hreach)

end ConversationService
