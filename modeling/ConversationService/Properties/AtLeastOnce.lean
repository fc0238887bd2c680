import ConversationService.Library.LogConsumer
import ConversationService.Model.ConsumerLoop
import ConversationService.Model.System

/-!
# At-least-once consumption

The loops of the Kafka consumer and of the summary worker commit after every record
whose handling returns, and leave a record on which it raises uncommitted. Since a
commit speaks for all records handed out, the record that raised is skipped by the
commit of a later one, unless the consumer is started again in between.
-/

namespace ConversationService

open Python Programs LogConsumer

abbrev TopicPartition : Type := Text × Nat

inductive ConsumerLoop where
  | kafka
  | summary
deriving DecidableEq, Repr

/-- What the body of a loop reads outside the stores. -/
structure RecordReadings where
  now : Datetime
  /-- `uuid.uuid4()` of a summary message -/
  summaryMessageId : UUID

def ConsumerLoop.body (d : Deployment) (conversations : Option CacheService)
    (reads : RecordReadings) : ConsumerLoop -> Record -> Py Unit
  | .kafka, record =>
      Consumers.processRecord d.consumer d.stream conversations reads.now record
  | .summary, record =>
      SummaryWorker.processRecord d.consumer reads.now reads.summaryMessageId record

/-- Any operation may raise, and everybody else may do anything to the store. -/
def ConsumerLoop.handler (d : Deployment) (conversations : Option CacheService)
    (loop : ConsumerLoop) : Handler Record Store :=
  { returns := fun record s t => exists reads,
      Prog.Finishes storageMachine anyFault (loop.body d conversations reads record) s
        (.ok ()) t
    raises := fun record s t => exists reads e,
      Prog.Finishes storageMachine anyFault (loop.body d conversations reads record) s
        (.error e) t
    stops := fun record s t => exists reads,
      Prog.Visits storageMachine anyFault (loop.body d conversations reads record) s t
    moves := fun _ _ => True }

/-- No handler has raised since the consumer was started. -/
def MayCommit (st : State TopicPartition Store) : Prop :=
  st.raised = false

/--
If no commit follows an exception in the same session, every committed record was
handled, and one that was not is handed out again by the next session.
-/
theorem consumed_atLeastOnce (d : Deployment) (conversations : Option CacheService)
    (loop : ConsumerLoop) (log : TopicPartition -> List Record) {s : Store} {st : State TopicPartition Store}
    (hrun : LogConsumer.Runs log (loop.handler d conversations) MayCommit (fresh s) st) :
    AtLeastOnce st ∧
    forall p n, (p, n) ∉ st.handled -> st.restarted.position p ≤ n := by
  have haccounted := accounted_runs hrun (accounted_fresh s)
  refine ⟨haccounted.committed, ?_⟩
  intro p n hn
  by_contra hlt
  exact hn (haccounted.committed p n (not_le.mp hlt))

def envelopeId : Json :=
  .str (text "00000000-0000-0000-0000-000000000001")

def envelopeRecord : Record :=
  { topic := titleGeneratedTopic
    value := some (.obj [(text "event_id", envelopeId)]) }

/-- An envelope without an id, which is skipped. -/
def anonymousRecord : Record :=
  { topic := titleGeneratedTopic, value := some (.obj []) }

def readingsAtOne : RecordReadings :=
  { now := ⟨1000, true⟩, summaryMessageId := .ofInt 1 }

theorem anonymous_returns (d : Deployment) (conversations : Option CacheService)
    (loop : ConsumerLoop) (s : Store) :
    (loop.handler d conversations).returns anonymousRecord s s := by
  refine ⟨readingsAtOne, ?_⟩
  cases loop with
  | kafka => exact Relation.ReflTransGen.refl
  | summary => exact Relation.ReflTransGen.refl

theorem uuidOfJson_envelopeId : Consumers.uuidOfJson envelopeId = .ret (.ofInt 1) := by
  have hparse : UUID.parse (text "00000000-0000-0000-0000-000000000001") =
      some (.ofInt 1) := by
    decide
  unfold Consumers.uuidOfJson envelopeId
  dsimp only
  rw [hparse]

theorem body_envelope (d : Deployment) (conversations : Option CacheService)
    (loop : ConsumerLoop) :
    exists rest, loop.body d conversations readingsAtOne envelopeRecord =
        (Consumers.uuidOfJson envelopeId >>= rest) ∧
      forall id, exists next, rest id = .op (.selectInbox (.envelope id)) next ∧
        next none = .raise .storage := by
  cases loop with
  | kafka => exact ⟨_, rfl, fun id => ⟨_, rfl, rfl⟩⟩
  | summary => exact ⟨_, rfl, fun id => ⟨_, rfl, rfl⟩⟩

theorem envelope_raises (d : Deployment) (conversations : Option CacheService)
    (loop : ConsumerLoop) (s : Store) :
    (loop.handler d conversations).raises envelopeRecord s s := by
  rcases body_envelope d conversations loop with ⟨rest, hbody, hrest⟩
  rcases hrest (.ofInt 1) with ⟨next, hnext, hnone⟩
  refine ⟨readingsAtOne, .storage, ?_⟩
  rw [hbody, uuidOfJson_envelopeId, Prog.ret_bind, hnext]
  have hstep : Prog.Step storageMachine anyFault
      ((.op (.selectInbox (.envelope (.ofInt 1))) next : Py Unit), s) (next none, s) :=
    Prog.Step.failed _ next s trivial
  rw [hnone] at hstep
  exact Relation.ReflTransGen.single hstep

/-- A partition with the two records, in the one order or the other. -/
def twoRecords (failing : Bool) (_ : TopicPartition) : List Record :=
  if failing then [envelopeRecord, anonymousRecord]
  else [anonymousRecord, envelopeRecord]

def titlePartition : TopicPartition := (titleGeneratedTopic, 0)

/-- The record that raises is the last one, and the next session begins with it. -/
theorem consumed_atLeastOnce_raised :
    exists st : State TopicPartition Store, st.committed titlePartition = 1 ∧ AtLeastOnce st ∧
      forall p n, (p, n) ∉ st.handled -> st.restarted.position p ≤ n := by
  let start : State TopicPartition Store := fresh Store.blank
  let committed : State TopicPartition Store :=
    { start with
      committed := start.advanced titlePartition
      position := start.advanced titlePartition
      handled := insert (titlePartition, 0) start.handled }
  have hcommit : LogConsumer.Step (twoRecords false)
      (ConsumerLoop.kafka.handler .single none) MayCommit start committed :=
    .commit start titlePartition anonymousRecord Store.blank rfl
      (anonymous_returns .single none .kafka Store.blank) rfl
  have hraise : LogConsumer.Step (twoRecords false)
      (ConsumerLoop.kafka.handler .single none) MayCommit committed
      { committed with position := committed.advanced titlePartition, raised := true } :=
    .raise committed titlePartition envelopeRecord Store.blank rfl
      (envelope_raises .single none .kafka Store.blank)
  exact ⟨_, rfl, consumed_atLeastOnce .single none .kafka (twoRecords false)
    (Relation.ReflTransGen.tail (Relation.ReflTransGen.single hcommit) hraise)⟩

/-- In either loop the commit of the second record skips the first one. -/
theorem raised_record_skipped :
    ¬exists loop : ConsumerLoop,
      forall (d : Deployment) (conversations : Option CacheService)
        (log : TopicPartition -> List Record) (s : Store) (st : State TopicPartition Store),
        LogConsumer.Runs log (loop.handler d conversations) (fun _ => True) (fresh s) st ->
        AtLeastOnce st := by
  rintro ⟨loop, h⟩
  let start : State TopicPartition Store := fresh Store.blank
  let raised : State TopicPartition Store :=
    { start with position := start.advanced titlePartition, raised := true }
  have hraise : LogConsumer.Step (twoRecords true) (loop.handler .single none)
      (fun _ => True) start raised :=
    .raise start titlePartition envelopeRecord Store.blank rfl
      (envelope_raises .single none loop Store.blank)
  have hcommit : LogConsumer.Step (twoRecords true) (loop.handler .single none)
      (fun _ => True) raised
      { raised with
        committed := raised.advanced titlePartition
        position := raised.advanced titlePartition
        handled := insert (titlePartition, 1) raised.handled } :=
    .commit raised titlePartition anonymousRecord Store.blank rfl
      (anonymous_returns .single none loop Store.blank) trivial
  have hlost := h _ _ _ _ _
    (Relation.ReflTransGen.tail (Relation.ReflTransGen.single hraise) hcommit)
    titlePartition 0 (by decide)
  rcases hlost with heq | hnone
  · cases heq
  · exact hnone

end ConversationService
