import ConversationService.Model.Consumers
import ConversationService.Model.PendingTimeoutWorker

/-!
# The message system

The calls that change messages, each run to its end before the next one starts,
and the passing of time between them. What an operation of a call may raise is a
parameter.
-/

namespace ConversationService

open Python Programs

/-- The service instances of the API, of the Kafka consumer and of the worker. -/
structure Deployment where
  api : MessageService
  consumer : MessageService
  stream : StreamService
  workerCache : CacheService
deriving DecidableEq, Repr

inductive Call where
  | send (reads : Readings) (args : SendArgs)
  | regenerate (reads : Readings) (conversationId messageId : UUID)
      (userId : Option UUID)
  | attachSummary (now : Datetime) (conversationId summaryMessageId : UUID)
      (summary : Text)
  | delete (conversationId messageId : UUID)
  | chunk (event : Event)
  | generated (now : Datetime) (event : Event)
  | timeoutPass (now : UUID -> Datetime) (nowTs : Nat)

/-- A handler whose answer nobody reads. -/
def ignoreResult {alpha : Type} (p : Py alpha) : Py Unit :=
  p >>= fun _ => .ret ()

def Call.program (d : Deployment) : Call -> Py Unit
  | .send reads args => ignoreResult (d.api.send reads args)
  | .regenerate reads c m userId => ignoreResult (d.api.regenerate reads c m userId)
  | .attachSummary now c m summary =>
      ignoreResult (d.consumer.attachSummary now c m summary)
  | .delete c m => ignoreResult (d.api.delete c m)
  | .chunk event => Consumers.handleChatResponseChunk d.stream event
  | .generated now event =>
      Consumers.handleChatResponseGenerated d.consumer d.stream now event
  | .timeoutPass now nowTs =>
      ignoreResult
        (PendingTimeoutWorker.processExpiredPending d.workerCache d.stream now nowTs)

/-!
# Time

The Redis server's clock moves on. Inbox records, cached pages, cached
conversations and replay logs may expire with it; a marker stays where it is but
is no longer live after its expiry time.
-/

structure Elapsed (s t : Store) : Prop where
  clock : s.clock ≤ t.clock
  inbox : forall key, t.inbox key = true -> s.inbox key = true
  historyCache : forall c, t.historyCache c = s.historyCache c ∨ t.historyCache c = none
  conversationCache : forall c,
    t.conversationCache c = s.conversationCache c ∨ t.conversationCache c = none
  eventLog : forall c, t.eventLog c <:+ s.eventLog c
  rest : t =
    { s with
      clock := t.clock
      inbox := t.inbox
      historyCache := t.historyCache
      conversationCache := t.conversationCache
      eventLog := t.eventLog }

theorem elapsed_clock (s : Store) (n : Nat) :
    Elapsed s { s with clock := s.clock + n } := by
  constructor
  · exact Nat.le_add_right _ _
  · intro key h
    exact h
  · intro c
    exact Or.inl rfl
  · intro c
    exact Or.inl rfl
  · intro c
    exact List.suffix_rfl
  · rfl

/-!
# Runs
-/

/-- The page of the history that `repo.history` answers without a cursor. -/
def historyPage (s : Store) (conversationId : UUID) (limit : Nat) : List Message :=
  ((s.messages conversationId).rows.take limit).filterMap
    (MessageRepository.liveMessage conversationId)

/-- The message ids that a call generates. -/
def Mints (d : Deployment) (s : Store) : Call -> UUID -> Prop
  | .send reads args, id =>
      id = args.messageId ∨ MessageService.responseIdFor reads args = some id
  | .regenerate reads c m _, id =>
      exists target below,
        MessageService.locate m
          (historyPage s c d.api.settings.cacheHistoryLimit) = some (target, below) ∧
        id = MessageService.regenerateResponseId reads target below.head?
  | .attachSummary _ _ summaryMessageId _, id => id = summaryMessageId
  | _, _ => False

/-- No conversation has a row under this id. -/
def Unused (s : Store) (id : UUID) : Prop :=
  forall c, s.row c id = none

/-- The generated ids are new, and a message and its reply get different ones. -/
structure MintsUnused (d : Deployment) (s : Store) (call : Call) : Prop where
  unused : forall id, Mints d s call id -> Unused s id
  distinct : forall reads args, call = .send reads args ->
    MessageService.responseIdFor reads args ≠ some args.messageId

theorem mintsUnused_of_none {d : Deployment} {s : Store} {call : Call}
    (hmints : forall id, ¬Mints d s call id)
    (hsend : forall reads args, call ≠ .send reads args) : MintsUnused d s call := by
  constructor
  · intro id h
    exact absurd h (hmints id)
  · intro reads args h
    exact absurd h (hsend reads args)

theorem mintsUnused_generated (d : Deployment) (now : Datetime) (event : Event)
    (s : Store) : MintsUnused d s (.generated now event) := by
  apply mintsUnused_of_none
  · intro id h
    exact h
  · intro reads args h
    cases h

theorem mintsUnused_timeoutPass (d : Deployment) (now : UUID -> Datetime) (nowTs : Nat)
    (s : Store) : MintsUnused d s (.timeoutPass now nowTs) := by
  apply mintsUnused_of_none
  · intro id h
    exact h
  · intro reads args h
    cases h

inductive Transition (d : Deployment) (mayFail : Op -> Prop)
    (guard : Store -> Call -> Prop) : Store -> Store -> Prop where
  | call (c : Call) {s t : Store} (r : Except PyExc Unit) :
      guard s c ->
      Prog.Finishes storageMachine mayFail (c.program d) s r t ->
      Transition d mayFail guard s t
  | elapse {s t : Store} : Elapsed s t -> Transition d mayFail guard s t

def Runs (d : Deployment) (mayFail : Op -> Prop) (guard : Store -> Call -> Prop) :
    Store -> Store -> Prop :=
  Relation.ReflTransGen (Transition d mayFail guard)

/-- A store before the first message and the first reply. -/
structure Initial (s : Store) : Prop where
  messages : forall c m, s.row c m = none
  inbox : forall r, s.inbox (Consumers.generatedKey r) = false
  markers : forall m, s.markers m = none
  pendingSet : s.pendingSet = []

/-- The empty store, with the clock at zero. -/
def Store.blank : Store :=
  { messages := fun _ => .empty
    outbox := fun _ _ => none
    inbox := fun _ => false
    conversations := fun _ => none
    catalog := fun _ => .empty
    conversationEvents := fun _ _ => none
    markers := fun _ => none
    pendingSet := []
    historyCache := fun _ => none
    conversationCache := fun _ => none
    idempotency := fun _ => none
    eventLog := fun _ => []
    published := fun _ => []
    preferences := fun _ => none
    customModes := fun _ _ => none
    clock := 0 }

theorem initial_blank : Initial Store.blank := by
  constructor
  · intro c m
    rfl
  · intro r
    rfl
  · intro m
    rfl
  · rfl

theorem mintsUnused_blank {d : Deployment} {reads : Readings} {args : SendArgs}
    (hdistinct : MessageService.responseIdFor reads args ≠ some args.messageId) :
    MintsUnused d Store.blank (.send reads args) := by
  constructor
  · intro id _ c
    rfl
  · intro reads' args' h
    cases h
    exact hdistinct

/-- Any operation may raise. -/
def anyFault : Op -> Prop := fun _ => True

/-- No operation raises. -/
def noFault : Op -> Prop := fun _ => False

/-- One process with Redis and the default settings. -/
def Deployment.single : Deployment :=
  let svc : MessageService :=
    { settings := .default
      cache := some ⟨true⟩
      preferences := true
      branchContext := some (some ⟨true⟩) }
  { api := svc
    consumer := svc
    stream := ⟨true⟩
    workerCache := ⟨true⟩ }

/-- A reading of the clock, with zeros for the random bytes. -/
def Python.ClockReading.at (timestampMs : BitVec 48) : ClockReading :=
  { timestampMs := timestampMs, randBytes := 0 }

/-- What a request reads at one moment. -/
def Readings.at (timestampMs : BitVec 48) : Readings :=
  let now : Datetime := ⟨timestampMs.toNat * 1000, true⟩
  { response := fun _ => .at timestampMs
    request := .at timestampMs
    eventId := .ofInt timestampMs.toNat
    correlationId := []
    payloadTime := now
    placeholderTime := now
    registrationTime := timestampMs.toNat * 1000
    batchTime := now }

/-- A user's message without files, mode or tools. -/
def SendArgs.plain (conversationId messageId : UUID) (content : Text) : SendArgs :=
  { conversationId := conversationId
    messageId := messageId
    sender := .user
    content := content
    userId := none
    mode := none
    selectedTools := none
    fileIds := none
    includeDiagrams := false }

/-- The store after a call in which no operation raises. -/
def Call.after (d : Deployment) (call : Call) (s : Store) : Store :=
  (Prog.run storageMachine (fun _ => false) (call.program d) s).2

theorem noFault_eq : (fun o => (fun _ : Op => false) o = true) = noFault := by
  funext o
  exact eq_false Bool.false_ne_true

theorem after_finishes (d : Deployment) (call : Call) (s : Store) :
    exists r, Prog.Finishes storageMachine noFault (call.program d) s r
      (call.after d s) := by
  refine ⟨(Prog.run storageMachine (fun _ => false) (call.program d) s).1, ?_⟩
  have hfin := Prog.run_finishes storageMachine (fun _ => false) (call.program d) s
  rw [noFault_eq] at hfin
  exact hfin

theorem exists_finishes_noFault {alpha : Type} (p : Py alpha) (s : Store) :
    exists result t, Prog.Finishes storageMachine noFault p s result t := by
  have hfin := Prog.run_finishes storageMachine (fun _ => false) p s
  rw [noFault_eq] at hfin
  exact ⟨_, _, hfin⟩

theorem exists_ok {alpha : Type} {p : Py alpha} {Q : alpha -> Store -> Prop} {s : Store}
    (h : Prog.wp storageMachine noFault p Q (fun _ _ => False) s) :
    exists a t, Prog.Finishes storageMachine noFault p s (.ok a) t ∧ Q a t := by
  rcases exists_finishes_noFault p s with ⟨result, t, hfin⟩
  have hend := Prog.wp_finishes h hfin
  cases result with
  | ok a => exact ⟨a, t, hfin, hend⟩
  | error e => exact absurd hend id

theorem run_ignoreResult {alpha : Type} (p : Py alpha) (fails : Op -> Bool)
    (s : Store) :
    (Prog.run storageMachine fails (ignoreResult p) s).2 =
      (Prog.run storageMachine fails p s).2 := by
  unfold ignoreResult
  induction p generalizing s with
  | ret a => rfl
  | raise e => rfl
  | op o next ih =>
      rw [Prog.op_bind]
      unfold Prog.run
      cases fails o with
      | true => exact ih _ _
      | false => exact ih _ _

theorem send_finishes {d : Deployment} {reads : Readings} {args : SendArgs} {s : Store}
    (hok : (Prog.run storageMachine (fun _ => false) (d.api.send reads args)
      s).1.isOk = true) :
    exists msg, Prog.Finishes storageMachine noFault (d.api.send reads args) s
      (.ok msg) (Call.after d (.send reads args) s) := by
  have hfin := Prog.run_finishes storageMachine (fun _ => false)
    (d.api.send reads args) s
  rw [noFault_eq, ← run_ignoreResult] at hfin
  cases hrun : (Prog.run storageMachine (fun _ => false) (d.api.send reads args) s).1 with
  | error e =>
      rw [hrun] at hok
      cases hok
  | ok msg =>
      rw [hrun] at hfin
      exact ⟨msg, hfin⟩

/-- What every transition keeps holds of every state of a run. -/
theorem runs_invariant {d : Deployment} {mayFail : Op -> Prop}
    {guard : Store -> Call -> Prop} {I : Store -> Prop}
    (hcall : forall c s t r, guard s c -> I s ->
      Prog.Finishes storageMachine mayFail (c.program d) s r t -> I t)
    (helapse : forall s t, Elapsed s t -> I s -> I t)
    {s t : Store} (hrun : Runs d mayFail guard s t) (hs : I s) : I t := by
  induction hrun with
  | refl => exact hs
  | tail _ hstep ih =>
      cases hstep with
      | call c r hguard hfin => exact hcall c _ _ r hguard ih hfin
      | elapse helapsed => exact helapse _ _ helapsed ih

end ConversationService
