import ConversationService.Effects.Operations
import ConversationService.Library.Pools
import ConversationService.Model.ConsumerLoop

/-!
# Summaries and redeliveries

Any number of deliveries of summary events, operation by operation, with operations that
raise and processes that stop. The worker looks at the inbox, inserts the summary under a
fresh id and only then writes its mark. A summary is attached once as long as no delivery
looks at the inbox between the two writes of another one, and no two deliveries of one
event insert after they have both found the inbox empty.
-/

namespace ConversationService

open Python Programs

/-- A record handed to a worker, with the time and the `uuid.uuid4()` that it reads. -/
structure SummaryDelivery where
  now : Datetime
  summaryMessageId : UUID
  record : Record

abbrev SummaryTask : Type := Task SummaryDelivery storage PyExc Unit

abbrev SummaryPool : Type := Pool SummaryDelivery storage PyExc Unit Store

/-- `UUID(event.get("event_id"))`, if the worker comes that far. -/
def SummaryWorker.eventId? (record : Record) : Option UUID :=
  match record.value with
  | some (.obj event) =>
      match Json.get event (text "event_id") with
      | .str s => UUID.parse s
      | _ => none
  | _ => none

def SummaryDelivery.eventId? (call : SummaryDelivery) : Option UUID :=
  SummaryWorker.eventId? call.record

section Once

-- for which event a fresh id was generated
variable (mintedFor : UUID -> Option UUID)

/-- A summary for the event is stored. -/
def HasSummary (s : Store) (eventId : UUID) : Prop :=
  exists c m, mintedFor m = some eventId ∧ (s.row c m).isSome = true

/-- No event has two summaries. -/
def OneSummary (s : Store) : Prop :=
  forall eventId c m c' m', mintedFor m = some eventId -> mintedFor m' = some eventId ->
    (s.row c m).isSome = true -> (s.row c' m').isSome = true -> m = m'

/-- Nobody else inserts rows under the fresh ids of the deliveries. -/
def SparesFreshIds (s t : Store) : Prop :=
  forall c m, (mintedFor m).isSome = true -> (t.row c m).isSome = true ->
    (s.row c m).isSome = true

def summaryRules (svc : MessageService) (permits : SummaryPool -> SummaryTask -> Prop) :
    Rules SummaryDelivery storage PyExc Unit Store where
  machine := storageMachine
  program call :=
    SummaryWorker.processRecord svc call.now call.summaryMessageId call.record
  permits := permits
  mayFail _ := True
  mayStart _ call :=
    forall eventId, call.eventId? = some eventId ->
      mintedFor call.summaryMessageId = some eventId
  mayStop _ := True
  moves := SparesFreshIds mintedFor

/-- The next operation of the task inserts its message. -/
def AboutToInsert (t : SummaryTask) : Prop :=
  match t.prog with
  | .op (.insertMessage _ _ _ _ _ _ _) _ => True
  | _ => False

/--
A delivery looks at the inbox only if a summary that is stored has its mark there, and it
inserts only if no other delivery of its event is about to insert.
-/
structure OneAtATime (pool : SummaryPool) (t : SummaryTask) : Prop where
  checks : forall eventId next, t.prog = .op (.selectInbox (.envelope eventId)) next ->
    HasSummary mintedFor pool.store eventId -> pool.store.inbox (.envelope eventId) = true
  inserts : AboutToInsert t -> forall t', t' ∈ pool.tasks ->
    t'.call.eventId? = t.call.eventId? ->
    t'.call.summaryMessageId ≠ t.call.summaryMessageId -> ¬AboutToInsert t'

end Once

/-!
# The course of a delivery
-/

def Op.LeavesRows (o : Op) : Prop :=
  forall s c m, (o.exec s).2.row c m = s.row c m

/-- Behind the insert, or where there is none. -/
def SummarySettled (p : Py Unit) : Prop :=
  Prog.AllOps Op.LeavesRows p

inductive SummaryInsert (m : UUID) : Py Unit -> Prop where
  | insert (c : UUID) (sender : Sender) (content : Text) (now : Datetime)
      (status : MessageStatus) (citations : Option Json) (next : Option Unit -> Py Unit) :
      (forall answer, SummarySettled (next answer)) ->
      SummaryInsert m (.op (.insertMessage c m sender content now status citations) next)

inductive SummaryCheck (eventId m : UUID) : Py Unit -> Prop where
  | select (next : Option Bool -> Py Unit) :
      (forall answer, answer ≠ some false -> SummarySettled (next answer)) ->
      SummarySettled (next (some false)) ∨ SummaryInsert m (next (some false)) ->
      SummaryCheck eventId m (.op (.selectInbox (.envelope eventId)) next)

inductive SummaryStage (eventId m : UUID) : Py Unit -> Prop where
  | checking {p : Py Unit} : SummaryCheck eventId m p -> SummaryStage eventId m p
  | inserting {p : Py Unit} : SummaryInsert m p -> SummaryStage eventId m p
  | settled {p : Py Unit} : SummarySettled p -> SummaryStage eventId m p

theorem not_leavesRows_insert {c m : UUID} {sender : Sender} {content : Text} {now : Datetime}
    {status : MessageStatus} {citations : Option Json} :
    ¬(Op.insertMessage c m sender content now status citations).LeavesRows := by
  intro h
  have hrow := h Store.blank c m
  rw [show ((Op.insertMessage c m sender content now status citations).exec Store.blank).2 =
    Store.blank.upsertMessage c m (Row.inserted sender content now status citations) from rfl,
    Store.row_upsertMessage_self] at hrow
  cases hrow

theorem not_aboutToInsert_of_settled {call : SummaryDelivery} {p : Py Unit} (h : SummarySettled p) :
    ¬AboutToInsert ⟨call, p⟩ := by
  intro habout
  cases p with
  | op o next =>
      cases o with
      | insertMessage c m sender content now status citations =>
          exact not_leavesRows_insert h.left
      | _ => exact habout
  | ret a => exact habout
  | raise e => exact habout

theorem leavesRows_deleteHistory (c : UUID) : (Op.deleteHistory c).LeavesRows :=
  fun _ _ _ => rfl

theorem settled_insertInbox (key : InboxKey) : SummarySettled (perform (.insertInbox key)) :=
  onlyOps_perform (fun _ _ _ => rfl)

theorem attachSummary_eq (svc : MessageService) (now : Datetime) (c m : UUID) {summary : Text}
    {length : Nat} (hlength : utf8Length (text "Summary: " ++ summary) = some length) :
    exists next : Option Unit -> Py Message,
      svc.attachSummary now c m summary =
        .op (.insertMessage c m .system (text "Summary: " ++ summary) now .sent none) next ∧
      forall answer, Prog.AllOps Op.LeavesRows (next answer) := by
  have htext : cqlText (.str (text "Summary: " ++ summary)) =
      .ret (text "Summary: " ++ summary) := by
    unfold cqlText
    dsimp only
    rw [hlength]
  unfold MessageService.attachSummary MessageRepository.createMessageDirect
  rw [show MessageRepository.cleanCitations .null = .ret [] from rfl, Prog.ret_bind, htext,
    Prog.ret_bind]
  refine ⟨_, rfl, ?_⟩
  intro answer
  cases answer with
  | none => trivial
  | some r =>
      show Prog.AllOps Op.LeavesRows (svc.invalidateCache c >>= fun _ => pure _)
      exact Prog.allOps_bind
        (MessageService.onlyOps_invalidateCache svc (leavesRows_deleteHistory c))
        (fun _ => trivial)

theorem attachSummary_refused (svc : MessageService) (now : Datetime) (c m : UUID)
    {summary : Text} (hlength : utf8Length (text "Summary: " ++ summary) = none) :
    svc.attachSummary now c m summary = .raise .unicodeError := by
  have htext : cqlText (.str (text "Summary: " ++ summary)) = .raise .unicodeError := by
    unfold cqlText
    dsimp only
    rw [hlength]
  unfold MessageService.attachSummary MessageRepository.createMessageDirect
  rw [show MessageRepository.cleanCitations .null = .ret [] from rfl, Prog.ret_bind, htext]
  rfl

theorem stage_attach (svc : MessageService) (now : Datetime) (m : UUID) (key : InboxKey)
    (conversationId : Py UUID) (hid : Prog.AllOps (fun _ => False) conversationId)
    (summary : Text) (p : Py Unit)
    (hp : p = (do
      let conversationId <- conversationId
      let _ <- svc.attachSummary now conversationId m summary
      perform (.insertInbox key))) : SummarySettled p ∨ SummaryInsert m p := by
  subst hp
  cases conversationId with
  | raise e => exact Or.inl trivial
  | op o next => exact hid.left.elim
  | ret c =>
      rw [Prog.ret_bind]
      cases hlength : utf8Length (text "Summary: " ++ summary) with
      | none =>
          rw [attachSummary_refused svc now c m hlength]
          exact Or.inl trivial
      | some length =>
          rcases attachSummary_eq svc now c m hlength with ⟨next, heq, hnext⟩
          rw [heq]
          refine Or.inr (SummaryInsert.insert c .system _ now .sent none _ ?_)
          intro answer
          exact Prog.allOps_bind (hnext answer) (fun _ => settled_insertInbox key)

theorem noOps_uuidOfJson (value : Json) :
    Prog.AllOps (fun _ => False) (Consumers.uuidOfJson value) := by
  unfold Consumers.uuidOfJson
  split
  · split
    · trivial
    · trivial
  · trivial
  · trivial

theorem noOps_payloadGet (payload : Json) (key : Text) :
    Prog.AllOps (fun _ => False) (SummaryWorker.payloadGet payload key) := by
  unfold SummaryWorker.payloadGet
  split
  · trivial
  · trivial

theorem outcome_of_noOps {alpha : Type} {p : Py alpha} (h : Prog.AllOps (fun _ => False) p) :
    (exists a, p = .ret a) ∨ exists e, p = .raise e := by
  cases p with
  | ret a => exact Or.inl ⟨a, rfl⟩
  | raise e => exact Or.inr ⟨e, rfl⟩
  | op o next => exact h.left.elim

theorem stage_handled (svc : MessageService) (call : SummaryDelivery) (key : InboxKey)
    (payload : Json) (p : Py Unit)
    (hp : p = (do
      let conversationIdStr <- SummaryWorker.payloadGet payload (text "conversation_id")
      let summary <- SummaryWorker.payloadGet payload (text "summary")
      if !conversationIdStr.truthy || !summary.truthy then pure ()
      else do
        let conversationId <- Consumers.uuidOfJson conversationIdStr
        let _ <- svc.attachSummary call.now conversationId call.summaryMessageId summary.pyStr
        perform (.insertInbox key))) :
    SummarySettled p ∨ SummaryInsert call.summaryMessageId p := by
  subst hp
  rcases outcome_of_noOps (noOps_payloadGet payload (text "conversation_id")) with
    ⟨rawId, hraw⟩ | ⟨e, hraw⟩
  · rw [hraw, Prog.ret_bind]
    rcases outcome_of_noOps (noOps_payloadGet payload (text "summary")) with
      ⟨summary, hsummary⟩ | ⟨e, hsummary⟩
    · rw [hsummary, Prog.ret_bind]
      split
      · exact Or.inl trivial
      · exact stage_attach svc call.now call.summaryMessageId key _ (noOps_uuidOfJson rawId) _ _
          rfl
    · rw [hsummary]
      exact Or.inl trivial
  · rw [hraw]
    exact Or.inl trivial

theorem stage_processRecord (svc : MessageService) (call : SummaryDelivery) :
    match call.eventId? with
    | some eventId =>
        SummaryCheck eventId call.summaryMessageId
            (SummaryWorker.processRecord svc call.now call.summaryMessageId call.record) ∨
          SummarySettled
            (SummaryWorker.processRecord svc call.now call.summaryMessageId call.record)
    | none =>
        SummarySettled
          (SummaryWorker.processRecord svc call.now call.summaryMessageId call.record) := by
  unfold SummaryDelivery.eventId? SummaryWorker.eventId? SummaryWorker.processRecord
  cases call.record.value with
  | none => trivial
  | some value =>
      cases value with
      | obj event =>
          dsimp only
          generalize Json.get event (text "event_id") = eventId
          cases eventId with
          | str s =>
              dsimp only
              cases hparse : UUID.parse s with
              | none =>
                  have hid : Consumers.uuidOfJson (.str s) = .raise .valueError := by
                    unfold Consumers.uuidOfJson
                    dsimp only
                    rw [hparse]
                  dsimp only
                  split
                  · rw [hid]
                    trivial
                  · trivial
              | some id =>
                  have hid : Consumers.uuidOfJson (.str s) = .ret id := by
                    unfold Consumers.uuidOfJson
                    dsimp only
                    rw [hparse]
                  dsimp only
                  split
                  · rw [hid, Prog.ret_bind]
                    refine Or.inl (SummaryCheck.select _ ?_ ?_)
                    · intro answer hanswer
                      cases answer with
                      | none => trivial
                      | some duplicate =>
                          cases duplicate with
                          | true => trivial
                          | false => exact absurd rfl hanswer
                    · exact stage_handled svc call _ _ _ rfl
                  · exact Or.inr trivial
          | null => trivial
          | bool b => cases b with
              | true => trivial
              | false => trivial
          | _ =>
              dsimp only
              split
              · trivial
              · trivial
      | _ => trivial

/-!
# Runs
-/

section Runs

variable {mintedFor : UUID -> Option UUID} {svc : MessageService}

/-- What a running delivery knows. -/
structure Delivering (mintedFor : UUID -> Option UUID) (s : Store) (t : SummaryTask) :
    Prop where
  minted : forall eventId, t.call.eventId? = some eventId ->
    mintedFor t.call.summaryMessageId = some eventId
  nameless : t.call.eventId? = none -> SummarySettled t.prog
  stage : forall eventId, t.call.eventId? = some eventId ->
    SummaryStage eventId t.call.summaryMessageId t.prog
  alone : SummaryInsert t.call.summaryMessageId t.prog ->
    forall eventId, t.call.eventId? = some eventId -> forall c m,
      mintedFor m = some eventId -> (s.row c m).isSome = true -> m = t.call.summaryMessageId

theorem aboutToInsert_of_inserting {call : SummaryDelivery} {m : UUID} {p : Py Unit}
    (h : SummaryInsert m p) : AboutToInsert ⟨call, p⟩ := by
  cases h with
  | insert => trivial

theorem not_inserting_of_settled {call : SummaryDelivery} {p : Py Unit} (h : SummarySettled p) :
    ¬SummaryInsert call.summaryMessageId p := by
  intro hinserting
  have habout : AboutToInsert ⟨call, p⟩ := aboutToInsert_of_inserting hinserting
  exact not_aboutToInsert_of_settled h habout

theorem not_inserting_of_checking {eventId m : UUID} {p : Py Unit}
    (h : SummaryCheck eventId m p) : ¬SummaryInsert m p := by
  intro hinserting
  cases hinserting with
  | insert => cases h

theorem inserting_op {m : UUID} {o : Op} {next : Option o.Res -> Py Unit}
    (h : SummaryInsert m (.op o next)) :
    (exists c f, forall s : Store, (o.exec s).2 = s.upsertMessage c m f) ∧
      forall answer, SummarySettled (next answer) := by
  cases h with
  | insert c sender content now status citations _ hnext =>
      exact ⟨⟨c, Row.inserted sender content now status citations, fun _ => rfl⟩, hnext⟩

theorem delivering_settled {s t : Store} {call : SummaryDelivery} {p p' : Py Unit}
    (h : Delivering mintedFor s ⟨call, p⟩) (hsettled : SummarySettled p') :
    Delivering mintedFor t ⟨call, p'⟩ where
  minted := h.minted
  nameless _ := hsettled
  stage _ _ := .settled hsettled
  alone hinserting := (not_inserting_of_settled hsettled hinserting).elim

theorem delivering_fewer {s s' : Store} {t : SummaryTask} (h : Delivering mintedFor s t)
    (hrows : SparesFreshIds mintedFor s s') : Delivering mintedFor s' t where
  minted := h.minted
  nameless := h.nameless
  stage := h.stage
  alone hinserting eventId hid c m hm hrow :=
    h.alone hinserting eventId hid c m hm (hrows c m (by rw [hm]; rfl) hrow)

theorem oneSummary_fewer {s s' : Store} (h : OneSummary mintedFor s)
    (hrows : SparesFreshIds mintedFor s s') : OneSummary mintedFor s' := by
  intro eventId c m c' m' hm hm' hrow hrow'
  exact h eventId c m c' m' hm hm' (hrows c m (by rw [hm]; rfl) hrow)
    (hrows c' m' (by rw [hm']; rfl) hrow')

theorem sparesFreshIds_leavesRows {o : Op} (h : o.LeavesRows) (s : Store) :
    SparesFreshIds mintedFor s (o.exec s).2 := by
  intro c m _ hrow
  rw [h s c m] at hrow
  exact hrow

/-- What an operation of a delivery does to the rows. -/
inductive SummaryWrite (t : SummaryTask) (o : Op) : Prop where
  | leaves : o.LeavesRows -> SummaryWrite t o
  | inserts (eventId c : UUID) (f : Option Row -> Row) :
      t.call.eventId? = some eventId -> SummaryInsert t.call.summaryMessageId t.prog ->
      (forall s : Store, (o.exec s).2 = s.upsertMessage c t.call.summaryMessageId f) ->
      SummaryWrite t o

theorem summaryWrite_of_delivering {s : Store} {call : SummaryDelivery} {o : Op}
    {next : Option o.Res -> Py Unit} (h : Delivering mintedFor s ⟨call, .op o next⟩) :
    SummaryWrite ⟨call, .op o next⟩ o := by
  cases hid : call.eventId? with
  | none => exact .leaves (h.nameless hid).left
  | some eventId =>
      have hstage := h.stage eventId hid
      cases hstage with
      | checking hchecking =>
          cases hchecking with
          | select _ _ _ => exact .leaves (fun _ _ _ => rfl)
      | settled hsettled => exact .leaves hsettled.left
      | inserting hinserting =>
          rcases (inserting_op hinserting).left with ⟨c, f, hexec⟩
          exact .inserts eventId c f hid hinserting hexec

theorem stored_upsert {s : Store} {c m c' m' : UUID} {f : Option Row -> Row}
    (h : ((s.upsertMessage c m f).row c' m').isSome = true) :
    m' = m ∨ (s.row c' m').isSome = true := by
  rw [Store.row_upsertMessage] at h
  split at h
  · rename_i hsame
    exact Or.inl hsame.right
  · exact Or.inr h

theorem oneSummary_exec {s : Store} {call : SummaryDelivery} {o : Op}
    {next : Option o.Res -> Py Unit} (hone : OneSummary mintedFor s)
    (h : Delivering mintedFor s ⟨call, .op o next⟩) : OneSummary mintedFor (o.exec s).2 := by
  cases summaryWrite_of_delivering h with
  | leaves hleaves => exact oneSummary_fewer hone (sparesFreshIds_leavesRows hleaves s)
  | inserts eventId c f hid hinserting hexec =>
      have halone : forall eventId' c' m', mintedFor m' = some eventId' ->
          mintedFor call.summaryMessageId = some eventId' ->
          ((s.upsertMessage c call.summaryMessageId f).row c' m').isSome = true ->
          m' = call.summaryMessageId := by
        intro eventId' c' m' hm' hown hrow
        rw [h.minted eventId hid] at hown
        cases hown
        rcases stored_upsert hrow with hsame | hold
        · exact hsame
        · exact h.alone hinserting eventId hid c' m' hm' hold
      rw [hexec]
      intro eventId' c' m' c'' m'' hm' hm'' hrow' hrow''
      rcases stored_upsert hrow' with rfl | hold'
      · exact (halone eventId' c'' m'' hm'' hm' hrow'').symm
      · rcases stored_upsert hrow'' with rfl | hold''
        · exact halone eventId' c' m' hm' hm'' hrow'
        · exact hone eventId' c' m' c'' m'' hm' hm'' hold' hold''

theorem delivering_next {pool : SummaryPool} {call : SummaryDelivery} {o : Op}
    {next : Option o.Res -> Py Unit} (h : Delivering mintedFor pool.store ⟨call, .op o next⟩)
    (hpermits : OneAtATime mintedFor pool ⟨call, .op o next⟩) :
    Delivering mintedFor (o.exec pool.store).2
      ⟨call, next (some (o.exec pool.store).1)⟩ := by
  cases hid : call.eventId? with
  | none => exact delivering_settled h ((h.nameless hid).right _)
  | some eventId =>
      have hstage := h.stage eventId hid
      cases hstage with
      | settled hsettled => exact delivering_settled h (hsettled.right _)
      | inserting hinserting =>
          exact delivering_settled h ((inserting_op hinserting).right _)
      | checking hchecking =>
          cases hchecking with
          | select next hfound hempty =>
              cases hinbox : pool.store.inbox (.envelope eventId) with
              | true =>
                  apply delivering_settled h
                  show SummarySettled (next (some (pool.store.inbox (.envelope eventId))))
                  rw [hinbox]
                  exact hfound (some true) (fun heq => by cases heq)
              | false =>
                  show Delivering mintedFor pool.store
                    ⟨call, next (some (pool.store.inbox (.envelope eventId)))⟩
                  rw [hinbox]
                  have hnone : ¬HasSummary mintedFor pool.store eventId := by
                    intro hsummary
                    have hmarked := hpermits.checks eventId next rfl hsummary
                    rw [hinbox] at hmarked
                    cases hmarked
                  rcases hempty with hsettled | hinserting
                  · exact delivering_settled h hsettled
                  · refine ⟨h.minted, ?_, ?_, ?_⟩
                    · intro hnameless
                      rw [hid] at hnameless
                      cases hnameless
                    · intro eventId' hid'
                      exact .inserting hinserting
                    · intro _ eventId' hid' c m hm hrow
                      rw [hid] at hid'
                      cases hid'
                      exact absurd ⟨c, m, hm, hrow⟩ hnone

theorem delivering_failed {s : Store} {call : SummaryDelivery} {o : Op}
    {next : Option o.Res -> Py Unit} (h : Delivering mintedFor s ⟨call, .op o next⟩) :
    Delivering mintedFor s ⟨call, next none⟩ := by
  cases hid : call.eventId? with
  | none => exact delivering_settled h ((h.nameless hid).right none)
  | some eventId =>
      have hstage := h.stage eventId hid
      cases hstage with
      | settled hsettled => exact delivering_settled h (hsettled.right none)
      | inserting hinserting =>
          exact delivering_settled h ((inserting_op hinserting).right none)
      | checking hchecking =>
          cases hchecking with
          | select _ hfound hempty =>
              exact delivering_settled h (hfound none (fun heq => by cases heq))

theorem delivering_other {pool : SummaryPool} {call : SummaryDelivery} {o : Op}
    {next : Option o.Res -> Py Unit} {q : SummaryTask}
    (h : Delivering mintedFor pool.store ⟨call, .op o next⟩)
    (hq : Delivering mintedFor pool.store q) (hmem : q ∈ pool.tasks)
    (hpermits : OneAtATime mintedFor pool ⟨call, .op o next⟩) :
    Delivering mintedFor (o.exec pool.store).2 q := by
  cases summaryWrite_of_delivering h with
  | leaves hleaves => exact delivering_fewer hq (sparesFreshIds_leavesRows hleaves pool.store)
  | inserts eventId c f hid hinserting hexec =>
      rw [hexec]
      refine ⟨hq.minted, hq.nameless, hq.stage, ?_⟩
      intro hqInserting eventId' hid' c' m' hm' hrow
      rcases stored_upsert hrow with hsame | hold
      · rw [hsame]
        rw [hsame, h.minted eventId hid] at hm'
        cases hm'
        by_contra hne
        have habout : AboutToInsert ⟨call, .op o next⟩ := aboutToInsert_of_inserting hinserting
        exact hpermits.inserts habout q hmem (hid'.trans hid.symm) (fun heq => hne heq.symm)
          (aboutToInsert_of_inserting hqInserting)
      · exact hq.alone hqInserting eventId' hid' c' m' hm' hold

theorem delivering_started {s : Store} {call : SummaryDelivery}
    (hminted : forall eventId, call.eventId? = some eventId ->
      mintedFor call.summaryMessageId = some eventId) :
    Delivering mintedFor s ⟨call,
      SummaryWorker.processRecord svc call.now call.summaryMessageId call.record⟩ := by
  have hstage := stage_processRecord svc call
  cases hid : call.eventId? with
  | none =>
      rw [hid] at hstage
      refine ⟨hminted, fun _ => hstage, ?_, ?_⟩
      · intro eventId heq
        exact absurd (hid.symm.trans heq) (fun h => by cases h)
      · intro hinserting
        exact (not_inserting_of_settled hstage hinserting).elim
  | some eventId =>
      rw [hid] at hstage
      refine ⟨hminted, ?_, ?_, ?_⟩
      · intro heq
        exact absurd (hid.symm.trans heq) (fun h => by cases h)
      · intro eventId' heq
        cases hid.symm.trans heq
        exact hstage.elim .checking .settled
      · intro hinserting
        rcases hstage with hchecking | hsettled
        · exact (not_inserting_of_checking hchecking hinserting).elim
        · exact (not_inserting_of_settled hsettled hinserting).elim

theorem localProof_summaries :
    Pool.LocalProof (summaryRules mintedFor svc (OneAtATime mintedFor))
      (fun pool => OneSummary mintedFor pool.store) (Delivering mintedFor)
      (fun _ _ => True) where
  symm _ _ _ := trivial
  own before after call o next s h hpermits := by
    have hown := h.each _ (List.mem_append_right _ List.mem_cons_self)
    exact ⟨oneSummary_exec h.shared hown, delivering_next hown hpermits⟩
  ownFault before after call o next s h _ :=
    ⟨h.shared, delivering_failed (h.each _ (List.mem_append_right _ List.mem_cons_self))⟩
  stable pool call o next q h hmem hpermits hq _ :=
    delivering_other (h.each _ hmem) (h.each q hq) hq hpermits
  apartNext _ _ _ _ _ _ _ _ _ _ := trivial
  apartFault _ _ _ _ _ _ _ _ _ _ := trivial
  stopped _ _ _ _ _ _ h _ _ := h.shared
  started pool call h hstart := ⟨h.shared, delivering_started hstart, fun _ _ => trivial⟩
  moved tasks s t h hmove :=
    ⟨oneSummary_fewer h.shared hmove, fun q hq => delivering_fewer (h.each q hq) hmove⟩

/--
In every run in which the deliveries look at the inbox and insert in turn, no event gets a
second summary.
-/
theorem summary_attached_once {s : Store} {pool : SummaryPool}
    (hfresh : forall c m, (mintedFor m).isSome = true -> s.row c m = none)
    (hreach : Pool.Reaches (summaryRules mintedFor svc (OneAtATime mintedFor)) ⟨s, []⟩ pool) :
    OneSummary mintedFor pool.store := by
  have hnone : OneSummary mintedFor s := by
    intro eventId c m c' m' hm _ hrow _
    rw [hfresh c m (by rw [hm]; rfl)] at hrow
    cases hrow
  exact (Pool.holds_reaches localProof_summaries hreach
    (c := ⟨s, []⟩)
    ⟨hnone, fun _ h => (List.not_mem_nil h).elim, List.Pairwise.nil⟩).shared

end Runs

/-!
# An event that is delivered twice
-/

def summaryEvent : Record :=
  { topic := text "conversation.summary.generated"
    value := some (.obj
      [(text "event_id", .str (text "00000000-0000-0000-0000-000000000001")),
        (text "payload", .obj
          [(text "conversation_id", .str (text "00000000-0000-0000-0000-000000000002")),
            (text "summary", .str (text "s"))])]) }

def firstDelivery : SummaryDelivery := ⟨⟨1000, true⟩, .ofInt 11, summaryEvent⟩

def secondDelivery : SummaryDelivery := ⟨⟨2000, true⟩, .ofInt 12, summaryEvent⟩

def mintedForBoth (m : UUID) : Option UUID :=
  if m = .ofInt 11 ∨ m = .ofInt 12 then some (.ofInt 1) else none

theorem minted_of_delivery {call : SummaryDelivery}
    (hcall : call = firstDelivery ∨ call = secondDelivery) :
    forall eventId, call.eventId? = some eventId ->
      mintedForBoth call.summaryMessageId = some eventId := by
  intro eventId hid
  rcases hcall with rfl | rfl
  · have heq : firstDelivery.eventId? = some (.ofInt 1) := by decide
    cases heq.symm.trans hid
    rfl
  · have heq : secondDelivery.eventId? = some (.ofInt 1) := by decide
    cases heq.symm.trans hid
    rfl

def summaryPool (permits : SummaryPool -> SummaryTask -> Prop)
    (acts : List (Pool.Act SummaryDelivery)) : SummaryPool :=
  acts.foldl (Pool.play (summaryRules mintedForBoth Deployment.single.consumer permits))
    ⟨.blank, []⟩

/-- The worker stops behind the insert, and the event is delivered again. -/
def cutOffDelivery : List (Pool.Act SummaryDelivery) :=
  [.start firstDelivery, .perform 0, .perform 0, .stop 0,
    .start secondDelivery, .perform 0, .perform 0]

theorem allowsAll_summaries {pool : SummaryPool} (acts : List (Pool.Act SummaryDelivery))
    (hcalls : forall call, Pool.Act.start call ∈ acts ->
      call = firstDelivery ∨ call = secondDelivery) :
    Pool.AllowsAll
      (summaryRules mintedForBoth Deployment.single.consumer (fun _ _ => True)) pool acts := by
  apply Pool.allowsAll_of_forall
  intro act hact pool
  cases act with
  | start call => exact minted_of_delivery (hcalls call hact)
  | perform i => exact fun _ _ => trivial
  | fault i => exact fun _ _ _ _ => trivial
  | stop i => exact fun _ _ => ⟨trivial, trivial⟩

/-- The second delivery attaches a second summary. -/
theorem summary_attached_twice :
    exists pool, Pool.Reaches
        (summaryRules mintedForBoth Deployment.single.consumer (fun _ _ => True))
        ⟨.blank, []⟩ pool ∧
      (pool.store.row (.ofInt 2) (.ofInt 11)).isSome = true ∧
      (pool.store.row (.ofInt 2) (.ofInt 12)).isSome = true ∧
      ¬OneSummary mintedForBoth pool.store := by
  have hfirst : ((summaryPool (fun _ _ => True) cutOffDelivery).store.row (.ofInt 2)
      (.ofInt 11)).isSome = true := by
    decide
  have hsecond : ((summaryPool (fun _ _ => True) cutOffDelivery).store.row (.ofInt 2)
      (.ofInt 12)).isSome = true := by
    decide
  refine ⟨_, Pool.reaches_schedule (allowsAll_summaries cutOffDelivery ?_), hfirst,
    hsecond, ?_⟩
  · intro call hcall
    simp only [cutOffDelivery, List.mem_cons, Pool.Act.start.injEq, reduceCtorEq,
      List.not_mem_nil, false_or, or_false] at hcall
    exact hcall
  · intro hone
    have heq := hone (.ofInt 1) (.ofInt 2) (.ofInt 11) (.ofInt 2) (.ofInt 12) rfl rfl hfirst
      hsecond
    exact absurd heq (by decide)

/-- A test from which `OneAtATime` follows. -/
def deliversAlone (pool : SummaryPool) : Pool.Act SummaryDelivery -> Bool
  | .start call =>
      call.eventId? == some (.ofInt 1) && mintedForBoth call.summaryMessageId == some (.ofInt 1)
  | .perform i =>
      match pool.tasks[i]? with
      | some ⟨_, .op (.selectInbox key) _⟩ => pool.store.inbox key
      | some _ => pool.tasks.length == 1
      | none => true
  | _ => true

theorem allows_of_deliversAlone (pool : SummaryPool) (act : Pool.Act SummaryDelivery)
    (h : deliversAlone pool act = true) :
    Pool.Allows (summaryRules mintedForBoth Deployment.single.consumer
      (OneAtATime mintedForBoth)) pool act := by
  cases act with
  | start call =>
      rcases Bool.and_eq_true_iff.mp h with ⟨hid, hminted⟩
      intro eventId heq
      cases (eq_of_beq hid).symm.trans heq
      exact eq_of_beq hminted
  | perform i =>
      intro t ht
      unfold deliversAlone at h
      dsimp only at h
      rw [ht] at h
      refine ⟨?_, ?_⟩
      · intro eventId next hprog _
        rcases t with ⟨call, prog⟩
        subst hprog
        exact h
      · intro habout t' ht' _ hne
        have hlength : pool.tasks.length = 1 := by
          rcases t with ⟨call, prog⟩
          cases prog with
          | op o next =>
              cases o with
              | insertMessage => exact eq_of_beq h
              | _ => exact habout.elim
          | ret a => exact habout.elim
          | raise e => exact habout.elim
        rcases List.length_eq_one_iff.mp hlength with ⟨only, honly⟩
        have hmem := List.mem_of_getElem? ht
        rw [honly, List.mem_singleton] at hmem ht'
        exact absurd (by rw [hmem, ht']) hne
  | fault i => exact fun _ _ _ _ => trivial
  | stop i => exact fun _ _ => ⟨trivial, trivial⟩

/-- The event is delivered once more behind the mark. -/
def markedDelivery : List (Pool.Act SummaryDelivery) :=
  [.perform 0, .perform 0, .perform 0, .start secondDelivery, .perform 1]

theorem summary_attached_once_marked :
    ((summaryPool (OneAtATime mintedForBoth)
        ([.start firstDelivery, .perform 0] ++ markedDelivery)).store.row (.ofInt 2)
        (.ofInt 11)).isSome = true ∧
      OneSummary mintedForBoth (summaryPool (OneAtATime mintedForBoth)
        ([.start firstDelivery, .perform 0] ++ markedDelivery)).store := by
  have hrow : ((summaryPool (OneAtATime mintedForBoth)
      ([.start firstDelivery, .perform 0] ++ markedDelivery)).store.row (.ofInt 2)
      (.ofInt 11)).isSome = true := by
    decide
  have hchecks : Pool.checks
      (summaryRules mintedForBoth Deployment.single.consumer (OneAtATime mintedForBoth))
      deliversAlone (summaryPool (OneAtATime mintedForBoth) [.start firstDelivery, .perform 0])
      markedDelivery = true := by
    decide
  refine ⟨hrow, summary_attached_once (fun _ _ _ => rfl) (Pool.reaches_schedule
    (Pool.allowsAll_append ⟨minted_of_delivery (Or.inl rfl), ?_, trivial⟩
      (Pool.allowsAll_of_checks allows_of_deliversAlone hchecks)))⟩
  intro t ht
  have hempty : forall eventId, ¬HasSummary mintedForBoth Store.blank eventId := by
    rintro eventId ⟨c, m, _, hstored⟩
    cases hstored
  refine ⟨fun eventId _ _ hsummary => (hempty eventId hsummary).elim, ?_⟩
  intro _ t' ht' _ hne
  cases ht
  rw [List.mem_singleton.mp ht'] at hne
  exact absurd rfl hne

end ConversationService
