import ConversationService.Effects.Openings

/-!
# A message is sent as a whole or not at all

Placeholder, key, set entry and batch are written to two stores in this order. If one
of the writes raises, the compensations take the earlier ones back, and they can do it
exactly because all of them concern a response id that is new.
-/

namespace ConversationService

open Python Programs

variable {mayFail : Op -> Prop}

/-- A response id that neither store has seen. -/
structure FreshResponse (s : Store) (c r : UUID) : Prop where
  row : s.row c r = none
  marker : s.markers r = none
  entry : ¬s.IsPending r

/-- The row of a placeholder that was taken back. -/
def withdrawnStore (reads : Readings) (c r : UUID) (s : Store) : Store :=
  (s.upsertMessage c r (placeholderRow reads.placeholderTime)).upsertMessage c r
    Row.softDeleted

section Response

variable {svc : MessageService} {reads : Readings} {c r : UUID} {s t u : Store}

theorem withdrawn_of_opening (hcomp : CompensationsSucceed mayFail)
    (hfresh : FreshResponse s c r)
    (hu : u = s.upsertMessage c r (placeholderRow reads.placeholderTime) ∨
      (svc.redis = true ∧
        u = (s.upsertMessage c r (placeholderRow reads.placeholderTime)).setMarker r
          (some (registeredMarker svc c s))))
    (h : TakenBack mayFail svc.redis c r u t) : t = withdrawnStore reads c r s := by
  have hmarker : (s.upsertMessage c r (placeholderRow reads.placeholderTime)).markers r =
      none := hfresh.marker
  have hentry : ¬(s.upsertMessage c r
      (placeholderRow reads.placeholderTime)).IsPending r := hfresh.entry
  cases hredis : svc.redis with
  | false =>
      rcases hu with rfl | ⟨honline, _⟩
      · exact h.exact_offline hcomp hredis
      · rw [hredis] at honline
        cases honline
  | true =>
      rw [h.exact hcomp hredis]
      rcases hu with rfl | ⟨_, rfl⟩
      · rw [Store.setMarker_of_none hmarker, Store.removePending_of_not hentry]
        rfl
      · rw [Store.setMarker_setMarker, Store.setMarker_of_none hmarker,
          Store.removePending_of_not hentry]
        rfl

theorem withdrawn_of_discard (hcomp : CompensationsSucceed mayFail)
    (hfresh : FreshResponse s c r) (hredis : svc.redis = true)
    (h : TakenBack mayFail svc.redis c r (openedStore svc reads c r s) t) :
    t = withdrawnStore reads c r s := by
  have hmarker : (s.upsertMessage c r (placeholderRow reads.placeholderTime)).markers r =
      none := hfresh.marker
  have hentry : ¬(s.upsertMessage c r
      (placeholderRow reads.placeholderTime)).IsPending r := hfresh.entry
  have hcleared : ((openedStore svc reads c r s).setMarker r none).removePending r =
      s.upsertMessage c r (placeholderRow reads.placeholderTime) := by
    calc ((openedStore svc reads c r s).setMarker r none).removePending r
        = ((((s.upsertMessage c r (placeholderRow reads.placeholderTime)).setMarker r
            (some (registeredMarker svc c s))).setMarker r none).addPending r
              (deadline svc reads)).removePending r := rfl
      _ = ((s.upsertMessage c r (placeholderRow reads.placeholderTime)).addPending r
              (deadline svc reads)).removePending r := by
          rw [Store.setMarker_setMarker, Store.setMarker_of_none hmarker]
      _ = s.upsertMessage c r (placeholderRow reads.placeholderTime) := by
          rw [Store.removePending_addPending, Store.removePending_of_not hentry]
  rw [h.exact hcomp hredis, hcleared]
  rfl

end Response

/-!
# The two outcomes
-/

/-- What a message and its request need: new ids in both stores. -/
structure FreshRequest (reads : Readings) (args : SendArgs) (r : UUID) (s : Store) :
    Prop extends FreshResponse s args.conversationId r where
  message : s.row args.conversationId args.messageId = none
  event : s.outbox (MessageRepository.outboxBucket args.conversationId)
    reads.eventId = none

/-- Everything but the caches that were read through is as before. -/
structure NothingSent (args : SendArgs) (r : UUID) (s t : Store) : Prop where
  outbox : t.outbox = s.outbox
  message : t.row args.conversationId args.messageId = none
  response : t.row args.conversationId r = none ∨
    exists row, t.row args.conversationId r = some row ∧ row.status = .deleted
  rows : forall c m, ¬(c = args.conversationId ∧ m = r) -> t.row c m = s.row c m
  marker : t.markers r = none
  entry : ¬t.IsPending r
  markers : t.markers = s.markers
  pendingSet : t.pendingSet = s.pendingSet
  inbox : t.inbox = s.inbox
  conversations : t.conversations = s.conversations
  catalog : t.catalog = s.catalog
  conversationEvents : t.conversationEvents = s.conversationEvents
  idempotency : t.idempotency = s.idempotency
  preferences : t.preferences = s.preferences
  customModes : t.customModes = s.customModes
  eventLog : t.eventLog = s.eventLog
  published : t.published = s.published
  historyCache : forall c, c ≠ args.conversationId -> t.historyCache c = s.historyCache c

/-- The pending row, the key and the set entry of a response. -/
structure Covered (c r : UUID) (t : Store) : Prop where
  response : IsPendingReply t c r
  marker : exists mk, t.markers r = some mk ∧ mk.conversationId = c
  entry : t.IsPending r

theorem Covered.core {c r : UUID} {s t : Store} (h : Covered c r s)
    (hcore : SameCore s t) : Covered c r t := by
  constructor
  · rcases h.response with ⟨row, hrow, hpending⟩
    exact ⟨row, by rw [hcore.row, hrow], hpending⟩
  · rw [hcore.markers]
    exact h.marker
  · exact (hcore.isPending r).mpr h.entry

/-- The message, its event and its covered response, under one response id. -/
structure SentWhole (reads : Readings) (args : SendArgs) (r : UUID) (t : Store) :
    Prop extends Covered args.conversationId r t where
  message : exists row, t.row args.conversationId args.messageId = some row ∧
    row.sender = some .user ∧ row.content = some args.content ∧ row.status = .sent
  event : exists row,
    t.outbox (MessageRepository.outboxBucket args.conversationId) reads.eventId =
        some row ∧
      row.published = false ∧ row.payload.messageId = args.messageId ∧
      row.payload.responseMessageId = some r
  above : args.messageId.int < r.int

section Outcomes

variable {svc : MessageService} {reads : Readings} {args : SendArgs} {r : UUID}
  {s t u : Store}

theorem nothingSent_of_reads (hfresh : FreshRequest reads args r s)
    (h : ReadThrough args.conversationId s t) : NothingSent args r s t := by
  constructor
  · exact h.outbox
  · rw [h.row, hfresh.message]
  · left
    rw [h.row, hfresh.row]
  · intro c m _
    exact h.row c m
  · rw [h.markers, hfresh.marker]
  · rw [h.isPending]
    exact hfresh.entry
  · exact h.markers
  · exact h.pendingSet
  · exact h.inbox
  · exact h.conversations
  · exact h.catalog
  · exact h.conversationEvents
  · exact h.idempotency
  · exact h.preferences
  · exact h.customModes
  · exact h.eventLog
  · exact h.published
  · exact h.historyCache

theorem row_withdrawnStore_ne {c m : UUID}
    (hne : ¬(c = args.conversationId ∧ m = r)) :
    (withdrawnStore reads args.conversationId r u).row c m = u.row c m := by
  unfold withdrawnStore
  rw [Store.row_upsertMessage_ne _ _ hne, Store.row_upsertMessage_ne _ _ hne]

theorem nothingSent_of_withdrawn (hfresh : FreshRequest reads args r s)
    (hne : args.messageId ≠ r) (h : ReadThrough args.conversationId s u) :
    NothingSent args r s (withdrawnStore reads args.conversationId r u) := by
  have hmessage : ¬(args.conversationId = args.conversationId ∧ args.messageId = r) :=
    fun hkey => hne hkey.right
  constructor
  · exact h.outbox
  · rw [row_withdrawnStore_ne hmessage, h.row, hfresh.message]
  · right
    refine ⟨_, Store.row_upsertMessage_self _ _ _ _, ?_⟩
    rw [Store.row_upsertMessage_self]
    rfl
  · intro c m hkey
    rw [row_withdrawnStore_ne hkey, h.row]
  · show u.markers r = none
    rw [h.markers, hfresh.marker]
  · show ¬u.IsPending r
    rw [h.isPending]
    exact hfresh.entry
  · exact h.markers
  · exact h.pendingSet
  · exact h.inbox
  · exact h.conversations
  · exact h.catalog
  · exact h.conversationEvents
  · exact h.idempotency
  · exact h.preferences
  · exact h.customModes
  · exact h.eventLog
  · exact h.published
  · exact h.historyCache

theorem freshResponse_of_reads {c : UUID} (hfresh : FreshResponse s c r)
    (h : SameCore s u) : FreshResponse u c r := by
  constructor
  · rw [h.row, hfresh.row]
  · rw [h.markers, hfresh.marker]
  · rw [h.isPending]
    exact hfresh.entry

theorem covered_openedStore :
    Covered args.conversationId r (openedStore svc reads args.conversationId r u) := by
  constructor
  · refine ⟨placeholderRow reads.placeholderTime (u.row args.conversationId r), ?_, rfl,
      rfl⟩
    show (u.upsertMessage args.conversationId r
      (placeholderRow reads.placeholderTime)).row args.conversationId r = _
    rw [Store.row_upsertMessage_self]
  · refine ⟨registeredMarker svc args.conversationId u, ?_, rfl⟩
    exact Store.markers_setMarker_self _ _ _
  · unfold openedStore
    rw [Store.isPending_addPending]
    exact Or.inl rfl

theorem sentWhole_stagedStore (reads : Readings) (huser : args.sender = .user)
    (hne : args.messageId ≠ r)
    (habove : args.messageId.int < r.int) {payload : ChatMessageCreated}
    (hmessage : payload.messageId = args.messageId)
    (hresponse : payload.responseMessageId = some r)
    (h : Covered args.conversationId r u) :
    SentWhole reads args r
      (stagedStore reads args.conversationId args.messageId args.sender args.content
        .sent payload args.fileIds u) := by
  constructor
  · constructor
    · rcases h.response with ⟨row, hrow, hpending⟩
      refine ⟨row, ?_, hpending⟩
      unfold stagedStore
      rw [Store.row_putOutbox,
        Store.row_upsertMessage_ne _ _ (fun hkey => hne hkey.right.symm), hrow]
    · exact h.marker
    · exact h.entry
  · refine ⟨Row.staged args.sender args.content reads.batchTime .sent
      (args.fileIds.getD []) (u.row args.conversationId args.messageId), ?_, ?_, rfl, rfl⟩
    · unfold stagedStore
      rw [Store.row_putOutbox, Store.row_upsertMessage_self]
    · exact congrArg some huser
  · refine ⟨_, Store.outbox_putOutbox_self _ _ _ _, rfl, hmessage, hresponse⟩
  · exact habove

theorem SentWhole.core (h : SentWhole reads args r t) (hcore : SameCore t u) :
    SentWhole reads args r u := by
  constructor
  · exact h.toCovered.core hcore
  · rcases h.message with ⟨row, hrow, hrest⟩
    exact ⟨row, by rw [hcore.row, hrow], hrest⟩
  · rw [hcore.outbox]
    exact h.event
  · exact h.above

end Outcomes

section Send

variable (svc : MessageService) {reads : Readings} {args : SendArgs} {r : UUID}
  {s : Store}

structure UserRequest (reads : Readings) (args : SendArgs) (r : UUID) : Prop where
  sender : args.sender = .user
  version : args.messageId.version = 7
  response : MessageService.responseIdFor reads args = some r

theorem UserRequest.above (h : UserRequest reads args r) :
    args.messageId.int < r.int := by
  have hresponse := h.response
  unfold MessageService.responseIdFor at hresponse
  rw [h.sender] at hresponse
  cases hresponse
  exact uuidv7After_gt reads.response (int_lt_of_version h.version)

theorem UserRequest.ne (h : UserRequest reads args r) : args.messageId ≠ r := by
  intro heq
  have habove := h.above
  rw [heq] at habove
  exact absurd habove (Nat.lt_irrefl _)

theorem wp_send_outcome (hcomp : CompensationsSucceed mayFail)
    (hrequest : UserRequest reads args r) (hfresh : FreshRequest reads args r s) :
    Prog.wp storageMachine mayFail (svc.send reads args)
      (fun msg t => SentWhole reads args r t ∧ msg.responseMessageId = some r)
      (fun _ t => NothingSent args r s t) s := by
  unfold MessageService.send
  dsimp only
  rw [hrequest.response, Prog.wp_bind]
  apply wp_reads (MessageService.onlyReads_sendContext svc args)
  · intro context t ht
    rw [Prog.wp_bind]
    apply wp_reads
      (MessageService.onlyReads_resolvePreferences (k := args.conversationId) _ _ _ _)
    · intro resolved u hu
      have hsu := ht.trans hu
      have hfreshU := freshResponse_of_reads hfresh.toFreshResponse hsu.toSameCore
      rw [Prog.wp_bind]
      apply wp_openPendingResponse
      · intro hredis
        rw [Prog.wp_bind]
        apply wp_stageRequest
        · intro msg
          rw [Prog.wp_bind]
          apply MessageService.wp_invalidateCache
          intro v hv
          refine ⟨?_, rfl⟩
          exact (sentWhole_stagedStore reads hrequest.sender hrequest.ne hrequest.above
            rfl hrequest.response covered_openedStore).core hv
        · intro e v _ hv
          rw [withdrawn_of_discard hcomp hfreshU hredis hv]
          exact nothingSent_of_withdrawn hfresh hrequest.ne hsu
      · intro e _
        exact nothingSent_of_reads hfresh hsu
      · intro v w _ hv hw
        rw [withdrawn_of_opening hcomp hfreshU hv hw]
        exact nothingSent_of_withdrawn hfresh hrequest.ne hsu
    · intro e u hu
      exact nothingSent_of_reads hfresh (ht.trans hu)
  · intro e t ht
    exact nothingSent_of_reads hfresh ht

end Send

/-!
# States in between
-/

/-- Where the event is, there is a covered response for it. -/
def EventCovered (reads : Readings) (c r : UUID) (t : Store) : Prop :=
  t.outbox (MessageRepository.outboxBucket c) reads.eventId = none ∨ Covered c r t

def Op.KeepsOutbox (o : Op) : Prop :=
  forall s, (o.exec s).2.outbox = s.outbox

theorem Op.IsRead.keepsOutbox {c : UUID} {o : Op} (ho : o.IsRead c) : o.KeepsOutbox := by
  intro s
  exact (readThrough_exec ho s).outbox

theorem Op.OnResponse.keepsOutbox {c r : UUID} {o : Op} (ho : o.OnResponse c r) :
    o.KeepsOutbox := by
  intro s
  rcases exec_onResponse ho s with
    hcore | ⟨ttl, heq⟩ | ⟨score, heq⟩ | heq | heq | heq
  · exact hcore.outbox
  · rw [heq]
    rfl
  · rw [heq]
    rfl
  · rw [heq]
    rfl
  · rw [heq]
    rfl
  · rw [heq]
    rfl

section Between

variable {svc : MessageService} {reads : Readings} {args : SendArgs} {c r : UUID}
  {s : Store}

theorem onlyOps_keepsOutbox_openPendingResponse :
    OnlyOps Op.KeepsOutbox (svc.openPendingResponse reads c r) :=
  onlyOps_openPendingResponse svc reads (fun _ _ _ => rfl)
    (fun _ ho => ho.keepsOutbox)

theorem always_quiet {alpha : Type} {p : Py alpha} (hp : OnlyOps Op.KeepsOutbox p)
    (hevent : s.outbox (MessageRepository.outboxBucket c) reads.eventId = none) :
    Prog.Always storageMachine mayFail (EventCovered reads c r) p s := by
  have hnone : Prog.Always storageMachine mayFail
      (fun t => t.outbox (MessageRepository.outboxBucket c) reads.eventId = none) p s := by
    apply Prog.always_of_allOps (M := storageMachine) (J := fun t : Store =>
      t.outbox (MessageRepository.outboxBucket c) reads.eventId = none) hp _ hevent
    intro o t ho ht
    rw [storageMachine_exec, ho t, ht]
  exact Prog.always_mono hnone (fun t ht => Or.inl ht)

theorem always_covered {alpha : Type} {p : Py alpha} (hp : OnlyOps (Op.IsRead c) p)
    (hs : Covered c r s) :
    Prog.Always storageMachine mayFail (EventCovered reads c r) p s := by
  have hcovered : Prog.Always storageMachine mayFail (Covered c r) p s := by
    apply Prog.always_of_allOps hp _ hs
    intro o t ho ht
    exact ht.core (readThrough_exec ho t).toSameCore
  exact Prog.always_mono hcovered (fun t ht => Or.inr ht)

theorem always_stageRequest (hrequest : UserRequest reads args r)
    (hevent : s.outbox (MessageRepository.outboxBucket args.conversationId)
      reads.eventId = none) (hcovered : Covered args.conversationId r s)
    {payload : ChatMessageCreated} (hmessage : payload.messageId = args.messageId)
    (hresponse : payload.responseMessageId = some r) :
    Prog.Always storageMachine mayFail (EventCovered reads args.conversationId r)
      (svc.stageRequest reads args.conversationId args.messageId args.sender
        args.content .sent payload args.fileIds (some r)) s := by
  unfold MessageService.stageRequest
  apply Prog.always_tryCatch
  · unfold MessageRepository.createWithOutbox
    dsimp only
    rcases cqlText_eq (.str args.content) with ⟨t, htext, hret⟩ | ⟨_, e, hraise⟩
    · have heq : t = args.content := by
        unfold boundText at htext
        cases h : utf8Length args.content with
        | none => simp [h] at htext
        | some n => simpa [h] using htext.symm
      subst heq
      rw [hret, Prog.ret_bind]
      have hstaged := sentWhole_stagedStore reads hrequest.sender hrequest.ne
        hrequest.above hmessage hresponse hcovered
      exact ⟨Or.inl hevent, Or.inr hstaged.toCovered, fun _ => Or.inl hevent⟩
    · rw [hraise]
      exact Or.inl hevent
  · apply wp_createWithOutbox
    · intro msg _
      trivial
    · intro e _
      apply always_quiet _ hevent
      unfold MessageService.forResponse
      apply onlyOps_bind
      · exact Prog.allOps_mono (allOps_discardPendingResponse svc args.conversationId r)
          (fun _ ho => ho.keepsOutbox)
      · intro _
        exact onlyOps_raise e

theorem always_send (hrequest : UserRequest reads args r)
    (hevent : s.outbox (MessageRepository.outboxBucket args.conversationId)
      reads.eventId = none) :
    Prog.Always storageMachine mayFail (EventCovered reads args.conversationId r)
      (svc.send reads args) s := by
  have hreads : forall {alpha : Type} {p : Py alpha},
      OnlyOps (Op.IsRead args.conversationId) p -> OnlyOps Op.KeepsOutbox p := by
    intro alpha p hp
    exact Prog.allOps_mono hp (fun _ ho => ho.keepsOutbox)
  unfold MessageService.send
  dsimp only
  rw [hrequest.response]
  have hcontext := MessageService.onlyReads_sendContext svc args
  apply Prog.always_bind (always_quiet (hreads hcontext) hevent)
  apply wp_reads hcontext
  · intro context t ht
    have heventT : t.outbox (MessageRepository.outboxBucket args.conversationId)
        reads.eventId = none := by
      rw [ht.outbox, hevent]
    have hresolve := MessageService.onlyReads_resolvePreferences
      (k := args.conversationId) svc args.userId args.mode args.selectedTools
    apply Prog.always_bind (always_quiet (hreads hresolve) heventT)
    apply wp_reads hresolve
    · intro resolved u hu
      have heventU : u.outbox (MessageRepository.outboxBucket args.conversationId)
          reads.eventId = none := by
        rw [hu.outbox, heventT]
      apply Prog.always_bind (always_quiet onlyOps_keepsOutbox_openPendingResponse heventU)
      apply wp_openPendingResponse
      · intro _
        have hopened : Covered args.conversationId r
            (openedStore svc reads args.conversationId r u) := covered_openedStore
        apply Prog.always_bind
        · exact always_stageRequest
            (s := openedStore svc reads args.conversationId r u) hrequest heventU hopened
            rfl hrequest.response
        · apply wp_stageRequest
          · intro msg
            apply always_covered
            · apply onlyOps_bind (MessageService.onlyPages_invalidateCache _ _).readsPage
              intro _
              exact onlyOps_ret _
            · exact (sentWhole_stagedStore reads hrequest.sender hrequest.ne
                hrequest.above rfl hrequest.response hopened).toCovered
          · intro e v _ _
            trivial
      · intro e _
        trivial
      · intro v w _ _ _
        trivial
    · intro e u _
      trivial
  · intro e t _
    trivial

end Between

/-- How a send ends: with a whole message or with nothing. -/
def SendOutcome (reads : Readings) (args : SendArgs) (r : UUID) (s : Store)
    (result : Except PyExc Message) (t : Store) : Prop :=
  match result with
  | .ok msg => SentWhole reads args r t ∧ msg.responseMessageId = some r
  | .error _ => NothingSent args r s t

/--
Whichever operations of `send` raise, a message that raises has left nothing behind but
its deleted placeholder and refreshed caches, a message that returns is there as a
whole, and its event is never there without its pending row, its key and its set entry.
-/
theorem send_allOrNothing {svc : MessageService} {reads : Readings} {args : SendArgs}
    {r : UUID} {s t : Store} {result : Except PyExc Message}
    (hcomp : CompensationsSucceed mayFail) (hrequest : UserRequest reads args r)
    (hfresh : FreshRequest reads args r s)
    (hfin : Prog.Finishes storageMachine mayFail (svc.send reads args) s result t) :
    SendOutcome reads args r s result t ∧
      forall u, Prog.Visits storageMachine mayFail (svc.send reads args) s u ->
        u.outbox (MessageRepository.outboxBucket args.conversationId) reads.eventId ≠
          none -> Covered args.conversationId r u := by
  constructor
  · have hend := Prog.wp_finishes (wp_send_outcome svc hcomp hrequest hfresh) hfin
    cases result with
    | ok msg => exact hend
    | error e => exact hend
  · intro u hvisit hevent
    exact (Prog.always_visits (always_send hrequest hfresh.event) hvisit).resolve_left
      hevent

/-! A question in a conversation that has a history, while markers cannot be set. -/

def earlier : SendArgs :=
  .plain (.ofInt 1) (uuidv7 (.at 1000)) (text "Hello.")

def interrupted : SendArgs :=
  .plain (.ofInt 1) (uuidv7 (.at 2000)) (text "Hello again.")

def interruptedResponse : UUID :=
  uuidv7After interrupted.messageId (Readings.at 2001).response

def earlierStore : Store :=
  Call.after .single (.send (.at 1001) earlier) .blank

def failsToMark : Op -> Bool
  | .setPending _ _ _ => true
  | _ => false

theorem interrupted_fresh :
    FreshRequest (.at 2001) interrupted interruptedResponse earlierStore := by
  have hentry : interruptedResponse ∉ earlierStore.pendingSet.map Prod.fst := by
    decide
  constructor
  · constructor
    · decide
    · decide
    · intro h
      rcases h with ⟨score, hmem⟩
      exact hentry (List.mem_map.mpr ⟨_, hmem, rfl⟩)
  · decide
  · exact Option.isNone_iff_eq_none.mp (by decide)

theorem interrupted_request :
    UserRequest (.at 2001) interrupted interruptedResponse :=
  ⟨rfl, uuidv7_version _, rfl⟩

theorem send_allOrNothing_interrupted :
    (Prog.run storageMachine failsToMark
        (Deployment.single.api.send (.at 2001) interrupted) earlierStore).1.isOk = false ∧
      NothingSent interrupted interruptedResponse earlierStore
        (Prog.run storageMachine failsToMark
          (Deployment.single.api.send (.at 2001) interrupted) earlierStore).2 := by
  have hcomp : CompensationsSucceed (fun o => failsToMark o = true) :=
    ⟨fun _ _ => Bool.false_ne_true, fun _ => Bool.false_ne_true,
      fun _ => Bool.false_ne_true⟩
  have herror : (Prog.run storageMachine failsToMark
      (Deployment.single.api.send (.at 2001) interrupted) earlierStore).1.isOk = false := by
    decide
  refine ⟨herror, ?_⟩
  have hend := (send_allOrNothing hcomp interrupted_request interrupted_fresh
    (Prog.run_finishes storageMachine failsToMark
      (Deployment.single.api.send (.at 2001) interrupted) earlierStore)).left
  cases hrun : (Prog.run storageMachine failsToMark
      (Deployment.single.api.send (.at 2001) interrupted) earlierStore).1 with
  | ok msg =>
      rw [hrun] at herror
      cases herror
  | error e =>
      rw [hrun] at hend
      exact hend

/-- A send that raises has filled the cached page of the conversation all the same. -/
theorem interrupted_fillsCache :
    (Prog.run storageMachine failsToMark
        (Deployment.single.api.send (.at 2001) interrupted) earlierStore).1.isOk = false ∧
      (earlierStore.historyCache interrupted.conversationId).isNone = true ∧
      ((Prog.run storageMachine failsToMark
        (Deployment.single.api.send (.at 2001) interrupted) earlierStore).2.historyCache
          interrupted.conversationId).isSome = true :=
  ⟨by decide, by decide, by decide⟩

end ConversationService
