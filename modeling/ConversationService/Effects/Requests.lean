import ConversationService.Effects.Replies

/-!
# What sending and regenerating do

A request first reads, then writes the placeholder of its reply, works on that
reply's id, and stages its event. The rules below carry one property of the store
up to the batch and another one from there on, whichever operations raise.
-/

namespace ConversationService

open Python Programs

variable {mayFail : Op -> Prop}

def Op.OnResponse (c r : UUID) : Op -> Prop
  | .setPending m c' _ => m = r ∧ c' = c
  | .zaddPending m _ => m = r
  | .deletePending m => m = r
  | .zremPending m => m = r
  | .updateDeleted c' m => c' = c ∧ m = r
  | _ => False

def Op.Clears (r : UUID) : Op -> Prop
  | .deletePending m => m = r
  | .zremPending m => m = r
  | _ => False

theorem Op.Clears.onResponse {c r : UUID} {o : Op} (ho : o.Clears r) : o.OnResponse c r := by
  cases o <;> trivial

theorem exec_onResponse {c r : UUID} {o : Op} (ho : o.OnResponse c r) (s : Store) :
    SameCore s (o.exec s).2 ∨
      (exists ttl, (o.exec s).2 = s.setMarker r (some ⟨c, s.clock + ttl⟩)) ∨
      (exists score, (o.exec s).2 = s.addPending r score) ∨
      (o.exec s).2 = s.setMarker r none ∨
      (o.exec s).2 = s.removePending r ∨
      (o.exec s).2 = s.upsertMessage c r Row.softDeleted := by
  cases o with
  | setPending m c' ttl =>
      rcases ho with ⟨rfl, rfl⟩
      exact Or.inr (Or.inl ⟨ttl, rfl⟩)
  | zaddPending m score =>
      cases ho
      exact Or.inr (Or.inr (Or.inl ⟨score, rfl⟩))
  | deletePending m =>
      cases ho
      exact Or.inr (Or.inr (Or.inr (Or.inl rfl)))
  | zremPending m =>
      cases ho
      exact Or.inr (Or.inr (Or.inr (Or.inr (Or.inl rfl))))
  | updateDeleted c' m =>
      rcases ho with ⟨rfl, rfl⟩
      exact Or.inr (Or.inr (Or.inr (Or.inr (Or.inr rfl))))
  | _ => exact ho.elim

theorem row_onResponse_ne {c r c' m : UUID} {o : Op} (ho : o.OnResponse c r)
    (hne : ¬(c' = c ∧ m = r)) (s : Store) : (o.exec s).2.row c' m = s.row c' m := by
  rcases exec_onResponse ho s with hcore | ⟨ttl, heq⟩ | ⟨score, heq⟩ | heq | heq | heq
  · exact hcore.row c' m
  · rw [heq]
    rfl
  · rw [heq]
    rfl
  · rw [heq]
    rfl
  · rw [heq]
    rfl
  · rw [heq, Store.row_upsertMessage_ne _ _ hne]

def placeholderRow (now : Datetime) : Option Row -> Row :=
  Row.inserted .assistant [] now .pending none

def IsDeleted (s : Store) (c m : UUID) : Prop :=
  exists row, s.row c m = some row ∧ row.status = .deleted

def IsPendingReply (s : Store) (c r : UUID) : Prop :=
  exists row, s.row c r = some row ∧ row.sender = some .assistant ∧
    row.status = .pending

/-- The store after the batch of a message and its event. -/
def stagedStore (reads : Readings) (c m : UUID) (sender : Sender) (content : Text)
    (status : MessageStatus) (payload : ChatMessageCreated)
    (fileIds : Option (List UUID)) (s : Store) : Store :=
  (s.upsertMessage c m
    (Row.staged sender content reads.batchTime status (fileIds.getD []))).putOutbox
      (MessageRepository.outboxBucket c) reads.eventId
      { eventType := chatMessageCreatedTopic, payload := payload,
        published := false, createdAt := reads.batchTime }

/-!
# The steps of a request
-/

section Steps

variable (svc : MessageService) (reads : Readings)

theorem onlyClears_clearPendingResponse (r : UUID) :
    OnlyOps (Op.Clears r) (svc.clearPendingResponse r) := by
  unfold MessageService.clearPendingResponse
  apply onlyOps_tryCatch
  · split
    · exact onlyOps_bind (onlyOps_perform rfl) (fun _ => onlyOps_perform rfl)
    · exact onlyOps_raise _
  · intro e
    exact onlyOps_ret _

theorem allOps_clearPendingResponse (c r : UUID) :
    Prog.AllOps (Op.OnResponse c r) (svc.clearPendingResponse r) :=
  Prog.allOps_mono (onlyClears_clearPendingResponse svc r) (fun _ ho => ho.onResponse)

theorem allOps_softDeletePlaceholder (c r : UUID) :
    Prog.AllOps (Op.OnResponse c r) (MessageService.softDeletePlaceholder c r) := by
  unfold MessageService.softDeletePlaceholder MessageRepository.delete
  apply Prog.allOps_tryCatch
  · apply Prog.allOps_bind
    · apply Prog.allOps_bind
      · exact (Prog.allOps_perform (S := storage) _ _).mpr ⟨rfl, rfl⟩
      · intro _
        trivial
    · intro _
      trivial
  · intro e
    trivial

theorem allOps_registerPendingResponse (c r : UUID) :
    Prog.AllOps (Op.OnResponse c r) (svc.registerPendingResponse reads c r) := by
  unfold MessageService.registerPendingResponse
  split
  · apply Prog.allOps_tryCatch
    · apply Prog.allOps_bind
      · exact (Prog.allOps_perform (S := storage) _ _).mpr ⟨rfl, rfl⟩
      · intro _
        exact (Prog.allOps_perform (S := storage) _ _).mpr rfl
    · intro e
      apply Prog.allOps_bind (allOps_clearPendingResponse svc c r)
      intro _
      trivial
  · trivial

theorem allOps_discardPendingResponse (c r : UUID) :
    Prog.AllOps (Op.OnResponse c r) (svc.discardPendingResponse c r) := by
  unfold MessageService.discardPendingResponse
  apply Prog.allOps_bind (allOps_softDeletePlaceholder c r)
  intro _
  exact allOps_clearPendingResponse svc c r

theorem onlyOps_openPendingResponse {P : Op -> Prop} {c r : UUID}
    (hinsert : forall content status,
      P (.insertMessage c r .assistant content reads.placeholderTime status none))
    (hresponse : forall o, Op.OnResponse c r o -> P o) :
    OnlyOps P (svc.openPendingResponse reads c r) := by
  unfold MessageService.openPendingResponse MessageRepository.createMessageDirect
  apply onlyOps_bind
  · have hwrite : OnlyOps P (perform (.insertMessage c r .assistant [] reads.placeholderTime
        .pending none)) := onlyOps_perform (hinsert [] .pending)
    refine ⟨hwrite.left, ?_⟩
    intro answer
    cases answer <;> trivial
  · intro _
    apply onlyOps_tryCatch
    · exact Prog.allOps_mono (allOps_registerPendingResponse svc reads c r) hresponse
    · intro e
      split
      · apply onlyOps_bind
        · exact Prog.allOps_mono (allOps_softDeletePlaceholder c r) hresponse
        · intro _
          exact onlyOps_raise e
      · exact onlyOps_raise e

theorem onlyOps_stageRequest {P : Op -> Prop} {c m : UUID} {sender : Sender}
    {content : Text} {status : MessageStatus} {payload : ChatMessageCreated}
    {fileIds : Option (List UUID)} {response : Option UUID}
    (hbatch : forall content files bucket row,
      P (.batchMessageOutbox c m sender content reads.batchTime status files bucket
        reads.eventId row))
    (hresponse : forall r o, response = some r -> Op.OnResponse c r o -> P o) :
    OnlyOps P
      (svc.stageRequest reads c m sender content status payload fileIds response) := by
  unfold MessageService.stageRequest MessageRepository.createWithOutbox
  apply onlyOps_tryCatch
  · refine onlyOps_bind (onlyOps_cqlText P _) (fun content => ?_)
    exact onlyOps_bind (onlyOps_perform (hbatch _ _ _ _)) (fun _ => onlyOps_ret _)
  · intro e
    refine onlyOps_bind ?_ (fun _ => onlyOps_raise e)
    unfold MessageService.forResponse
    cases response with
    | none => exact onlyOps_ret ()
    | some r =>
        exact Prog.allOps_mono (allOps_discardPendingResponse svc c r)
          (fun o ho => hresponse r o rfl ho)

theorem onlyOps_send {P : Op -> Prop} {args : SendArgs}
    (hread : forall o, Op.IsRead args.conversationId o -> P o)
    (hinsert : forall r content status citations,
      MessageService.responseIdFor reads args = some r ->
      P (.insertMessage args.conversationId r .assistant content reads.placeholderTime
        status citations))
    (hresponse : forall r o, MessageService.responseIdFor reads args = some r ->
      Op.OnResponse args.conversationId r o -> P o)
    (hbatch : forall content status files bucket row,
      P (.batchMessageOutbox args.conversationId args.messageId args.sender content
        reads.batchTime status files bucket reads.eventId row)) :
    OnlyOps P (svc.send reads args) := by
  unfold MessageService.send
  dsimp only
  refine onlyOps_bind (Prog.allOps_mono (MessageService.onlyReads_sendContext svc args) hread)
    (fun context => ?_)
  refine onlyOps_bind (Prog.allOps_mono
    (MessageService.onlyReads_resolvePreferences svc _ _ _) hread) (fun resolved => ?_)
  refine onlyOps_bind ?_ (fun _ => ?_)
  · unfold MessageService.forResponse
    split
    · rename_i r hr
      exact onlyOps_openPendingResponse svc reads
        (fun content status => hinsert r content status none hr)
        (fun o ho => hresponse r o hr ho)
    · exact onlyOps_ret ()
  · refine onlyOps_bind ?_ (fun msg => ?_)
    · refine onlyOps_stageRequest svc reads ?_ hresponse
      intro content files bucket row
      exact hbatch content _ files bucket row
    · refine onlyOps_bind ?_ (fun _ => onlyOps_ret _)
      exact Prog.allOps_mono (MessageService.onlyPages_invalidateCache svc _)
        (fun o ho => hread o ho.isRead)

theorem onlyOps_regenerateTarget {P : Op -> Prop} {c m : UUID} (userId : Option UUID)
    (target : Message) (below : List Message) {r : UUID}
    (hr : MessageService.regenerateResponseId reads target below.head? = r)
    (hread : forall o, Op.IsRead c o -> P o)
    (hinsert : forall content status citations,
      P (.insertMessage c r .assistant content reads.placeholderTime status citations))
    (hresponse : forall o, Op.OnResponse c r o -> P o)
    (hbatch : forall content status files bucket row,
      P (.batchMessageOutbox c r .assistant content reads.batchTime status files bucket
        reads.eventId row))
    (hdelete : P (.updateDeleted c m)) :
    OnlyOps P (svc.regenerateTarget reads c m userId target below) := by
  subst hr
  unfold MessageService.regenerateTarget
  dsimp only
  refine onlyOps_bind (Prog.allOps_mono
    (MessageService.onlyReads_resolvePreferences svc _ _ _) hread) (fun resolved => ?_)
  refine onlyOps_bind (onlyOps_openPendingResponse svc reads
    (fun content status => hinsert content status none) hresponse)
    (fun _ => ?_)
  refine onlyOps_bind ?_ (fun _ => onlyOps_bind ?_ (fun _ => onlyOps_bind ?_ (fun _ =>
    onlyOps_ret _)))
  · apply onlyOps_stageRequest svc reads
    · intro content files bucket row
      exact hbatch content _ files bucket row
    · intro r o hr ho
      cases hr
      exact hresponse o ho
  · unfold MessageService.deleteReplaced MessageService.softDeletePlaceholder
    split
    · apply onlyOps_tryCatch
      · refine onlyOps_bind ?_ (fun _ => onlyOps_ret _)
        exact onlyOps_bind (onlyOps_perform hdelete) (fun _ => onlyOps_ret _)
      · intro e
        exact onlyOps_ret _
    · exact onlyOps_ret ()
  · exact Prog.allOps_mono (MessageService.onlyPages_invalidateCache svc _)
      (fun o ho => hread o ho.isRead)

theorem wp_openPendingResponse_keeps {c r : UUID} {K : Store -> Prop} {s : Store}
    {Q : Unit -> Store -> Prop} {E : PyExc -> Store -> Prop}
    (hplace : K (s.upsertMessage c r (placeholderRow reads.placeholderTime)))
    (hkeep : forall o t, Op.OnResponse c r o -> K t -> K (o.exec t).2)
    (hQ : forall t, K t -> Q () t) (hE : forall e t, K t ∨ t = s -> E e t) :
    Prog.wp storageMachine mayFail (svc.openPendingResponse reads c r) Q E s := by
  unfold MessageService.openPendingResponse
  rw [Prog.wp_bind]
  apply wp_createMessageDirect
  · intro t column msg htext hcolumn
    have hempty : t = [] := by
      simpa [boundText, utf8Length] using htext.symm
    have hnone : column = none := by
      simpa [citationsColumn, Json.truthy] using hcolumn.symm
    subst hempty hnone
    have hrest : Prog.AllOps (Op.OnResponse c r)
        (Prog.tryCatch (svc.registerPendingResponse reads c r) (fun e =>
          if e = .pendingResponseRegistration then do
            MessageService.softDeletePlaceholder c r
            Prog.raise e
          else Prog.raise e)) := by
      apply Prog.allOps_tryCatch (allOps_registerPendingResponse svc reads c r)
      intro e
      split
      · apply Prog.allOps_bind (allOps_softDeletePlaceholder c r)
        intro _
        trivial
      · trivial
    apply Prog.wp_mono (Prog.wp_of_allOps (M := storageMachine) hrest hkeep hplace)
    · intro _ t ht
      exact hQ t ht
    · intro e t ht
      exact hE e t (Or.inl ht)
  · intro e _
    exact hE e s (Or.inr rfl)

theorem wp_createWithOutbox (c m : UUID) (sender : Sender) (content : Text)
    (status : MessageStatus) (payload : ChatMessageCreated)
    (fileIds : Option (List UUID)) {s : Store} {Q : Message -> Store -> Prop}
    {E : PyExc -> Store -> Prop}
    (hQ : forall msg, boundText (.str content) = some content ->
      Q msg (stagedStore reads c m sender content status payload fileIds s))
    (hE : forall e, (boundText (.str content) = none ∨ exists o, mayFail o) -> E e s) :
    Prog.wp storageMachine mayFail
      (MessageRepository.createWithOutbox reads.batchTime c m sender content status
        reads.eventId chatMessageCreatedTopic payload fileIds) Q E s := by
  unfold MessageRepository.createWithOutbox
  dsimp only
  rw [Prog.wp_bind]
  rcases cqlText_eq (.str content) with ⟨t, htext, hret⟩ | ⟨htext, e, hraise⟩
  · have heq : t = content := by
      unfold boundText at htext
      cases h : utf8Length content with
      | none => simp [h] at htext
      | some n => simpa [h] using htext.symm
    subst heq
    rw [hret, Prog.wp_ret, Prog.wp_bind, wp_perform]
    exact ⟨hQ _ htext, fun hfail => hE _ (Or.inr ⟨_, hfail⟩)⟩
  · rw [hraise, Prog.wp_raise]
    exact hE e (Or.inl htext)

theorem wp_stageRequest_keeps (c m : UUID) (sender : Sender) (content : Text)
    (status : MessageStatus) (payload : ChatMessageCreated)
    (fileIds : Option (List UUID)) (response : Option UUID) {K : Store -> Prop}
    {s : Store} {Q : Message -> Store -> Prop} {E : PyExc -> Store -> Prop}
    (hs : K s)
    (hkeep : forall r o t, response = some r -> Op.OnResponse c r o -> K t ->
      K (o.exec t).2)
    (hQ : forall msg,
      Q msg (stagedStore reads c m sender content status payload fileIds s))
    (hE : forall e t, K t -> E e t) :
    Prog.wp storageMachine mayFail
      (svc.stageRequest reads c m sender content status payload fileIds response)
      Q E s := by
  unfold MessageService.stageRequest
  rw [Prog.wp_tryCatch]
  apply wp_createWithOutbox
  · intro msg _
    exact hQ msg
  · intro e _
    rw [Prog.wp_bind]
    unfold MessageService.forResponse
    cases response with
    | none => exact hE e s hs
    | some r =>
        apply Prog.wp_mono
          (Prog.wp_of_allOps (M := storageMachine)
            (allOps_discardPendingResponse svc c r)
            (fun o t ho ht => hkeep r o t rfl ho ht) hs)
        · intro _ t ht
          exact hE e t ht
        · intro e' t ht
          exact hE e' t ht

end Steps

/-!
# Whole requests
-/

section Requests

variable (svc : MessageService) (reads : Readings)

theorem wp_send_keeps (args : SendArgs) {K L : Store -> Prop} {s : Store}
    (hplace : forall r t, MessageService.responseIdFor reads args = some r ->
      SameCore s t ->
      K (t.upsertMessage args.conversationId r (placeholderRow reads.placeholderTime)))
    (hkeep : forall r o t, MessageService.responseIdFor reads args = some r ->
      Op.OnResponse args.conversationId r o -> K t -> K (o.exec t).2)
    (hstage : forall payload t,
      (K t ∨ (MessageService.responseIdFor reads args = none ∧ SameCore s t)) ->
      L (stagedStore reads args.conversationId args.messageId args.sender
        args.content .sent payload args.fileIds t))
    (hcore : forall t u, L t -> SameCore t u -> L u) :
    Prog.wp storageMachine mayFail (svc.send reads args)
      (fun msg t => L t ∧
        msg.responseMessageId = MessageService.responseIdFor reads args)
      (fun _ t => K t ∨ SameCore s t) s := by
  unfold MessageService.send
  dsimp only
  rw [Prog.wp_bind]
  apply wp_traffic (MessageService.onlyReads_sendContext svc args).isTraffic
  · intro context t ht
    rw [Prog.wp_bind]
    apply wp_traffic (MessageService.onlyReads_resolvePreferences (k := args.conversationId) _ _ _ _).isTraffic
    · intro resolved u hu
      rw [Prog.wp_bind]
      -- the batch and the invalidation, once the response is open
      have hrest : forall v, (K v ∨
          (MessageService.responseIdFor reads args = none ∧ SameCore s v)) ->
          Prog.wp storageMachine mayFail
            (svc.stageRequest reads args.conversationId args.messageId args.sender
              args.content .sent (MessageService.sendPayload reads args context resolved)
              args.fileIds (MessageService.responseIdFor reads args) >>= fun msg =>
              svc.invalidateCache args.conversationId >>= fun _ =>
                pure { msg with
                  responseMessageId := MessageService.responseIdFor reads args })
            (fun msg t => L t ∧
              msg.responseMessageId = MessageService.responseIdFor reads args)
            (fun _ t => K t ∨ SameCore s t) v := by
        intro v hv
        rw [Prog.wp_bind]
        apply wp_stageRequest_keeps svc reads (K := fun t => K t ∨
          (MessageService.responseIdFor reads args = none ∧ SameCore s t))
        · exact hv
        · intro r o t hr ho ht
          rcases ht with ht | hnone
          · exact Or.inl (hkeep r o t hr ho ht)
          · rw [hnone.left] at hr
            cases hr
        · intro msg
          rw [Prog.wp_bind]
          apply MessageService.wp_invalidateCache
          intro w hw
          exact ⟨hcore _ _ (hstage _ v hv) hw, rfl⟩
        · intro e t ht
          rcases ht with ht | hnone
          · exact Or.inl ht
          · exact Or.inr hnone.right
      unfold MessageService.forResponse
      cases hresponse : MessageService.responseIdFor reads args with
      | none =>
          rw [hresponse] at hrest
          exact hrest u (Or.inr ⟨rfl, ht.trans hu⟩)
      | some r =>
          rw [hresponse] at hrest
          dsimp only
          apply wp_openPendingResponse_keeps (K := K)
          · exact hplace r u hresponse (ht.trans hu)
          · intro o t ho hKt
            exact hkeep r o t hresponse ho hKt
          · intro v hv
            exact hrest v (Or.inl hv)
          · intro e v hv
            rcases hv with hv | rfl
            · exact Or.inl hv
            · exact Or.inr (ht.trans hu)
    · intro e u hu
      exact Or.inr (ht.trans hu)
  · intro e t ht
    exact Or.inr ht

theorem wp_regenerate_keeps (c m : UUID) (userId : Option UUID)
    {K L : Store -> Prop} {s : Store}
    (hplace : forall target below t,
      MessageService.locate m (historyPage s c svc.settings.cacheHistoryLimit) =
        some (target, below) -> SameCore s t ->
      K (t.upsertMessage c
        (MessageService.regenerateResponseId reads target below.head?)
        (placeholderRow reads.placeholderTime)))
    (hkeep : forall target below o t,
      MessageService.locate m (historyPage s c svc.settings.cacheHistoryLimit) =
        some (target, below) ->
      Op.OnResponse c (MessageService.regenerateResponseId reads target below.head?) o ->
      K t -> K (o.exec t).2)
    (hstage : forall target below payload t,
      MessageService.locate m (historyPage s c svc.settings.cacheHistoryLimit) =
        some (target, below) -> K t ->
      L (stagedStore reads c
        (MessageService.regenerateResponseId reads target below.head?) .assistant []
        .pending payload none t))
    (hdelete : forall target below t,
      MessageService.locate m (historyPage s c svc.settings.cacheHistoryLimit) =
        some (target, below) -> target.sender = some .assistant -> L t ->
      L (t.upsertMessage c m Row.softDeleted))
    (hcore : forall t u, L t -> SameCore t u -> L u) :
    Prog.wp storageMachine mayFail (svc.regenerate reads c m userId)
      (fun _ t => L t ∨ SameCore s t) (fun _ t => K t ∨ SameCore s t) s := by
  unfold MessageService.regenerate
  rw [Prog.wp_bind]
  apply wp_repositoryHistory
  · cases hlocate : MessageService.locate m
        (historyPage s c svc.settings.cacheHistoryLimit) with
    | none => exact Or.inr (SameCore.refl s)
    | some found =>
        rcases found with ⟨target, below⟩
        dsimp only
        unfold MessageService.regenerateTarget
        dsimp only
        rw [Prog.wp_bind]
        apply wp_traffic (MessageService.onlyReads_resolvePreferences (k := c) _ _ _ _).isTraffic
        · intro resolved t ht
          rw [Prog.wp_bind]
          apply wp_openPendingResponse_keeps (K := K)
          · exact hplace target below t hlocate ht
          · intro o u ho hu
            exact hkeep target below o u hlocate ho hu
          · intro u hu
            rw [Prog.wp_bind]
            apply wp_stageRequest_keeps (K := K)
            · exact hu
            · intro r o v hr ho hv
              cases hr
              exact hkeep target below o v hlocate ho hv
            · intro msg
              have hstaged := hstage target below
                (MessageService.regeneratePayload reads c m userId
                  (MessageService.regenerateResponseId reads target below.head?)
                  below.head? below.tail resolved) u hlocate hu
              have hlast : forall v, L v ->
                  Prog.wp storageMachine mayFail
                    (svc.invalidateCache c >>= fun _ =>
                      pure (some { target with
                        responseMessageId := some
                          (MessageService.regenerateResponseId reads target
                            below.head?) }))
                    (fun _ t => L t ∨ SameCore s t) (fun _ t => K t ∨ SameCore s t)
                    v := by
                intro v hv
                rw [Prog.wp_bind]
                apply MessageService.wp_invalidateCache
                intro w hw
                exact Or.inl (hcore v w hv hw)
              rw [Prog.wp_bind]
              unfold MessageService.deleteReplaced
              by_cases hsender : target.sender = some .assistant
              · rw [if_pos hsender]
                unfold MessageService.softDeletePlaceholder MessageRepository.delete
                rw [Prog.wp_tryCatch, Prog.wp_bind, Prog.wp_bind, wp_perform]
                constructor
                · exact hlast _ (hdelete target below _ hlocate hsender hstaged)
                · intro _
                  exact hlast _ hstaged
              · rw [if_neg hsender]
                exact hlast _ hstaged
            · intro e v hv
              exact Or.inl hv
          · intro e u hu
            rcases hu with hu | rfl
            · exact Or.inl hu
            · exact Or.inr ht
        · intro e t ht
          exact Or.inr ht
  · exact Or.inr (SameCore.refl s)

theorem wp_attachSummary (now : Datetime) (c m : UUID) (summary : Text)
    {P : Store -> Prop} {s : Store} (hstart : P s)
    (hwrite : forall t u, SameCore
      (s.upsertMessage c m (Row.inserted .system t now .sent none)) u -> P u) :
    Prog.wp storageMachine mayFail (svc.attachSummary now c m summary)
      (fun _ t => P t) (fun _ t => P t) s := by
  unfold MessageService.attachSummary
  rw [Prog.wp_bind]
  apply wp_createMessageDirect
  · intro t column msg htext hcolumn
    have hnone : column = none := by
      simpa [citationsColumn, Json.truthy] using hcolumn.symm
    subst hnone
    rw [Prog.wp_bind]
    apply MessageService.wp_invalidateCache
    intro u hu
    exact hwrite t u hu
  · intro e _
    exact hstart

theorem wp_delete (c m : UUID) {P : Store -> Prop} {s : Store} (hstart : P s)
    (hdelete : forall u, SameCore (s.upsertMessage c m Row.softDeleted) u -> P u) :
    Prog.wp storageMachine mayFail (svc.delete c m)
      (fun _ t => P t) (fun _ t => P t) s := by
  unfold MessageService.delete MessageRepository.delete
  rw [Prog.wp_bind, Prog.wp_bind, wp_perform]
  constructor
  · simp only [Prog.wp_pure, if_true]
    rw [Prog.wp_bind]
    apply MessageService.wp_invalidateCache
    exact hdelete
  · intro _
    exact hstart

end Requests

end ConversationService
