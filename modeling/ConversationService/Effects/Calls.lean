import ConversationService.Effects.Pages
import ConversationService.Effects.Requests
import ConversationService.Effects.Timeouts

/-!
# What a call does

One statement for every kind of call, whichever of its operations raise. All
invariants of the runs of the system are derived from it.
-/

namespace ConversationService

open Python Programs

/-- A row that a request leaves under the id of its response. -/
def IsOpenRow (row : Row) : Prop :=
  row.sender = some .assistant ∧ (row.status = .pending ∨ row.status = .deleted)

/--
A request that has opened the response `r`: apart from that id and one other row,
the rows, markers and set entries are as before, and `r` has an assistant row that is
not answered.
-/
structure Opened (c r other : UUID) (s t : Store) : Prop where
  rows : forall c' m, ¬(c' = c ∧ (m = r ∨ m = other)) -> t.row c' m = s.row c' m
  placed : exists row, t.row c r = some row ∧ IsOpenRow row
  markers : forall id, id ≠ r -> t.markers id = s.markers id
  marker : forall mk, t.markers r = some mk ->
    s.markers r = some mk ∨ mk.conversationId = c
  pending : forall id, id ≠ r -> (t.IsPending id <-> s.IsPending id)
  inbox : t.inbox = s.inbox
  clock : t.clock = s.clock

namespace Opened

variable {c r other : UUID} {s t u : Store}

theorem newRow (h : Opened c r other s t) {c' m : UUID} {row : Row}
    (hnone : s.row c' m = none) (hrow : t.row c' m = some row) :
    c' = c ∧ (m = r ∨ m = other) := by
  by_contra hne
  rw [h.rows c' m hne, hnone] at hrow
  cases hrow

theorem core (h : Opened c r other s t) (hcore : SameCore t u) :
    Opened c r other s u := by
  constructor
  · intro c' m hne
    rw [hcore.row, h.rows c' m hne]
  · rw [hcore.row]
    exact h.placed
  · intro id hid
    rw [hcore.markers, h.markers id hid]
  · rw [hcore.markers]
    exact h.marker
  · intro id hid
    rw [hcore.isPending, h.pending id hid]
  · rw [hcore.inbox, h.inbox]
  · rw [hcore.clock, h.clock]

theorem place {now : Datetime} (hcore : SameCore s t) :
    Opened c r other s (t.upsertMessage c r (placeholderRow now)) := by
  constructor
  · intro c' m hne
    rw [Store.row_upsertMessage_ne _ _ (fun h => hne ⟨h.left, Or.inl h.right⟩),
      hcore.row]
  · exact ⟨_, Store.row_upsertMessage_self t c r _, rfl, Or.inl rfl⟩
  · intro id _
    rw [Store.markers_upsertMessage, hcore.markers]
  · intro mk hmk
    rw [Store.markers_upsertMessage, hcore.markers] at hmk
    exact Or.inl hmk
  · intro id _
    exact hcore.isPending id
  · exact hcore.inbox
  · exact hcore.clock

theorem setMarker (h : Opened c r other s t) {v : Option Marker}
    (hv : forall mk, v = some mk -> mk.conversationId = c) :
    Opened c r other s (t.setMarker r v) := by
  constructor
  · exact h.rows
  · exact h.placed
  · intro id hid
    rw [Store.markers_setMarker_ne t r v hid, h.markers id hid]
  · intro mk hmk
    rw [Store.markers_setMarker_self] at hmk
    exact Or.inr (hv mk hmk)
  · exact h.pending
  · exact h.inbox
  · exact h.clock

theorem addPending (h : Opened c r other s t) (score : Nat) :
    Opened c r other s (t.addPending r score) := by
  constructor
  · exact h.rows
  · exact h.placed
  · exact h.markers
  · exact h.marker
  · intro id hid
    rw [Store.isPending_addPending, h.pending id hid]
    constructor
    · intro hor
      exact hor.resolve_left hid
    · intro hold
      exact Or.inr hold
  · exact h.inbox
  · exact h.clock

theorem removePending (h : Opened c r other s t) :
    Opened c r other s (t.removePending r) := by
  constructor
  · exact h.rows
  · exact h.placed
  · exact h.markers
  · exact h.marker
  · intro id hid
    rw [Store.isPending_removePending, h.pending id hid]
    constructor
    · intro hand
      exact hand.right
    · intro hold
      exact ⟨hid, hold⟩
  · exact h.inbox
  · exact h.clock

theorem upsertResponse (h : Opened c r other s t) {f : Option Row -> Row}
    (hf : forall old, (exists row, old = some row ∧ IsOpenRow row) ->
      IsOpenRow (f old)) :
    Opened c r other s (t.upsertMessage c r f) := by
  constructor
  · intro c' m hne
    rw [Store.row_upsertMessage_ne _ _ (fun h => hne ⟨h.left, Or.inl h.right⟩),
      h.rows c' m hne]
  · exact ⟨_, Store.row_upsertMessage_self t c r f, hf _ h.placed⟩
  · exact h.markers
  · exact h.marker
  · exact h.pending
  · exact h.inbox
  · exact h.clock

theorem upsertOther (h : Opened c r other s t) (hne : r ≠ other)
    (f : Option Row -> Row) : Opened c r other s (t.upsertMessage c other f) := by
  constructor
  · intro c' m hm
    rw [Store.row_upsertMessage_ne _ _ (fun h => hm ⟨h.left, Or.inr h.right⟩),
      h.rows c' m hm]
  · rw [Store.row_upsertMessage_ne _ _ (fun h => hne h.right)]
    exact h.placed
  · exact h.markers
  · exact h.marker
  · exact h.pending
  · exact h.inbox
  · exact h.clock

theorem putOutbox (h : Opened c r other s t) (bucket : Nat) (eventId : UUID)
    (row : OutboxRow) : Opened c r other s (t.putOutbox bucket eventId row) :=
  ⟨h.rows, h.placed, h.markers, h.marker, h.pending, h.inbox, h.clock⟩

theorem onResponse (h : Opened c r other s t) (hne : r ≠ other) {o : Op}
    (ho : Op.OnResponse c r o) :
    Opened c r other s (o.exec t).2 ∧ (o.exec t).2.row c other = t.row c other := by
  rcases exec_onResponse ho t with
    hcore | ⟨ttl, heq⟩ | ⟨score, heq⟩ | heq | heq | heq
  · exact ⟨h.core hcore, hcore.row c other⟩
  · rw [heq]
    refine ⟨h.setMarker ?_, rfl⟩
    intro mk hmk
    cases hmk
    rfl
  · rw [heq]
    exact ⟨h.addPending score, rfl⟩
  · rw [heq]
    refine ⟨h.setMarker ?_, rfl⟩
    intro mk hmk
    cases hmk
  · rw [heq]
    exact ⟨h.removePending, rfl⟩
  · rw [heq]
    constructor
    · apply h.upsertResponse
      intro old hold
      rcases hold with ⟨row, rfl, hopen⟩
      exact ⟨hopen.left, Or.inr rfl⟩
    · rw [Store.row_upsertMessage_ne _ _ (fun h => hne h.right.symm)]

end Opened

/-!
# The effect of each call
-/

/-- The row that `send` stages under the message's own id. -/
def sentRow (reads : Readings) (args : SendArgs) : Option Row -> Row :=
  Row.staged args.sender args.content reads.batchTime .sent (args.fileIds.getD [])

inductive CallEffect (d : Deployment) (mayFail : Op -> Prop) :
    Call -> Store -> Store -> Prop where
  | untouched {call : Call} {s t : Store} : SameCore s t ->
      CallEffect d mayFail call s t
  | sent {reads : Readings} {args : SendArgs} {r : UUID} {s t : Store} :
      MessageService.responseIdFor reads args = some r ->
      Opened args.conversationId r args.messageId s t ->
      (t.row args.conversationId args.messageId =
          s.row args.conversationId args.messageId ∨
        t.row args.conversationId args.messageId =
          some (sentRow reads args (s.row args.conversationId args.messageId))) ->
      CallEffect d mayFail (.send reads args) s t
  | noted {reads : Readings} {args : SendArgs} {payload : ChatMessageCreated}
      {s t : Store} :
      MessageService.responseIdFor reads args = none ->
      SameCore (stagedStore reads args.conversationId args.messageId args.sender
        args.content .sent payload args.fileIds s) t ->
      CallEffect d mayFail (.send reads args) s t
  | regenerated {reads : Readings} {c m : UUID} {userId : Option UUID}
      {target : Message} {below : List Message} {s t : Store} :
      MessageService.locate m (historyPage s c d.api.settings.cacheHistoryLimit) =
        some (target, below) ->
      Opened c (MessageService.regenerateResponseId reads target below.head?) m s t ->
      (t.row c m = s.row c m ∨ t.row c m = some (Row.softDeleted (s.row c m))) ->
      CallEffect d mayFail (.regenerate reads c m userId) s t
  | summarised {now : Datetime} {c m : UUID} {summary stored : Text} {s t : Store} :
      SameCore (s.upsertMessage c m (Row.inserted .system stored now .sent none)) t ->
      CallEffect d mayFail (.attachSummary now c m summary) s t
  | deleted {c m : UUID} {s t : Store} :
      SameCore (s.upsertMessage c m Row.softDeleted) t ->
      CallEffect d mayFail (.delete c m) s t
  | chunk {event : Event} {key : InboxKey} {s t : Store} :
      (forall r, key ≠ Consumers.generatedKey r) -> SameCore (s.saveInbox key) t -> CallEffect d mayFail (.chunk event) s t
  | replied {now : Datetime} {event : Event} {s t u : Store} :
      Consumers.ReplyEffect mayFail d.consumer.redis now event s t -> SameCore t u ->
      CallEffect d mayFail (.generated now event) s u
  | passed {now : UUID -> Datetime} {nowTs : Nat} {s t : Store} :
      PendingTimeoutWorker.PassEffect mayFail now
        (PendingTimeoutWorker.expired s nowTs) s t ->
      CallEffect d mayFail (.timeoutPass now nowTs) s t

theorem wp_ignoreResult {alpha : Type} {mayFail : Op -> Prop} {p : Py alpha}
    {P : Store -> Prop} {s : Store}
    (h : Prog.wp storageMachine mayFail p (fun _ t => P t) (fun _ t => P t) s) :
    Prog.wp storageMachine mayFail (ignoreResult p) (fun _ t => P t)
      (fun _ t => P t) s := by
  unfold ignoreResult
  rw [Prog.wp_bind]
  exact h

section Effect

variable {d : Deployment} {mayFail : Op -> Prop} {s : Store}

/-- A send with a response either stages the message or leaves its row as it was. -/
theorem wp_send_response (svc : MessageService) (reads : Readings) (args : SendArgs)
    {r : UUID} (hresponse : MessageService.responseIdFor reads args = some r)
    (hne : r ≠ args.messageId) :
    Prog.wp storageMachine mayFail (svc.send reads args)
      (fun msg t => (Opened args.conversationId r args.messageId s t ∧
        t.row args.conversationId args.messageId =
          some (sentRow reads args (s.row args.conversationId args.messageId))) ∧
        msg.responseMessageId = some r)
      (fun _ t => (Opened args.conversationId r args.messageId s t ∧
        t.row args.conversationId args.messageId =
          s.row args.conversationId args.messageId) ∨ SameCore s t) s := by
  rw [← hresponse]
  apply wp_send_keeps svc reads args
    (K := fun t => Opened args.conversationId r args.messageId s t ∧
      t.row args.conversationId args.messageId =
        s.row args.conversationId args.messageId)
    (L := fun t => Opened args.conversationId r args.messageId s t ∧
      t.row args.conversationId args.messageId =
        some (sentRow reads args (s.row args.conversationId args.messageId)))
  · intro r' t hr hcore
    rw [hresponse] at hr
    cases hr
    refine ⟨.place hcore, ?_⟩
    rw [Store.row_upsertMessage_ne _ _ (fun h => hne h.right.symm), hcore.row]
  · intro r' o t hr ho ht
    rw [hresponse] at hr
    cases hr
    have hkeep := ht.left.onResponse hne ho
    exact ⟨hkeep.left, by rw [hkeep.right, ht.right]⟩
  · intro payload t ht
    rcases ht with ht | ⟨hnone, _⟩
    · refine ⟨(ht.left.upsertOther hne _).putOutbox _ _ _, ?_⟩
      unfold stagedStore
      rw [Store.row_putOutbox, Store.row_upsertMessage_self, ht.right]
      rfl
    · rw [hresponse] at hnone
      cases hnone
  · intro t u ht hu
    exact ⟨ht.left.core hu, by rw [hu.row, ht.right]⟩

theorem wp_send_answer (svc : MessageService) (reads : Readings) (args : SendArgs) :
    Prog.wp storageMachine mayFail (svc.send reads args)
      (fun msg _ => msg.responseMessageId = MessageService.responseIdFor reads args)
      (fun _ _ => True) s := by
  have h := @wp_send_keeps mayFail svc reads args
    (K := fun _ => True) (L := fun _ => True) (s := s)
    (fun _ _ _ _ => trivial) (fun _ _ _ _ _ _ => trivial) (fun _ _ _ => trivial)
    (fun _ _ _ _ => trivial)
  apply Prog.wp_mono h
  · intro msg t ht
    exact ht.right
  · intro e t _
    trivial

theorem wp_sendCall (reads : Readings) (args : SendArgs)
    (hmints : MintsUnused d s (.send reads args)) :
    Prog.wp storageMachine mayFail (d.api.send reads args)
      (fun _ t => CallEffect d mayFail (.send reads args) s t)
      (fun _ t => CallEffect d mayFail (.send reads args) s t) s := by
  cases hresponse : MessageService.responseIdFor reads args with
  | none =>
      have h := @wp_send_keeps mayFail d.api reads args
        (K := fun _ => False)
        (L := fun t => exists payload, SameCore (stagedStore reads
          args.conversationId args.messageId args.sender args.content .sent payload
          args.fileIds s) t) (s := s) ?_ ?_ ?_ ?_
      · apply Prog.wp_mono h
        · intro msg t ht
          rcases ht.left with ⟨payload, hcore⟩
          exact .noted hresponse hcore
        · intro e t ht
          exact .untouched (ht.resolve_left (fun h => h))
      · intro r t hr
        rw [hresponse] at hr
        cases hr
      · intro r o t hr
        rw [hresponse] at hr
        cases hr
      · intro payload t ht
        rcases ht with ht | ⟨_, ht⟩
        · exact ht.elim
        · exact ⟨payload, (ht.upsertMessage _ _ _).putOutbox _ _ _⟩
      · intro t u ht hu
        rcases ht with ⟨payload, ht⟩
        exact ⟨payload, ht.trans hu⟩
  | some r =>
      have hne : r ≠ args.messageId := by
        intro h
        exact hmints.distinct reads args rfl (by rw [hresponse, h])
      apply Prog.wp_mono (wp_send_response d.api reads args hresponse hne)
      · intro msg t ht
        exact .sent hresponse ht.left.left (Or.inr ht.left.right)
      · intro e t ht
        rcases ht with ht | ht
        · exact .sent hresponse ht.left (Or.inl ht.right)
        · exact .untouched ht

theorem wp_regenerateCall (reads : Readings) (c m : UUID) (userId : Option UUID)
    (hmints : MintsUnused d s (.regenerate reads c m userId)) :
    Prog.wp storageMachine mayFail (d.api.regenerate reads c m userId)
      (fun _ t => CallEffect d mayFail (.regenerate reads c m userId) s t)
      (fun _ t => CallEffect d mayFail (.regenerate reads c m userId) s t) s := by
  cases hlocate : MessageService.locate m
      (historyPage s c d.api.settings.cacheHistoryLimit) with
  | none =>
      have h := @wp_regenerate_keeps mayFail d.api reads c m userId
        (K := fun _ => False) (L := fun _ => False) (s := s)
        ?_ ?_ ?_ ?_ ?_
      · apply Prog.wp_mono h
        · intro _ t ht
          exact .untouched (ht.resolve_left (fun h => h))
        · intro _ t ht
          exact .untouched (ht.resolve_left (fun h => h))
      · intro target below t h
        rw [hlocate] at h
        cases h
      · intro target below o t h
        rw [hlocate] at h
        cases h
      · intro target below payload t h
        rw [hlocate] at h
        cases h
      · intro target below t h
        rw [hlocate] at h
        cases h
      · intro t u ht
        exact ht.elim
  | some found =>
      rcases found with ⟨target, below⟩
      have hne : MessageService.regenerateResponseId reads target below.head? ≠ m := by
        intro h
        have hunused := hmints.unused _ ⟨target, below, hlocate, rfl⟩
        rcases isLive_of_locate hlocate with ⟨row, hrow, _⟩
        have hnone := hunused c
        rw [h, hrow] at hnone
        cases hnone
      have h := @wp_regenerate_keeps mayFail d.api reads c m userId
        (K := fun t => Opened c
            (MessageService.regenerateResponseId reads target below.head?) m s t ∧
          t.row c m = s.row c m)
        (L := fun t => Opened c
            (MessageService.regenerateResponseId reads target below.head?) m s t ∧
          (t.row c m = s.row c m ∨ t.row c m = some (Row.softDeleted (s.row c m))))
        (s := s) ?_ ?_ ?_ ?_ ?_
      · apply Prog.wp_mono h
        · intro _ t ht
          rcases ht with ht | ht
          · exact .regenerated hlocate ht.left ht.right
          · exact .untouched ht
        · intro _ t ht
          rcases ht with ht | ht
          · exact .regenerated hlocate ht.left (Or.inl ht.right)
          · exact .untouched ht
      · intro target' below' t h hcore
        rw [hlocate] at h
        cases h
        refine ⟨.place hcore, ?_⟩
        rw [Store.row_upsertMessage_ne _ _ (fun h => hne h.right.symm), hcore.row]
      · intro target' below' o t h ho ht
        rw [hlocate] at h
        cases h
        have hkeep := ht.left.onResponse hne ho
        exact ⟨hkeep.left, by rw [hkeep.right, ht.right]⟩
      · intro target' below' payload t h ht
        rw [hlocate] at h
        cases h
        constructor
        · apply Opened.putOutbox
          apply ht.left.upsertResponse
          intro old _
          exact ⟨rfl, Or.inl rfl⟩
        · left
          unfold stagedStore
          rw [Store.row_putOutbox,
            Store.row_upsertMessage_ne _ _ (fun h => hne h.right.symm), ht.right]
      · intro target' below' t h hsender ht
        refine ⟨ht.left.upsertOther hne _, Or.inr ?_⟩
        rw [Store.row_upsertMessage_self]
        rcases ht.right with hsame | hdeleted
        · rw [hsame]
        · rw [hdeleted]
          cases s.row c m <;> rfl
      · intro t u ht hu
        refine ⟨ht.left.core hu, ?_⟩
        rw [hu.row]
        exact ht.right

/-- Every finished execution of a call has its effect. -/
theorem callEffect {call : Call} {t : Store} {r : Except PyExc Unit}
    (hmints : MintsUnused d s call)
    (hfin : Prog.Finishes storageMachine mayFail (call.program d) s r t) :
    CallEffect d mayFail call s t := by
  have hwp : Prog.wp storageMachine mayFail (call.program d)
      (fun _ t => CallEffect d mayFail call s t)
      (fun _ t => CallEffect d mayFail call s t) s := by
    cases call with
    | send reads args => exact wp_ignoreResult (wp_sendCall reads args hmints)
    | regenerate reads c m userId =>
        exact wp_ignoreResult (wp_regenerateCall reads c m userId hmints)
    | attachSummary now c m summary =>
        apply wp_ignoreResult
        apply wp_attachSummary
        · exact .untouched (SameCore.refl s)
        · intro stored u hu
          exact .summarised hu
    | delete c m =>
        apply wp_ignoreResult
        apply wp_delete
        · exact .untouched (SameCore.refl s)
        · intro u hu
          exact .deleted hu
    | chunk event =>
        apply Consumers.wp_handleChatResponseChunk
        · intro u hu
          exact .untouched hu
        · intro key u hkey hu
          exact .chunk hkey hu
    | generated now event =>
        apply Consumers.wp_handleChatResponseGenerated
        intro u v hu hv
        exact .replied hu hv
    | timeoutPass now nowTs =>
        apply wp_ignoreResult
        apply PendingTimeoutWorker.wp_processExpiredPending
        · intro _ u hu
          exact .passed hu
        · intro _ _ u hu
          exact .untouched hu
  have hend := Prog.wp_finishes hwp hfin
  cases r with
  | ok a => exact hend
  | error e => exact hend

end Effect

end ConversationService
