import ConversationService.Properties.CacheTransparency
import ConversationService.Library.Pools

/-!
# Current lists

Requests for the history beside sends, finalizations, failures and deletions in the same
conversation, command by command. A write evicts the list behind itself, and a request
that fills the list knows nothing of the writes and fills since its own reads. So a list
that is left over is current if no request fills it with an old page, or on top of another
page, with no eviction still on its way.
-/

namespace ConversationService

open Python ClusteredTable Programs

/-- Nothing is cached, or just what the table shows for the limit. -/
def ListIsCurrent (c : UUID) (limit : Nat) (s : Store) : Prop :=
  s.historyCache c = none ∨ s.historyCache c = some (historyPage s c limit)

/--
Redis does not raise. Of the other statements two kinds are left out, those that end a
send behind its own reads at once: the read of the preferences and the insertion of the
placeholder.
-/
def Op.MayRaise : Op -> Prop
  | .selectHistory _ _ _ => True
  | .selectHistoryUpto _ _ _ => True
  | .selectMessage _ _ => True
  | .selectConversation _ => True
  | .insertMessage _ _ _ _ _ status _ => status ≠ .pending
  | .updateDeleted _ _ => True
  | .batchMessageOutbox _ _ _ _ _ _ _ _ _ _ => True
  | _ => False

/-- A call together with the service that it is made to. -/
structure ServedCall where
  svc : MessageService
  call : MessageCall

def ServedCall.program (served : ServedCall) : Py Unit :=
  served.call.program served.svc

abbrev HistoryTask : Type := Task ServedCall storage PyExc Unit

abbrev HistoryPool : Type := Pool ServedCall storage PyExc Unit Store

/-- Requests with one limit, and the writing calls, in one conversation. -/
def MessageCall.Concerns (c : UUID) (limit : Nat) : MessageCall -> Prop
  | .send _ args => args.conversationId = c
  | .finalizeAssistantMessage _ c' _ _ _ => c' = c
  | .failAssistantMessage _ c' _ _ => c' = c
  | .delete c' _ => c' = c
  | .history c' limit' _ => c' = c ∧ limit' = limit
  | _ => False

def MessageCall.IsHistory : MessageCall -> Prop
  | .history _ _ _ => True
  | _ => False

/-- Whatever it is answered, the program evicts the list before it returns. -/
def WillEvict {alpha : Type} (c : UUID) (p : Py alpha) : Prop :=
  Prog.Owes (S := storage) (fun o => o = .deleteHistory c) Op.MayRaise p

/--
A request fills the list with a page that is still what the table shows, and on top of
nothing, or while a call is under way that evicts the list. A call that raises leaves a
current list behind, or another call that evicts it.
-/
structure FillsInTime (c : UUID) (limit : Nat) (pool : HistoryPool) (t : HistoryTask) :
    Prop where
  fills : forall page next, t.call.call.IsHistory ->
    t.prog = .op (.rpushHistory c page) next ->
    (pool.store.historyCache c = none ∧ page = historyPage pool.store c limit) ∨
      exists t', t' ∈ pool.tasks ∧ WillEvict c t'.prog
  raises : forall o next e, t.prog = .op o next ->
    next (some (o.exec pool.store).1) = .raise e ->
    ListIsCurrent c limit (o.exec pool.store).2 ∨
      exists t', t' ∈ pool.tasks ∧ t' ≠ t ∧ WillEvict c t'.prog

/-- The mode of a message is not turned down before a statement is made about it. -/
def ServedCall.ResolvesByReading (served : ServedCall) : Prop :=
  forall reads args, served.call = .send reads args ->
    forall e, served.svc.resolvePreferences args.userId args.mode args.selectedTools ≠ .raise e

def historyRules (c : UUID) (limit : Nat)
    (permits : HistoryPool -> HistoryTask -> Prop) :
    Rules ServedCall storage PyExc Unit Store where
  machine := storageMachine
  program := ServedCall.program
  permits := permits
  mayFail := Op.MayRaise
  mayStart _ served := served.svc.cache = some ⟨true⟩ ∧ served.call.Concerns c limit ∧
    served.ResolvesByReading
  mayStop _ := False
  moves := Elapsed

/-!
# What the calls owe
-/

/-- The operations behind which a call has to evict the list. -/
def Op.Breaks (byRequest : Prop) : Op -> Prop
  | .insertMessage _ _ _ _ _ _ _ => True
  | .updateDeleted _ _ => True
  | .batchMessageOutbox _ _ _ _ _ _ _ _ _ _ => True
  | .deleteAllMessages _ => True
  | .rpushHistory _ _ => ¬byRequest
  | _ => False

/-- The call evicts the list behind its writes and behind its own fill. -/
def CleansUp {alpha : Type} (c : UUID) (byRequest : Prop) (p : Py alpha) : Prop :=
  Prog.OwesAfter (S := storage) (Op.Breaks byRequest) (fun o => o = .deleteHistory c)
    Op.MayRaise p

def SteadyHere {alpha : Type} (p : Py alpha) : Prop :=
  Prog.Steady (S := storage) Op.MayRaise p

section Calls

variable {alpha beta : Type} {c : UUID} {byRequest : Prop} {svc : MessageService}

theorem Op.KeepsLists.not_breaks {o : Op} (ho : o.KeepsLists) : ¬o.Breaks byRequest := by
  cases o <;> first | exact ho.elim | exact id

theorem Op.keepsLists_or {o : Op} (ho : ¬o.Breaks byRequest) :
    o.KeepsLists ∨ exists c page, o = .rpushHistory c page ∧ byRequest := by
  cases o with
  | rpushHistory c page => exact Or.inr ⟨c, page, rfl, Classical.not_not.mp ho⟩
  | insertMessage _ _ _ _ _ _ _ => exact absurd trivial ho
  | updateDeleted _ _ => exact absurd trivial ho
  | batchMessageOutbox _ _ _ _ _ _ _ _ _ _ => exact absurd trivial ho
  | deleteAllMessages _ => exact absurd trivial ho
  | _ => exact Or.inl trivial

theorem cleansUp_free {p : Py alpha} {f : alpha -> Py beta} (hp : OnlyOps Op.KeepsLists p)
    (hf : forall a, CleansUp c byRequest (f a)) : CleansUp c byRequest (p >>= f) :=
  Prog.owesAfter_bind_free (Prog.allOps_mono hp (fun _ ho => ho.not_breaks)) hf

theorem willEvict_invalidate (hcache : svc.cache = some ⟨true⟩) (f : Unit -> Py beta) :
    WillEvict c (svc.invalidateCache c >>= f) := by
  unfold MessageService.invalidateCache
  rw [hcache]
  exact Or.inl rfl

theorem cleansUp_invalidate (b : beta) :
    CleansUp c byRequest (svc.invalidateCache c >>= fun _ => pure b) := by
  apply Prog.owesAfter_bind_free
  · exact MessageService.onlyOps_invalidateCache svc (by exact id)
  · intro _
    trivial

theorem cleansUp_write (hcache : svc.cache = some ⟨true⟩) (now : Datetime) (m : UUID)
    (sender : Sender) (content : Json) (status : MessageStatus) (citations : Json)
    (f : Message -> beta) :
    CleansUp c byRequest
      (do
        let msg <- MessageRepository.createMessageDirect now c m sender content status
          citations
        svc.invalidateCache c
        pure (f msg)) := by
  unfold MessageRepository.createMessageDirect
  rw [Prog.bind_assoc]
  apply cleansUp_free (onlyOps_cleanCitations _ _)
  intro clean
  rw [Prog.bind_assoc]
  apply cleansUp_free (onlyOps_cqlText _ _)
  intro text
  refine ⟨?_, ?_, fun _ => trivial⟩
  · intro _ r
    exact Or.inl (willEvict_invalidate hcache _)
  · intro r
    exact cleansUp_invalidate _

theorem cleansUp_finalize (hcache : svc.cache = some ⟨true⟩) (now : Datetime) (m : UUID)
    (content citations : Json) :
    CleansUp c byRequest (svc.finalizeAssistantMessage now c m content citations) := by
  unfold MessageService.finalizeAssistantMessage
  apply cleansUp_free (onlyOps_isWritableAssistantRow trivial)
  intro writable
  split
  · exact cleansUp_write hcache now m .assistant content .sent citations some
  · trivial

theorem cleansUp_fail (hcache : svc.cache = some ⟨true⟩) (now : Datetime) (m : UUID)
    (errorMessage : Json) :
    CleansUp c byRequest (svc.failAssistantMessage now c m errorMessage) := by
  unfold MessageService.failAssistantMessage
  apply cleansUp_free (onlyOps_isWritableAssistantRow trivial)
  intro writable
  split
  · apply cleansUp_free (onlyOps_getMessage trivial)
    intro existing
    split
    · trivial
    · exact cleansUp_write hcache now m .assistant errorMessage .failed .null some
  · trivial

theorem cleansUp_delete (hcache : svc.cache = some ⟨true⟩) (m : UUID) :
    CleansUp c byRequest (svc.delete c m) := by
  unfold MessageService.delete MessageRepository.delete
  refine ⟨?_, ?_, fun _ => trivial⟩
  · intro _ r
    exact Or.inl (willEvict_invalidate hcache _)
  · intro r
    exact cleansUp_invalidate _

/-!
# Sends
-/

/-- What a send does before it evicts the list. -/
def requestOf (svc : MessageService) (reads : Readings) (args : SendArgs) : Py Message := do
  let context <- svc.sendContext args
  let resolved <- svc.resolvePreferences args.userId args.mode args.selectedTools
  MessageService.forResponse (MessageService.responseIdFor reads args)
    (svc.openPendingResponse reads args.conversationId)
  svc.stageRequest reads args.conversationId args.messageId args.sender args.content .sent
    (MessageService.sendPayload reads args context resolved) args.fileIds
    (MessageService.responseIdFor reads args)

theorem send_eq_requestOf (svc : MessageService) (reads : Readings) (args : SendArgs) :
    svc.send reads args =
      (requestOf svc reads args >>= fun msg =>
        svc.invalidateCache args.conversationId >>= fun _ =>
          pure { msg with responseMessageId := MessageService.responseIdFor reads args }) := by
  unfold MessageService.send requestOf
  simp only [Prog.bind_assoc]

theorem steady_swallowed (p : Py alpha) (b : alpha) :
    SteadyHere (Prog.tryCatch p (fun _ => pure b)) :=
  Prog.steady_tryCatch (fun _ => trivial) (fun _ _ h => by cases h)

theorem steady_recentHistory : SteadyHere (svc.recentHistory c) :=
  steady_swallowed _ _

theorem steady_branchEventContext (conversations : Option CacheService)
    (own : List HistoryEntry) :
    SteadyHere (MessageService.branchEventContext conversations c own) :=
  steady_swallowed _ _

theorem steady_sendContext (args : SendArgs) : SteadyHere (svc.sendContext args) := by
  unfold MessageService.sendContext
  split
  · apply Prog.steady_bind steady_recentHistory
    · intro own
      split
      · exact steady_branchEventContext _ _
      · trivial
    · intro own e
      split
      · exact Prog.tryCatch_ne_raise (fun _ _ h => by cases h) e
      · exact fun h => by cases h
  · trivial

theorem steady_resolvePreferences (userId : Option UUID) (mode : Option Text)
    (selectedTools : Option (List Text)) :
    SteadyHere (svc.resolvePreferences userId mode selectedTools) := by
  apply Prog.steady_of_allOps
  exact MessageService.onlyOps_resolvePreferences (fun _ => id) (fun _ _ => id) svc userId
    mode selectedTools

theorem steady_register (hcache : svc.cache = some ⟨true⟩) (reads : Readings) (r : UUID) :
    SteadyHere
      (Prog.tryCatch (svc.registerPendingResponse reads c r)
        (fun e =>
          if e = .pendingResponseRegistration then do
            MessageService.softDeletePlaceholder c r
            Prog.raise e
          else Prog.raise e)) := by
  unfold MessageService.registerPendingResponse MessageService.redis
  rw [hcache]
  refine ⟨fun _ => ⟨fun _ => trivial, fun hfail => hfail.elim⟩, fun hfail => hfail.elim⟩

theorem steady_openPendingResponse (hcache : svc.cache = some ⟨true⟩) (reads : Readings)
    (r : UUID) : SteadyHere (svc.openPendingResponse reads c r) := by
  refine ⟨?_, fun hfail => absurd rfl hfail⟩
  intro _
  exact steady_register hcache reads r

theorem steady_discard (hcache : svc.cache = some ⟨true⟩) (r : UUID) (e : PyExc) :
    SteadyHere
      (do
        MessageService.forResponse (some r) (svc.discardPendingResponse c)
        Prog.raise e : Py alpha) := by
  unfold MessageService.forResponse MessageService.discardPendingResponse
    MessageService.clearPendingResponse MessageService.redis
  rw [hcache]
  have hclears : SteadyHere
      (do
        Prog.tryCatch
          (if true = true then do
            perform (.deletePending r)
            perform (.zremPending r)
          else Prog.raise .attributeError)
          (fun _ => pure ())
        Prog.raise e : Py alpha) :=
    ⟨fun _ => ⟨fun _ => trivial, fun hfail => hfail.elim⟩, fun hfail => hfail.elim⟩
  exact ⟨fun _ => hclears, fun _ => ⟨hclears, fun _ h => by cases h⟩⟩

theorem steady_stageRequest (hcache : svc.cache = some ⟨true⟩) (reads : Readings)
    (m : UUID) (sender : Sender) (content : Text) (status : MessageStatus)
    (payload : ChatMessageCreated) (fileIds : Option (List UUID)) (r : UUID) :
    SteadyHere
      (svc.stageRequest reads c m sender content status payload fileIds (some r)) := by
  unfold MessageService.stageRequest MessageRepository.createWithOutbox cqlText
  dsimp only
  split
  · refine ⟨fun _ => trivial, fun _ => ⟨steady_discard hcache r _, ?_⟩⟩
    intro e h
    cases h
  · exact steady_discard hcache r _

theorem stageRequest_ne_raise (reads : Readings) (m : UUID) (sender : Sender)
    (content : Text) (status : MessageStatus) (payload : ChatMessageCreated)
    (fileIds : Option (List UUID)) (r : UUID) (e : PyExc) :
    svc.stageRequest reads c m sender content status payload fileIds (some r) ≠ .raise e := by
  unfold MessageService.stageRequest
  apply Prog.tryCatch_ne_raise
  intro _ _ h
  cases h

theorem steady_requestOf (hcache : svc.cache = some ⟨true⟩) (reads : Readings)
    {args : SendArgs} (huser : args.sender = .user)
    (hresolves : forall e,
      svc.resolvePreferences args.userId args.mode args.selectedTools ≠ .raise e) :
    SteadyHere (requestOf svc reads args) := by
  have hresponse : MessageService.responseIdFor reads args =
      some (uuidv7After args.messageId reads.response) := by
    unfold MessageService.responseIdFor
    rw [huser]
  have hopens : forall f : Unit -> Py Message, (forall u, SteadyHere (f u)) ->
      (forall u e, f u ≠ .raise e) -> SteadyHere
        (MessageService.forResponse (MessageService.responseIdFor reads args)
          (svc.openPendingResponse reads args.conversationId) >>= f) := by
    intro f hf hnot
    rw [hresponse]
    exact Prog.steady_bind (steady_openPendingResponse hcache reads _) hf hnot
  have hstages : forall payload, SteadyHere
      (svc.stageRequest reads args.conversationId args.messageId args.sender args.content
        .sent payload args.fileIds (MessageService.responseIdFor reads args)) := by
    intro payload
    rw [hresponse]
    exact steady_stageRequest hcache reads _ _ _ _ _ _ _
  have hnot : forall payload e,
      svc.stageRequest reads args.conversationId args.messageId args.sender args.content
        .sent payload args.fileIds (MessageService.responseIdFor reads args) ≠ .raise e := by
    intro payload e
    rw [hresponse]
    exact stageRequest_ne_raise reads _ _ _ _ _ _ _ e
  unfold requestOf
  apply Prog.steady_bind (steady_sendContext args)
  · intro context
    apply Prog.steady_bind (steady_resolvePreferences _ _ _)
    · intro resolved
      exact hopens _ (fun _ => hstages _) (fun _ e => hnot _ e)
    · intro resolved e h
      rw [hresponse] at h
      cases h
  · intro context e h
    cases hresolve : svc.resolvePreferences args.userId args.mode args.selectedTools with
    | ret resolved =>
        rw [hresolve, hresponse] at h
        cases h
    | raise e' => exact hresolves e' hresolve
    | op o next =>
        rw [hresolve] at h
        cases h

theorem cleansUp_other (hcache : svc.cache = some ⟨true⟩) (reads : Readings)
    {args : SendArgs} (hother : args.sender ≠ .user) (f : Message -> beta) :
    CleansUp args.conversationId byRequest
      (requestOf svc reads args >>= fun msg =>
        svc.invalidateCache args.conversationId >>= fun _ => pure (f msg)) := by
  have hcontext : svc.sendContext args = pure ([], []) := by
    unfold MessageService.sendContext
    split
    · rename_i huser
      exact absurd huser hother
    · rfl
  have hresponse : MessageService.responseIdFor reads args = none := by
    unfold MessageService.responseIdFor
    split
    · rename_i huser
      exact absurd huser hother
    · rfl
  unfold requestOf
  rw [hcontext, hresponse, Prog.bind_assoc]
  apply cleansUp_free (onlyOps_ret _)
  intro context
  rw [Prog.bind_assoc]
  apply cleansUp_free
    (MessageService.onlyOps_resolvePreferences (fun _ => trivial) (fun _ _ => trivial) svc _
      _ _)
  intro resolved
  unfold MessageService.stageRequest MessageRepository.createWithOutbox cqlText
  dsimp only
  split
  · refine ⟨?_, ?_, fun _ => trivial⟩
    · intro _ r
      exact Or.inl (willEvict_invalidate hcache _)
    · intro r
      exact cleansUp_invalidate _
  · trivial

theorem cleansUp_send (hcache : svc.cache = some ⟨true⟩) (reads : Readings)
    {args : SendArgs} (hresolves : forall e,
      svc.resolvePreferences args.userId args.mode args.selectedTools ≠ .raise e) :
    CleansUp args.conversationId byRequest (svc.send reads args) := by
  rw [send_eq_requestOf]
  by_cases huser : args.sender = .user
  · exact Prog.owesAfter_bind (steady_requestOf hcache reads huser hresolves)
      (fun _ => willEvict_invalidate hcache _) (fun _ => cleansUp_invalidate _)
  · exact cleansUp_other hcache reads huser _

theorem cleansUp_history (limit : Nat) (cursor : Option UUID) (c' : UUID) :
    CleansUp c True (svc.history c' limit cursor) := by
  apply Prog.owesAfter_of_allOps
  refine Prog.allOps_mono (MessageService.onlyPages_history svc c' limit cursor) ?_
  intro o ho hbreaks
  cases o with
  | rpushHistory _ _ => exact hbreaks trivial
  | insertMessage _ _ _ _ _ _ _ => exact ho.elim
  | updateDeleted _ _ => exact ho.elim
  | batchMessageOutbox _ _ _ _ _ _ _ _ _ _ => exact ho.elim
  | deleteAllMessages _ => exact ho.elim
  | _ => exact hbreaks.elim

end Calls

theorem cleansUp_program {c : UUID} {limit : Nat} {served : ServedCall}
    (hcache : served.svc.cache = some ⟨true⟩) (hconcerns : served.call.Concerns c limit)
    (hresolves : served.ResolvesByReading) :
    CleansUp c served.call.IsHistory served.program := by
  rcases served with ⟨svc, call⟩
  cases call with
  | send reads args =>
      cases hconcerns
      exact Prog.owesAfter_result _ (cleansUp_send hcache reads (hresolves reads args rfl))
  | finalizeAssistantMessage now c' m content citations =>
      cases hconcerns
      exact Prog.owesAfter_result _ (cleansUp_finalize hcache now m content citations)
  | failAssistantMessage now c' m errorMessage =>
      cases hconcerns
      exact Prog.owesAfter_result _ (cleansUp_fail hcache now m errorMessage)
  | delete c' m =>
      cases hconcerns
      exact Prog.owesAfter_result _ (cleansUp_delete hcache m)
  | history c' limit' cursor =>
      exact Prog.owesAfter_result _ (cleansUp_history limit' cursor c')
  | regenerate reads c' m userId => exact hconcerns.elim
  | attachSummary now c' m summary => exact hconcerns.elim

/-!
# All interleavings
-/

section Interleavings

variable {c : UUID} {limit : Nat} {s t : Store}

theorem historyPage_congr (h : t.messages = s.messages) (c : UUID) (limit : Nat) :
    historyPage t c limit = historyPage s c limit := by
  unfold historyPage
  rw [h]

theorem listIsCurrent_of_same (hrows : t.messages = s.messages)
    (hcache : t.historyCache c = s.historyCache c ∨ t.historyCache c = none)
    (h : ListIsCurrent c limit s) : ListIsCurrent c limit t := by
  rcases hcache with hsame | hgone
  · unfold ListIsCurrent
    rw [hsame, historyPage_congr hrows]
    exact h
  · exact Or.inl hgone

/-- The list is current, or a task is under way that evicts it. -/
def ListCared (c : UUID) (limit : Nat) (pool : HistoryPool) : Prop :=
  ListIsCurrent c limit pool.store ∨ exists t, t ∈ pool.tasks ∧ WillEvict c t.prog

theorem listIsCurrent_rpush {c' : UUID} {page : List Message}
    (h : ListIsCurrent c limit s)
    (hfill : c' = c -> s.historyCache c = none ∧ page = historyPage s c limit) :
    ListIsCurrent c limit (Op.exec (.rpushHistory c' page) s).2 := by
  by_cases hc : c' = c
  · rcases hfill hc with ⟨hnone, hpage⟩
    subst hc
    right
    show Function.update s.historyCache c' _ c' = some (historyPage s c' limit)
    rw [Function.update_self, hnone, hpage]
    rfl
  · refine listIsCurrent_of_same (s := s) rfl (Or.inl ?_) h
    exact Function.update_of_ne (fun heq => hc heq.symm) _ _

theorem cared_replace {before after : List HistoryTask} {p p' t : HistoryTask}
    (ht : t ∈ before ++ p :: after) (hne : t ≠ p) (hwill : WillEvict c t.prog) :
    exists t', t' ∈ before ++ p' :: after ∧ WillEvict c t'.prog := by
  rcases Pool.mem_replace ht with heq | hother
  · exact absurd heq hne
  · exact ⟨t, Pool.mem_split_of_mem hother, hwill⟩

/--
What a task owes is kept when one of its operations is performed: it was the eviction
itself, or it is owed still, or the task raises.
-/
theorem listCared_owed {before after : List HistoryTask} {served : ServedCall} {o : Op}
    {next : Option (Op.Res o) -> Py Unit}
    (htimely : FillsInTime c limit ⟨s, before ++ ⟨served, .op o next⟩ :: after⟩
      ⟨served, .op o next⟩)
    (hnext : WillEvict c (next (some (o.exec s).1)) ∨
      exists e, next (some (o.exec s).1) = .raise e) :
    ListCared c limit
      ⟨(o.exec s).2, before ++ ⟨served, next (some (o.exec s).1)⟩ :: after⟩ := by
  rcases hnext with howes | ⟨e, he⟩
  · exact Or.inr ⟨_, List.mem_append_right _ List.mem_cons_self, howes⟩
  · rcases htimely.raises o next e rfl he with hcurrent | ⟨t, ht, hne, hwill⟩
    · exact Or.inl hcurrent
    · exact Or.inr (cared_replace ht hne hwill)

/-- An operation of a task while no task at all owes the eviction of the list. -/
theorem listCared_current {before after : List HistoryTask} {served : ServedCall} {o : Op}
    {next : Option (Op.Res o) -> Py Unit} (h : ListIsCurrent c limit s)
    (hclean : CleansUp c served.call.IsHistory (.op o next))
    (htimely : FillsInTime c limit ⟨s, before ++ ⟨served, .op o next⟩ :: after⟩
      ⟨served, .op o next⟩)
    (hnobody : ¬exists t, t ∈ before ++ ⟨served, .op o next⟩ :: after ∧
      WillEvict c t.prog) :
    ListCared c limit
      ⟨(o.exec s).2, before ++ ⟨served, next (some (o.exec s).1)⟩ :: after⟩ := by
  by_cases hbreaks : o.Breaks served.call.IsHistory
  · exact listCared_owed htimely (hclean.left hbreaks _)
  · left
    rcases Op.keepsLists_or hbreaks with hkeeps | ⟨c', page, hfill, hhistory⟩
    · rcases keepsLists_exec hkeeps s with ⟨hrows, hcache⟩
      exact listIsCurrent_of_same hrows (hcache c) h
    · subst hfill
      apply listIsCurrent_rpush h
      intro hc
      subst hc
      exact (htimely.fills page next hhistory rfl).resolve_right hnobody

theorem localProof_historyRules (c : UUID) (limit : Nat) :
    Pool.LocalProof (historyRules c limit (FillsInTime c limit)) (ListCared c limit)
      (fun _ t => CleansUp c t.call.call.IsHistory t.prog) (fun _ _ => True) where
  symm := fun _ _ _ => trivial
  own := by
    intro before after served o next s h htimely
    have hclean : CleansUp c served.call.IsHistory (.op o next) :=
      h.each ⟨served, .op o next⟩ (by simp)
    refine ⟨?_, hclean.right.left _⟩
    by_cases hsomebody : exists t, t ∈ before ++ ⟨served, .op o next⟩ :: after ∧
        WillEvict c t.prog
    · rcases hsomebody with ⟨t, ht, hwill⟩
      by_cases hself : t = ⟨served, .op o next⟩
      · subst hself
        rcases hwill with hevicts | ⟨hanswers, _⟩
        · subst hevicts
          exact Or.inl (Or.inl (Function.update_self _ _ _))
        · exact listCared_owed htimely (hanswers _)
      · exact Or.inr (cared_replace ht hself hwill)
    · exact listCared_current (h.shared.resolve_right hsomebody) hclean htimely hsomebody
  ownFault := by
    intro before after served o next s h hfail
    have hclean : CleansUp c served.call.IsHistory (.op o next) :=
      h.each ⟨served, .op o next⟩ (by simp)
    refine ⟨?_, hclean.right.right hfail⟩
    rcases h.shared with hcurrent | ⟨t, ht, hwill⟩
    · exact Or.inl hcurrent
    · by_cases hself : t = ⟨served, .op o next⟩
      · subst hself
        rcases hwill with hevicts | ⟨_, hfault⟩
        · subst hevicts
          exact hfail.elim
        · exact Or.inr ⟨_, List.mem_append_right _ List.mem_cons_self, hfault hfail⟩
      · exact Or.inr (cared_replace ht hself hwill)
  stable := fun _ _ _ _ q h _ _ hq _ => h.each q hq
  apartNext := fun _ _ _ _ _ _ _ _ _ _ => trivial
  apartFault := fun _ _ _ _ _ _ _ _ _ _ => trivial
  stopped := fun _ _ _ _ _ _ _ hstop _ => hstop.elim
  started := by
    intro pool served h hstart
    refine ⟨?_, cleansUp_program hstart.left hstart.right.left hstart.right.right,
      fun _ _ => trivial⟩
    rcases h.shared with hcurrent | ⟨t, ht, hwill⟩
    · exact Or.inl hcurrent
    · exact Or.inr ⟨t, List.mem_append_left _ ht, hwill⟩
  moved := by
    intro tasks s t h helapsed
    refine ⟨?_, h.each⟩
    rcases h.shared with hcurrent | hcared
    · exact Or.inl (listIsCurrent_of_same (messages_elapsed helapsed)
        (helapsed.historyCache c) hcurrent)
    · exact Or.inr hcared

/-- When every call has ended, nothing is cached or the list is current. -/
theorem lists_current (hstart : ListIsCurrent c limit s) {pool : HistoryPool}
    (hreach : Pool.Reaches (historyRules c limit (FillsInTime c limit)) ⟨s, []⟩ pool)
    (hquiet : pool.Quiet) : ListIsCurrent c limit pool.store := by
  have hholds := Pool.holds_reaches (localProof_historyRules c limit) hreach
    ⟨Or.inl hstart, fun _ ht => (by cases ht), List.Pairwise.nil⟩
  rcases hholds.shared with hcurrent | ⟨t, ht, hwill⟩
  · exact hcurrent
  · have hended := hquiet t ht
    cases hprog : t.prog with
    | op o next =>
        rw [hprog] at hended
        exact absurd trivial hended
    | ret u =>
        rw [hprog] at hwill
        exact hwill.elim
    | raise e =>
        rw [hprog] at hwill
        exact hwill.elim

end Interleavings

/-!
# A request and a reply
-/

/-- A task that fills no list with an old page and does not raise is timely. -/
def fillsInTime? (c : UUID) (limit : Nat) (pool : HistoryPool) (t : HistoryTask) : Bool :=
  match t.prog with
  | .op o next =>
      (match o with
        | .rpushHistory c' page =>
            c' != c || ((pool.store.historyCache c).isNone &&
              decide (page = historyPage pool.store c limit))
        | _ => true) &&
      (match next (some (o.exec pool.store).1) with
        | .raise _ => false
        | _ => true)
  | _ => true

theorem fillsInTime_of_check {c : UUID} {limit : Nat} {pool : HistoryPool}
    {t : HistoryTask} (h : fillsInTime? c limit pool t = true) :
    FillsInTime c limit pool t := by
  rcases t with ⟨served, prog⟩
  constructor
  · intro page next _ hprog
    cases hprog
    rcases Bool.and_eq_true_iff.mp h with ⟨hfill, _⟩
    left
    rcases Bool.or_eq_true_iff.mp hfill with hother | hnow
    · exact absurd hother (by simp)
    · rcases Bool.and_eq_true_iff.mp hnow with ⟨hnone, hpage⟩
      exact ⟨Option.isNone_iff_eq_none.mp hnone, of_decide_eq_true hpage⟩
  · intro o next e hprog he
    cases hprog
    rcases Bool.and_eq_true_iff.mp h with ⟨_, hraise⟩
    rw [he] at hraise
    cases hraise

def requestAct (limit : Nat) : Pool.Act ServedCall :=
  .start ⟨Deployment.single.api, .history (.ofInt 1) limit none⟩

def replyAct : Pool.Act ServedCall :=
  .start ⟨Deployment.single.api,
    .finalizeAssistantMessage ⟨4000, true⟩ (.ofInt 1) (.ofInt 4) (.str (text "hi")) .null⟩

/-- The reply is written and the list evicted before the request fills it. -/
def fillsAfterReply : List (Pool.Act ServedCall) :=
  [replyAct, .perform 0, .perform 0, .perform 0, requestAct 1, .perform 1, .perform 1,
    .perform 1, .perform 1, .perform 1]

/-- The reply comes between the read of a request and its fill. -/
def fillsBehindReply : List (Pool.Act ServedCall) :=
  [requestAct 1, .perform 0, .perform 0, replyAct, .perform 1, .perform 1, .perform 1,
    .perform 0, .perform 0, .perform 0]

def isShortCall (served : ServedCall) : Bool :=
  decide (served.svc = Deployment.single.api) &&
    match served.call with
    | .history c limit _ => decide (c = .ofInt 1) && decide (limit = 1)
    | .finalizeAssistantMessage _ c _ _ _ => decide (c = .ofInt 1)
    | _ => false

theorem mayStart_of_isShortCall {permits : HistoryPool -> HistoryTask -> Prop}
    {pool : HistoryPool} {served : ServedCall} (h : isShortCall served = true) :
    (historyRules (.ofInt 1) 1 permits).mayStart pool served := by
  rcases served with ⟨svc, call⟩
  rcases Bool.and_eq_true_iff.mp h with ⟨hsvc, hcall⟩
  cases of_decide_eq_true hsvc
  refine ⟨rfl, ?_, ?_⟩
  · cases call with
    | history c limit cursor =>
        rcases Bool.and_eq_true_iff.mp hcall with ⟨hc, hlimit⟩
        exact ⟨of_decide_eq_true hc, of_decide_eq_true hlimit⟩
    | finalizeAssistantMessage now c m content citations =>
        have hc : c = .ofInt 1 := of_decide_eq_true hcall
        exact hc
    | _ => cases hcall
  · intro reads args hsend
    cases hsend
    cases hcall

/-- Short calls are started, and the tasks that take their turn pass a test. -/
def shortActs (ok : HistoryPool -> HistoryTask -> Bool) (pool : HistoryPool) :
    Pool.Act ServedCall -> Bool
  | .start served => isShortCall served
  | .perform i => (pool.tasks[i]?).all (ok pool)
  | _ => false

theorem allows_of_shortActs {permits : HistoryPool -> HistoryTask -> Prop}
    {ok : HistoryPool -> HistoryTask -> Bool}
    (hok : forall pool t, ok pool t = true -> permits pool t) {pool : HistoryPool}
    {act : Pool.Act ServedCall} (h : shortActs ok pool act = true) :
    Pool.Allows (historyRules (.ofInt 1) 1 permits) pool act := by
  cases act with
  | start served => exact mayStart_of_isShortCall h
  | perform i =>
      intro t ht
      change (pool.tasks[i]?).all (ok pool) = true at h
      rw [ht] at h
      exact hok pool t h
  | fault i => cases h
  | stop i => cases h

def afterActs (acts : List (Pool.Act ServedCall)) : HistoryPool :=
  acts.foldl (Pool.play (historyRules (.ofInt 1) 1 (FillsInTime (.ofInt 1) 1)))
    ⟨twoReplies, []⟩

theorem fillsAfterReply_current :
    ListIsCurrent (.ofInt 1) 1 (afterActs fillsAfterReply).store := by
  have hchecks : Pool.checks (historyRules (.ofInt 1) 1 (FillsInTime (.ofInt 1) 1))
      (shortActs (fillsInTime? (.ofInt 1) 1)) ⟨twoReplies, []⟩ fillsAfterReply = true := by
    decide
  have hquiet : (afterActs fillsAfterReply).Quiet := by
    decide
  exact lists_current (Or.inl rfl)
    (Pool.reaches_schedule (Pool.allowsAll_of_checks
      (fun _ _ h => allows_of_shortActs (fun _ _ => fillsInTime_of_check) h) hchecks)) hquiet

/-- The list of the request is left over, without the reply. -/
theorem old_list_left :
    ¬forall (c : UUID) (limit : Nat) (s : Store) (pool : HistoryPool),
      ListIsCurrent c limit s ->
      Pool.Reaches (historyRules c limit (fun _ _ => True)) ⟨s, []⟩ pool -> pool.Quiet ->
      ListIsCurrent c limit pool.store := by
  intro hall
  let rules := historyRules (.ofInt 1) 1 (fun _ _ => True)
  let pool := fillsBehindReply.foldl (Pool.play rules) ⟨twoReplies, []⟩
  have hchecks : Pool.checks rules (shortActs (fun _ _ => true)) ⟨twoReplies, []⟩
      fillsBehindReply = true := by
    decide
  have hreach : Pool.Reaches rules ⟨twoReplies, []⟩ pool :=
    Pool.reaches_schedule (Pool.allowsAll_of_checks
      (fun _ _ h => allows_of_shortActs (fun _ _ _ => trivial) h) hchecks)
  have hquiet : pool.Quiet := by
    decide
  have hcached : (pool.store.historyCache (.ofInt 1)).map (List.map Message.messageId) =
      some [.ofInt 3] := by
    decide
  have hpage : (historyPage pool.store (.ofInt 1) 1).map Message.messageId =
      [.ofInt 4] := by
    decide
  rcases hall _ _ _ pool (Or.inl rfl) hreach hquiet with hnone | hcurrent
  · rw [hnone] at hcached
    cases hcached
  · rw [hcurrent] at hcached
    change some ((historyPage pool.store (.ofInt 1) 1).map Message.messageId) = _ at hcached
    rw [hpage] at hcached
    exact absurd (Option.some.inj hcached) (by decide)

end ConversationService
