import ConversationService.Effects.Requests

/-!
# Opening a response and taking it back

The exact states around the placeholder, the key and the set entry of a response, and
around the compensations, which are best effort.
-/

namespace ConversationService

open Python Programs

variable {mayFail : Op -> Prop}

/-- The key that `_register_pending_response` sets. -/
def registeredMarker (svc : MessageService) (c : UUID) (s : Store) : Marker :=
  ⟨c, s.clock + svc.markerTtl⟩

def deadline (svc : MessageService) (reads : Readings) : Nat :=
  reads.registrationTime + svc.settings.pendingResponseTimeoutSeconds * second

/-- The store after `_open_pending_response`. -/
def openedStore (svc : MessageService) (reads : Readings) (c r : UUID) (s : Store) :
    Store :=
  ((s.upsertMessage c r (placeholderRow reads.placeholderTime)).setMarker r
    (some (registeredMarker svc c s))).addPending r (deadline svc reads)

/-- What is left of a response that was taken back from `s`. -/
inductive TakenBack (mayFail : Op -> Prop) (redis : Bool) (c r : UUID) (s : Store) :
    Store -> Prop where
  | deleted {t : Store} : Cleared mayFail redis r s t ->
      TakenBack mayFail redis c r s (t.upsertMessage c r Row.softDeleted)
  | kept {t : Store} : mayFail (.updateDeleted c r) -> Cleared mayFail redis r s t ->
      TakenBack mayFail redis c r s t

theorem TakenBack.row_ne {redis : Bool} {c r c' m : UUID} {s t : Store}
    (h : TakenBack mayFail redis c r s t) (hne : ¬(c' = c ∧ m = r)) :
    t.row c' m = s.row c' m := by
  cases h with
  | deleted hclear => rw [Store.row_upsertMessage_ne _ _ hne, hclear.row]
  | kept _ hclear => rw [hclear.row]

/-- The operations of the compensations do not raise. -/
structure CompensationsSucceed (mayFail : Op -> Prop) : Prop where
  deleted : forall c m, ¬mayFail (.updateDeleted c m)
  cleared : forall m, ¬mayFail (.deletePending m)
  removed : forall m, ¬mayFail (.zremPending m)

theorem TakenBack.exact {redis : Bool} {c r : UUID} {s t : Store}
    (hcomp : CompensationsSucceed mayFail) (hredis : redis = true)
    (h : TakenBack mayFail redis c r s t) :
    t = ((s.setMarker r none).removePending r).upsertMessage c r Row.softDeleted := by
  cases h with
  | deleted hclear =>
      cases hclear with
      | untouched hfail => exact absurd (hfail hredis) (hcomp.cleared r)
      | unmarked _ hfail => exact absurd hfail (hcomp.removed r)
      | cleared _ => rfl
  | kept hfail _ => exact absurd hfail (hcomp.deleted c r)

theorem TakenBack.exact_offline {redis : Bool} {c r : UUID} {s t : Store}
    (hcomp : CompensationsSucceed mayFail) (hredis : redis = false)
    (h : TakenBack mayFail redis c r s t) :
    t = s.upsertMessage c r Row.softDeleted := by
  subst hredis
  cases h with
  | deleted hclear =>
      cases hclear with
      | untouched _ => rfl
      | unmarked honline _ => cases honline
      | cleared honline => cases honline
  | kept hfail _ => exact absurd hfail (hcomp.deleted c r)

section Specs

variable (svc : MessageService) (reads : Readings) (c r : UUID) {s : Store}
  {E : PyExc -> Store -> Prop}

theorem wp_softDeletePlaceholder {Q : Unit -> Store -> Prop}
    (hdone : Q () (s.upsertMessage c r Row.softDeleted))
    (hkept : mayFail (.updateDeleted c r) -> Q () s) :
    Prog.wp storageMachine mayFail (MessageService.softDeletePlaceholder c r) Q E s := by
  unfold MessageService.softDeletePlaceholder MessageRepository.delete
  rw [Prog.wp_tryCatch, Prog.wp_bind, Prog.wp_bind, wp_perform]
  exact ⟨hdone, hkept⟩

theorem wp_registerPendingResponse {Q : Unit -> Store -> Prop}
    (hQ : svc.redis = true ->
      Q () ((s.setMarker r (some (registeredMarker svc c s))).addPending r
        (deadline svc reads)))
    (hE : forall u t, (svc.redis = false ∨ exists o, mayFail o) ->
      u = s ∨ (svc.redis = true ∧ u = s.setMarker r (some (registeredMarker svc c s))) ->
      Cleared mayFail svc.redis r u t -> E .pendingResponseRegistration t) :
    Prog.wp storageMachine mayFail (svc.registerPendingResponse reads c r) Q E s := by
  unfold MessageService.registerPendingResponse
  cases hredis : svc.redis with
  | false =>
      rw [hredis] at hE
      exact hE s s (Or.inl rfl) (Or.inl rfl) (.untouched (by simp))
  | true =>
      rw [if_pos rfl, Prog.wp_tryCatch, Prog.wp_bind, wp_perform, wp_perform]
      refine ⟨⟨hQ hredis, ?_⟩, ?_⟩
      · intro hfail
        rw [Prog.wp_bind]
        apply wp_clearPendingResponse
        intro t ht
        exact hE _ t (Or.inr ⟨_, hfail⟩) (Or.inr ⟨hredis, rfl⟩) ht
      · intro hfail
        rw [Prog.wp_bind]
        apply wp_clearPendingResponse
        intro t ht
        exact hE s t (Or.inr ⟨_, hfail⟩) (Or.inl rfl) ht

/-- A response is opened as a whole, or its insert raises, or it is taken back. -/
theorem wp_openPendingResponse {Q : Unit -> Store -> Prop}
    (hQ : svc.redis = true -> Q () (openedStore svc reads c r s))
    (hinsert : forall e, (exists o, mayFail o) -> E e s)
    (hE : forall u t, (svc.redis = false ∨ exists o, mayFail o) ->
      u = s.upsertMessage c r (placeholderRow reads.placeholderTime) ∨
        (svc.redis = true ∧
          u = (s.upsertMessage c r (placeholderRow reads.placeholderTime)).setMarker r
            (some (registeredMarker svc c s))) ->
      TakenBack mayFail svc.redis c r u t -> E .pendingResponseRegistration t) :
    Prog.wp storageMachine mayFail (svc.openPendingResponse reads c r) Q E s := by
  unfold MessageService.openPendingResponse
  rw [Prog.wp_bind]
  apply wp_createMessageDirect
  · intro t column msg htext hcolumn
    have hempty : t = [] := by
      simpa [boundText, utf8Length] using htext.symm
    have hnone : column = none := by
      simpa [citationsColumn, Json.truthy] using hcolumn.symm
    subst hempty hnone
    rw [Prog.wp_tryCatch]
    apply wp_registerPendingResponse
    · exact hQ
    · intro u v hwhy hu hv
      rw [if_pos rfl, Prog.wp_bind]
      apply wp_softDeletePlaceholder
      · exact hE u _ hwhy hu (.deleted hv)
      · intro hfail
        exact hE u v hwhy hu (.kept hfail hv)
  · intro e hwhy
    rcases hwhy with htext | hcolumn | hfail
    · cases htext
    · cases hcolumn
    · exact hinsert e hfail

theorem wp_discardPendingResponse {Q : Unit -> Store -> Prop}
    (hQ : forall t, TakenBack mayFail svc.redis c r s t -> Q () t) :
    Prog.wp storageMachine mayFail (svc.discardPendingResponse c r) Q E s := by
  unfold MessageService.discardPendingResponse
  rw [Prog.wp_bind]
  apply wp_softDeletePlaceholder
  · apply wp_clearPendingResponse
    intro t ht
    cases ht with
    | untouched hfail => exact hQ _ (.deleted (.untouched hfail))
    | unmarked hredis hfail => exact hQ _ (.deleted (.unmarked hredis hfail))
    | cleared hredis => exact hQ _ (.deleted (.cleared hredis))
  · intro hfail
    apply wp_clearPendingResponse
    intro t ht
    exact hQ t (.kept hfail ht)

theorem wp_stageRequest (m : UUID) (sender : Sender) (content : Text)
    (status : MessageStatus) (payload : ChatMessageCreated)
    (fileIds : Option (List UUID)) {Q : Message -> Store -> Prop}
    (hQ : forall msg,
      Q msg (stagedStore reads c m sender content status payload fileIds s))
    (hE : forall e t, (boundText (.str content) = none ∨ exists o, mayFail o) ->
      TakenBack mayFail svc.redis c r s t -> E e t) :
    Prog.wp storageMachine mayFail
      (svc.stageRequest reads c m sender content status payload fileIds (some r))
      Q E s := by
  unfold MessageService.stageRequest
  rw [Prog.wp_tryCatch]
  apply wp_createWithOutbox
  · intro msg _
    exact hQ msg
  · intro e hwhy
    rw [Prog.wp_bind]
    unfold MessageService.forResponse
    apply wp_discardPendingResponse
    intro t ht
    exact hE e t hwhy ht

end Specs

/-!
# Replacing an answer
-/

/-- The last part of `regenerate`, for a payload that has been built. -/
def replaceAnswer (svc : MessageService) (reads : Readings) (c m r : UUID)
    (target : Message) (payload : ChatMessageCreated) : Py (Option Message) := do
  svc.openPendingResponse reads c r
  let _ <- svc.stageRequest reads c r .assistant [] .pending payload none (some r)
  MessageService.deleteReplaced c m target
  svc.invalidateCache c
  pure (some { target with responseMessageId := some r })

theorem regenerateTarget_eq (svc : MessageService) (reads : Readings) (c m : UUID)
    (userId : Option UUID) (target : Message) (below : List Message) :
    svc.regenerateTarget reads c m userId target below =
      svc.resolvePreferences userId none none >>= fun resolved =>
        replaceAnswer svc reads c m
          (MessageService.regenerateResponseId reads target below.head?) target
          (MessageService.regeneratePayload reads c m userId
            (MessageService.regenerateResponseId reads target below.head?) below.head?
            below.tail resolved) := rfl

/-- The store after the soft delete of the replaced answer, which may be refused. -/
inductive Replaced (mayFail : Op -> Prop) (c m : UUID) (target : Message) (s : Store) :
    Store -> Prop where
  | deleted : target.sender = some .assistant ->
      Replaced mayFail c m target s (s.upsertMessage c m Row.softDeleted)
  | kept : (target.sender = some .assistant -> mayFail (.updateDeleted c m)) ->
      Replaced mayFail c m target s s

/-- The store when the request of a regeneration has been staged. -/
def restagedStore (svc : MessageService) (reads : Readings) (c r : UUID)
    (payload : ChatMessageCreated) (s : Store) : Store :=
  stagedStore reads c r .assistant [] .pending payload none
    (openedStore svc reads c r s)

section Replace

variable (svc : MessageService) (reads : Readings) (c m r : UUID) (target : Message)
  (payload : ChatMessageCreated) {s : Store} {Q : Option Message -> Store -> Prop}
  {E : PyExc -> Store -> Prop}

/-- The states in which an opening, or the batch after it, has been taken back. -/
inductive Refused (mayFail : Op -> Prop) (s : Store) : Store -> Prop where
  | insert : (exists o, mayFail o) -> Refused mayFail s s
  | opening {u t : Store} : (svc.redis = false ∨ exists o, mayFail o) ->
      (u = s.upsertMessage c r (placeholderRow reads.placeholderTime) ∨
        (svc.redis = true ∧
          u = (s.upsertMessage c r (placeholderRow reads.placeholderTime)).setMarker r
            (some (registeredMarker svc c s)))) ->
      TakenBack mayFail svc.redis c r u t -> Refused mayFail s t
  | batch {t : Store} : (exists o, mayFail o) -> svc.redis = true ->
      TakenBack mayFail svc.redis c r (openedStore svc reads c r s) t ->
      Refused mayFail s t

variable {svc reads c r} in
theorem Refused.row_ne {t : Store} (h : Refused svc reads c r mayFail s t)
    {c' m' : UUID} (hne : ¬(c' = c ∧ m' = r)) : t.row c' m' = s.row c' m' := by
  cases h with
  | insert _ => rfl
  | opening _ hu hback =>
      rw [hback.row_ne hne]
      rcases hu with rfl | ⟨_, rfl⟩
      · rw [Store.row_upsertMessage_ne _ _ hne]
      · rw [Store.row_setMarker, Store.row_upsertMessage_ne _ _ hne]
  | batch _ _ hback =>
      rw [hback.row_ne hne]
      unfold openedStore
      rw [Store.row_addPending, Store.row_setMarker, Store.row_upsertMessage_ne _ _ hne]

theorem wp_replaceAnswer
    (hQ : forall t u, svc.redis = true ->
      Replaced mayFail c m target (restagedStore svc reads c r payload s) t ->
      SameCore t u -> Q (some { target with responseMessageId := some r }) u)
    (hE : forall e t, Refused svc reads c r mayFail s t -> E e t) :
    Prog.wp storageMachine mayFail
      (replaceAnswer svc reads c m r target payload) Q E s := by
  unfold replaceAnswer
  rw [Prog.wp_bind]
  apply wp_openPendingResponse
  · intro hredis
    rw [Prog.wp_bind]
    apply wp_stageRequest
    · intro msg
      have hlast : forall t, Replaced mayFail c m target
          (restagedStore svc reads c r payload s) t ->
          Prog.wp storageMachine mayFail
            (svc.invalidateCache c >>= fun _ =>
              pure (some { target with responseMessageId := some r })) Q E t := by
        intro t ht
        rw [Prog.wp_bind]
        apply MessageService.wp_invalidateCache
        intro u hu
        exact hQ t u hredis ht hu
      rw [Prog.wp_bind]
      unfold MessageService.deleteReplaced
      by_cases hsender : target.sender = some .assistant
      · rw [if_pos hsender]
        apply wp_softDeletePlaceholder
        · exact hlast _ (.deleted hsender)
        · intro hfail
          exact hlast _ (.kept (fun _ => hfail))
      · rw [if_neg hsender]
        exact hlast _ (.kept (fun h => absurd h hsender))
    · intro e t hwhy ht
      rcases hwhy with htext | hfail
      · cases htext
      · exact hE e t (.batch hfail hredis ht)
  · intro e hfail
    exact hE e s (.insert hfail)
  · intro u t hwhy hu ht
    exact hE _ t (.opening hwhy hu ht)

/-- A regeneration of a message that is found; `R` is what resolution guarantees. -/
theorem wp_regenerate_located (userId : Option UUID) {below : List Message}
    {R : ResolvedMessagePreferences -> Prop}
    (hlocate : MessageService.locate m
      (historyPage s c svc.settings.cacheHistoryLimit) = some (target, below))
    (hresolve : Prog.wp storageMachine mayFail (svc.resolvePreferences userId none none)
      (fun resolved t => SameCore s t ∧ R resolved) (fun e t => E e t) s)
    (hread : E .storage s)
    (hreplace : forall resolved t, SameCore s t -> R resolved ->
      Prog.wp storageMachine mayFail
        (replaceAnswer svc reads c m
          (MessageService.regenerateResponseId reads target below.head?) target
          (MessageService.regeneratePayload reads c m userId
            (MessageService.regenerateResponseId reads target below.head?) below.head?
            below.tail resolved)) Q E t) :
    Prog.wp storageMachine mayFail (svc.regenerate reads c m userId) Q E s := by
  unfold MessageService.regenerate
  rw [Prog.wp_bind]
  apply wp_repositoryHistory
  · rw [hlocate]
    dsimp only
    rw [regenerateTarget_eq, Prog.wp_bind]
    apply Prog.wp_mono hresolve
    · intro resolved t h
      exact hreplace resolved t h.left h.right
    · intro e t h
      exact h
  · exact hread

end Replace

/-!
# Executions of a regeneration
-/

section Executions

variable {svc : MessageService} {reads : Readings} {c m r : UUID}
  {userId : Option UUID} {target : Message} {below : List Message}
  {payload : ChatMessageCreated} {s t : Store}

def preferencesFault : Op -> Prop
  | .selectPreferences _ => True
  | _ => False

theorem finishes_resolvePreferences (svc : MessageService) (userId : Option UUID)
    (s : Store) : exists resolved, Prog.Finishes storageMachine preferencesFault
      (svc.resolvePreferences userId none none) s (.ok resolved) s := by
  unfold MessageService.resolvePreferences
  cases svc.preferences with
  | false => exact ⟨_, Prog.finishes_ret _ _⟩
  | true =>
      rw [if_pos rfl]
      cases userId with
      | none => exact ⟨_, Prog.finishes_ret _ _⟩
      | some userId =>
          exact ⟨_, Relation.ReflTransGen.single (Prog.Step.failed _ _ _ trivial)⟩

theorem finishes_regenerate {result : Except PyExc (Option Message)}
    (hlocate : MessageService.locate m
      (historyPage s c svc.settings.cacheHistoryLimit) = some (target, below))
    {resolved : ResolvedMessagePreferences}
    (hresolve : Prog.Finishes storageMachine mayFail
      (svc.resolvePreferences userId none none) s (.ok resolved) s)
    (hreplace : Prog.Finishes storageMachine mayFail
      (replaceAnswer svc reads c m
        (MessageService.regenerateResponseId reads target below.head?) target
        (MessageService.regeneratePayload reads c m userId
          (MessageService.regenerateResponseId reads target below.head?) below.head?
          below.tail resolved)) s result t) :
    Prog.Finishes storageMachine mayFail (svc.regenerate reads c m userId) s result t := by
  have hhistory : Prog.Finishes storageMachine mayFail
      (MessageRepository.history c svc.settings.cacheHistoryLimit none) s
      (.ok (historyPage s c svc.settings.cacheHistoryLimit)) s :=
    Relation.ReflTransGen.single (Prog.Step.done _ _ s)
  unfold MessageService.regenerate
  apply Prog.finishes_bind hhistory
  rw [hlocate]
  dsimp only
  rw [regenerateTarget_eq]
  exact Prog.finishes_bind hresolve hreplace

theorem wp_replaceAnswer_noFault :
    Prog.wp storageMachine noFault (replaceAnswer svc reads c m r target payload)
      (fun _ _ => True) (fun _ t => svc.redis = false ∧ IsDeleted t c r) s := by
  have hcomp : CompensationsSucceed noFault :=
    ⟨fun _ _ h => h, fun _ h => h, fun _ h => h⟩
  apply wp_replaceAnswer
  · intro t u _ _ _
    trivial
  · intro e t ht
    cases ht with
    | insert hfault =>
        rcases hfault with ⟨o, hfail⟩
        exact hfail.elim
    | batch hfault _ _ =>
        rcases hfault with ⟨o, hfail⟩
        exact hfail.elim
    | opening hwhy hu hback =>
        have hredis : svc.redis = false := by
          rcases hwhy with hredis | ⟨o, hfail⟩
          · exact hredis
          · exact hfail.elim
        refine ⟨hredis, ?_⟩
        rw [hback.exact_offline hcomp hredis]
        refine ⟨_, Store.row_upsertMessage_self _ _ _ _, ?_⟩
        cases Store.row _ c r <;> rfl

end Executions

end ConversationService
