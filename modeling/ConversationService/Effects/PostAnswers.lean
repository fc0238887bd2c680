import ConversationService.Effects.Answers
import ConversationService.Effects.IdempotentPosts
import ConversationService.Effects.Openings

/-!
# The answer to a posted message

Without faults the answer to a posted message is a function of the conversation that is
found, of the user's preferences and of the value of the key.
-/

namespace ConversationService

open Python Programs

/-!
# Finding the same conversations
-/

def FindsSame (cache : Option CacheService) (s t : Store) : Prop :=
  forall c, findConversation cache t c = findConversation cache s c

theorem FindsSame.refl (cache : Option CacheService) (s : Store) : FindsSame cache s s :=
  fun _ => rfl

theorem FindsSame.trans {cache : Option CacheService} {s t u : Store}
    (h : FindsSame cache s t) (h' : FindsSame cache t u) : FindsSame cache s u :=
  fun c => (h' c).trans (h c)

def Op.LeavesConversations : Op -> Prop
  | .batchCreateConversation _ _ _ _ _ _ _ _ _ _ => False
  | .batchUpdateConversation _ _ _ _ _ _ _ _ _ _ _ => False
  | .batchUpdateTitle _ _ _ _ _ _ _ _ => False
  | .batchHardDelete _ _ _ => False
  | .hsetConversation _ _ => False
  | .deleteConversation _ => False
  | _ => True

theorem findsSame_exec {o : Op} (ho : o.LeavesConversations) (cache : Option CacheService)
    (s : Store) : FindsSame cache s (o.exec s).2 := by
  intro c
  cases o <;> first | rfl | exact ho.elim

theorem Op.IsPaging.leavesConversations {c : UUID} {o : Op} (ho : o.IsPaging c) :
    o.LeavesConversations := by
  cases o <;> trivial

theorem Op.OnResponse.leavesConversations {c r : UUID} {o : Op} (ho : o.OnResponse c r) :
    o.LeavesConversations := by
  cases o <;> trivial

section Posts

variable {conversations : Option CacheService}

theorem wp_findsSame (conversations : Option CacheService) {alpha : Type} {p : Py alpha}
    (hp : OnlyOps Op.LeavesConversations p) {s : Store}
    {Q : alpha -> Store -> Prop} {E : PyExc -> Store -> Prop}
    (hQ : forall a t, FindsSame conversations s t -> Q a t)
    (hE : forall e t, FindsSame conversations s t -> E e t) :
    Prog.wp storageMachine noFault p Q E s := by
  have hkeep : forall o t, Op.LeavesConversations o -> FindsSame conversations s t ->
      FindsSame conversations s (storageMachine.exec o t).2 := by
    intro o t ho hst
    exact hst.trans (findsSame_exec ho conversations t)
  have hfinds : Prog.wp storageMachine noFault p
      (fun _ t => FindsSame conversations s t) (fun _ t => FindsSame conversations s t) s :=
    Prog.wp_of_allOps hp hkeep (FindsSame.refl conversations s)
  exact Prog.wp_mono hfinds hQ hE

theorem wp_findsSame_quiet {p : Py Unit} (hp : OnlyOps Op.LeavesConversations p)
    {s : Store} {Q : Unit -> Store -> Prop} {E : PyExc -> Store -> Prop}
    (hquiet : Prog.wp storageMachine noFault p (fun _ _ => True) (fun _ _ => False) s)
    (hQ : forall t, FindsSame conversations s t -> Q () t) :
    Prog.wp storageMachine noFault p Q E s := by
  have hfinds : Prog.wp storageMachine noFault p
      (fun _ t => FindsSame conversations s t) (fun _ _ => True) s :=
    wp_findsSame conversations hp (fun _ _ ht => ht) (fun _ _ _ => trivial)
  apply Prog.wp_mono (Prog.wp_and hfinds hquiet)
  · intro _ t ht
    exact hQ t ht.left
  · intro e t ht
    exact ht.right.elim

/-!
# The answer of a send
-/

def sentMessage (reads : Readings) (args : SendArgs) : Message :=
  { conversationId := args.conversationId
    messageId := args.messageId
    sender := some args.sender
    content := some args.content
    createdAt := some reads.batchTime
    status := .sent
    fileIds := args.fileIds.getD []
    citations := []
    responseMessageId := MessageService.responseIdFor reads args }

/-- The answer of a user's send, by the answer of the resolution before it. -/
def sendResult (svc : MessageService) (reads : Readings) (args : SendArgs) :
    Except PyExc ResolvedMessagePreferences -> Except PyExc Message
  | .error e => .error e
  | .ok _ =>
      if svc.redis then
        match boundText (.str args.content) with
        | some _ => .ok (sentMessage reads args)
        | none => .error .unicodeError
      else .error .pendingResponseRegistration

/-- What a request starts from, besides the value of its key. -/
structure SameAccess (conversations : Option CacheService) (s t : Store) : Prop
    extends SamePreferences s t where
  found : FindsSame conversations s t

theorem samePreferences_exec (o : Op) (s : Store) : SamePreferences s (o.exec s).2 := by
  cases o <;> exact ⟨rfl, rfl⟩

theorem onlyOps_true {alpha : Type} (p : Py alpha) : OnlyOps (fun _ => True) p := by
  unfold OnlyOps
  induction p with
  | ret a => trivial
  | raise e => trivial
  | op o next ih => exact ⟨trivial, ih⟩

theorem wp_samePreferences {alpha : Type} (p : Py alpha) (s : Store) :
    Prog.wp storageMachine noFault p (fun _ t => SamePreferences s t)
      (fun _ t => SamePreferences s t) s := by
  refine Prog.wp_of_allOps (onlyOps_true p) ?_ ⟨rfl, rfl⟩
  intro o t _ hst
  have hstep := samePreferences_exec o t
  exact ⟨hstep.preferences.trans hst.preferences, hstep.customModes.trans hst.customModes⟩

theorem cqlText_of_boundText {value : Text} (h : boundText (.str value) ≠ none) :
    cqlText (.str value) = .ret value := by
  unfold boundText at h
  unfold cqlText
  dsimp only at h ⊢
  cases hlength : utf8Length value with
  | none =>
      rw [hlength] at h
      exact absurd rfl h
  | some n => rfl

theorem cqlText_of_boundText_none {value : Text} (h : boundText (.str value) = none) :
    cqlText (.str value) = .raise .unicodeError := by
  unfold boundText at h
  unfold cqlText
  dsimp only at h ⊢
  cases hlength : utf8Length value with
  | none => rfl
  | some n =>
      rw [hlength] at h
      cases h

theorem wp_sendContext_finds (svc : MessageService) (args : SendArgs)
    (hbranch : svc.branchContext = some conversations) {s : Store}
    {Q : List HistoryEntry × List AncestorRef -> Store -> Prop}
    {E : PyExc -> Store -> Prop}
    (hQ : forall context t, FindsSame conversations s t -> Q context t) :
    Prog.wp storageMachine noFault (svc.sendContext args) Q E s := by
  unfold MessageService.sendContext
  cases args.sender with
  | user =>
      dsimp only
      rw [Prog.wp_bind]
      unfold MessageService.recentHistory
      rw [hbranch]
      have hown : forall own t, FindsSame conversations s t ->
          Prog.wp storageMachine noFault
            (MessageService.branchEventContext conversations args.conversationId own) Q E t := by
        intro own t ht
        apply wp_branchEventContext
        intro u hu
        exact hQ _ u (ht.trans hu.found)
      rw [Prog.wp_tryCatch, Prog.wp_bind]
      apply wp_findsSame conversations
        (Prog.allOps_mono (MessageService.onlyPages_history svc _ _ _)
          (fun _ ho => ho.leavesConversations))
      · intro messages t ht
        exact hown _ t ht
      · intro e t ht
        exact hown _ t ht
  | assistant => exact hQ _ s (FindsSame.refl conversations s)
  | system => exact hQ _ s (FindsSame.refl conversations s)

theorem wp_stageRequest_answer (conversations : Option CacheService)
    (svc : MessageService) (reads : Readings) (args : SendArgs)
    (payload : ChatMessageCreated) (response : Option UUID) {s : Store}
    {Q : Message -> Store -> Prop} {E : PyExc -> Store -> Prop}
    (hQ : forall t, boundText (.str args.content) ≠ none -> FindsSame conversations s t ->
      Q { sentMessage reads args with responseMessageId := response } t)
    (hE : forall t, boundText (.str args.content) = none -> FindsSame conversations s t ->
      E .unicodeError t) :
    Prog.wp storageMachine noFault
      (svc.stageRequest reads args.conversationId args.messageId args.sender
          args.content .sent payload args.fileIds response >>= fun msg =>
        svc.invalidateCache args.conversationId >>= fun _ =>
          pure { msg with responseMessageId := response }) Q E s := by
  rw [Prog.wp_bind]
  unfold MessageService.stageRequest MessageRepository.createWithOutbox
  rw [Prog.wp_tryCatch]
  cases hbound : boundText (.str args.content) with
  | some text =>
      have hne : boundText (.str args.content) ≠ none := by
        rw [hbound]
        simp
      rw [cqlText_of_boundText hne]
      dsimp only
      rw [Prog.ret_bind, Prog.wp_bind, wp_perform]
      refine ⟨?_, fun hfail => hfail.elim⟩
      rw [Prog.wp_pure, Prog.wp_bind]
      have hbatch : forall t, FindsSame conversations
          (storageMachine.exec (.batchMessageOutbox args.conversationId args.messageId
            args.sender args.content reads.batchTime .sent (args.fileIds.getD [])
            (MessageRepository.outboxBucket args.conversationId) reads.eventId
            { eventType := chatMessageCreatedTopic, payload := payload,
              published := false, createdAt := reads.batchTime }) s).2 t ->
          FindsSame conversations s t := by
        intro t ht
        exact (findsSame_exec (by trivial) conversations s).trans ht
      apply wp_findsSame_quiet
        (Prog.allOps_mono (MessageService.onlyPages_invalidateCache svc _)
          (fun _ ho => ho.leavesConversations))
      · exact MessageService.wp_invalidateCache svc _ (fun _ _ => trivial)
      · intro t ht
        exact hQ t hne (hbatch t ht)
  | none =>
      rw [cqlText_of_boundText_none hbound]
      rw [Prog.raise_bind, Prog.wp_raise, Prog.wp_bind]
      unfold MessageService.forResponse
      cases response with
      | none => exact hE s hbound (FindsSame.refl conversations s)
      | some r =>
          apply wp_findsSame_quiet
            (Prog.allOps_mono (allOps_discardPendingResponse svc args.conversationId r)
              (fun _ ho => ho.leavesConversations))
          · exact wp_discardPendingResponse svc _ r (fun _ _ => trivial)
          · intro t ht
            exact hE t hbound ht

theorem wp_openPendingResponse_answer (conversations : Option CacheService)
    (svc : MessageService) (reads : Readings)
    (c r : UUID) {s : Store} {Q : Unit -> Store -> Prop} {E : PyExc -> Store -> Prop}
    (hQ : forall t, svc.redis = true -> FindsSame conversations s t -> Q () t)
    (hE : forall t, svc.redis = false -> FindsSame conversations s t ->
      E .pendingResponseRegistration t) :
    Prog.wp storageMachine noFault (svc.openPendingResponse reads c r) Q E s := by
  have hanswer : Prog.wp storageMachine noFault (svc.openPendingResponse reads c r)
      (fun _ _ => svc.redis = true)
      (fun e _ => svc.redis = false ∧ e = .pendingResponseRegistration) s := by
    apply wp_openPendingResponse
    · intro hredis
      exact hredis
    · intro e hfault
      rcases hfault with ⟨o, hfail⟩
      exact hfail.elim
    · intro _ _ hwhy _ _
      rcases hwhy with hredis | ⟨o, hfail⟩
      · exact ⟨hredis, rfl⟩
      · exact hfail.elim
  have hfinds : Prog.wp storageMachine noFault (svc.openPendingResponse reads c r)
      (fun _ t => FindsSame conversations s t) (fun _ t => FindsSame conversations s t) s :=
    wp_findsSame conversations
      (onlyOps_openPendingResponse svc reads (fun _ _ => trivial)
        (fun _ ho => ho.leavesConversations))
      (fun _ _ ht => ht) (fun _ _ ht => ht)
  apply Prog.wp_mono (Prog.wp_and hanswer hfinds)
  · intro _ t ht
    exact hQ t ht.left ht.right
  · intro e t ht
    rcases ht with ⟨⟨hredis, rfl⟩, hfound⟩
    exact hE t hredis hfound

/-- What the resolution before a send answers. -/
def resolvedFor (svc : MessageService) (args : SendArgs) (s : Store) :
    Except PyExc ResolvedMessagePreferences :=
  answerOf (svc.resolvePreferences args.userId args.mode args.selectedTools) s

theorem resolvedFor_congr (svc : MessageService) (args : SendArgs) {s t : Store}
    (h : SamePreferences s t) : resolvedFor svc args s = resolvedFor svc args t :=
  answerOf_resolvePreferences svc args.userId args.mode args.selectedTools h

theorem wp_send_result (svc : MessageService) (reads : Readings) (args : SendArgs)
    (hbranch : svc.branchContext = some conversations) (huser : args.sender = .user)
    {s : Store} :
    Prog.wp storageMachine noFault (svc.send reads args)
      (fun msg t => sendResult svc reads args (resolvedFor svc args s) = .ok msg ∧
        FindsSame conversations s t)
      (fun e t => sendResult svc reads args (resolvedFor svc args s) = .error e ∧
        FindsSame conversations s t) s := by
  have hresponse : MessageService.responseIdFor reads args =
      some (uuidv7After args.messageId reads.response) := by
    unfold MessageService.responseIdFor
    rw [huser]
  unfold MessageService.send
  dsimp only
  rw [Prog.wp_bind]
  apply Prog.wp_mono (Prog.wp_and
    (wp_sendContext_finds svc args hbranch (Q := fun _ t => FindsSame conversations s t)
      (E := fun _ _ => False) (fun _ _ ht => ht))
    (wp_samePreferences (svc.sendContext args) s))
  · intro context t ht
    rw [resolvedFor_congr svc args ht.right, Prog.wp_bind]
    apply Prog.wp_mono (Prog.wp_and
      (wp_answerOf (svc.resolvePreferences args.userId args.mode args.selectedTools) t)
      (wp_findsSame conversations
        (Q := fun _ u => FindsSame conversations t u)
        (E := fun _ u => FindsSame conversations t u)
        (MessageService.onlyOps_resolvePreferences (fun _ => trivial)
          (fun _ _ => trivial) svc _ _ _)
        (fun _ _ hu => hu) (fun _ _ hu => hu)))
    · intro resolved u hu
      have hresolved : resolvedFor svc args t = .ok resolved := hu.left
      have hfound := ht.left.trans hu.right
      rw [hresolved, hresponse, Prog.wp_bind]
      unfold sendResult
      dsimp only
      apply wp_openPendingResponse_answer conversations
      · intro v hredis hv
        rw [if_pos hredis]
        apply wp_stageRequest_answer conversations
        · intro w hbound hw
          cases htext : boundText (.str args.content) with
          | none => exact absurd htext hbound
          | some text =>
              rw [← hresponse]
              exact ⟨rfl, hfound.trans (hv.trans hw)⟩
        · intro w hbound hw
          rw [hbound]
          exact ⟨rfl, hfound.trans (hv.trans hw)⟩
      · intro v hredis hv
        rw [if_neg (by simp [hredis])]
        exact ⟨rfl, hfound.trans hv⟩
    · intro e u hu
      have hresolved : resolvedFor svc args t = .error e := hu.left
      rw [hresolved]
      exact ⟨rfl, ht.left.trans hu.right⟩
  · intro e t ht
    exact ht.left.elim

/-!
# The answer of the handler
-/

/-- The answer of a request whose send answers with `result`. -/
def answerFor : Except PyExc Message -> Except PyExc CreateMessageAnswer
  | .ok msg => .ok (.accepted msg)
  | .error e => .error (MessagesApi.sendFailure e)

def valueAfter (before : Option IdempotencyValue) :
    Except PyExc CreateMessageAnswer -> Option IdempotencyValue
  | .ok (.accepted msg) => (MessagesApi.responseData msg).map .saved
  | .ok (.replayed _) => before
  | .error _ => before

/-- The answer of a request by the value that it finds in its key. -/
def handledWith (key : Option Text) (value : Text -> Option IdempotencyValue)
    (result : Except PyExc Message) : Except PyExc CreateMessageAnswer :=
  match key with
  | none => answerFor result
  | some key =>
      match UUID.parse key with
      | none => .error MessagesApi.malformedKey
      | some _ =>
          match value key with
          | some .processing => .error MessagesApi.keyInProgress
          | some (.saved response) => .ok (.replayed response)
          | none => answerFor result

theorem eq_sentMessage {svc : MessageService} {reads : Readings} {args : SendArgs}
    {resolved : Except PyExc ResolvedMessagePreferences} {msg : Message}
    (h : sendResult svc reads args resolved = .ok msg) : msg = sentMessage reads args := by
  unfold sendResult at h
  split at h
  · cases h
  · split at h
    · split at h
      · cases h
        rfl
      · cases h
    · cases h

theorem wp_processNormally_answer (svc : MessageService) (reads : Readings)
    (args : SendArgs) (key : Option Text)
    (hbranch : svc.branchContext = some conversations) (huser : args.sender = .user)
    {s : Store} :
    Prog.wp storageMachine noFault
      (MessagesApi.processNormally svc ⟨true⟩ reads args key)
      (fun a t => answerFor (sendResult svc reads args (resolvedFor svc args s)) = .ok a ∧
        FindsSame conversations s t ∧
        forall k, key = some k -> t.idempotency k = valueAfter none (.ok a))
      (fun e t => answerFor (sendResult svc reads args (resolvedFor svc args s)) =
          .error e ∧
        FindsSame conversations s t ∧ forall k, key = some k -> t.idempotency k = none)
      s := by
  unfold MessagesApi.processNormally
  rw [Prog.wp_bind, Prog.wp_tryCatch]
  apply Prog.wp_mono (wp_send_result svc reads args hbranch huser)
  · intro msg t ht
    rcases ht with ⟨hresult, hfound⟩
    have hmsg := eq_sentMessage hresult
    rw [hresult, Prog.wp_bind]
    cases key with
    | none =>
        refine ⟨rfl, hfound, ?_⟩
        intro k hk
        cases hk
    | some k =>
        have hresponse : exists response, MessagesApi.responseData msg = some response := by
          rw [hmsg]
          exact ⟨_, rfl⟩
        rcases hresponse with ⟨response, hresponse⟩
        unfold MessagesApi.forKey
        dsimp only
        rw [hresponse]
        dsimp only
        unfold IdempotencyService.saveResponse
        rw [if_pos rfl, Prog.wp_tryCatch, wp_perform]
        refine ⟨⟨rfl, ?_, ?_⟩, fun hfail => hfail.elim⟩
        · exact hfound.trans (findsSame_exec (by trivial) conversations t)
        · intro k' hk'
          cases hk'
          unfold valueAfter
          dsimp only
          rw [hresponse]
          exact Function.update_self k _ _
  · intro e t ht
    rcases ht with ⟨hresult, hfound⟩
    rw [hresult, Prog.wp_bind]
    cases key with
    | none =>
        refine ⟨rfl, hfound, ?_⟩
        intro k hk
        cases hk
    | some k =>
        unfold MessagesApi.forKey IdempotencyService.removeLock
        dsimp only
        rw [if_pos rfl, Prog.wp_tryCatch, wp_perform]
        refine ⟨⟨rfl, ?_, ?_⟩, fun hfail => hfail.elim⟩
        · exact hfound.trans (findsSame_exec (by trivial) conversations t)
        · intro k' hk'
          cases hk'
          exact Function.update_self k _ _

theorem wp_createMessage_answer (conversations : Option CacheService)
    (svc : MessageService) (call : CreateMessageCall)
    (hbranch : svc.branchContext = some conversations) {s : Store}
    {args : SendArgs}
    (hargs : args = MessagesApi.sendArgs (uuidv7 call.clock) call.conversationId
      call.payload call.conv) :
    Prog.wp storageMachine noFault (call.program svc ⟨true⟩)
      (fun a t => handledWith call.key s.idempotency
          (sendResult svc call.reads args (resolvedFor svc args s)) = .ok a ∧
        FindsSame conversations s t ∧
        forall k, call.key = some k ->
          t.idempotency k = valueAfter (s.idempotency k) (.ok a))
      (fun e t => handledWith call.key s.idempotency
          (sendResult svc call.reads args (resolvedFor svc args s)) = .error e ∧
        FindsSame conversations s t ∧
        forall k, call.key = some k -> t.idempotency k = s.idempotency k) s := by
  unfold CreateMessageCall.program CreateMessageCall.key MessagesApi.createMessage
  dsimp only
  rw [← hargs]
  have huser : args.sender = .user := by
    rw [hargs]
    rfl
  cases MessagesApi.keyOf call.xIdempotencyKey with
  | none =>
      apply Prog.wp_mono
        (wp_processNormally_answer svc call.reads args none hbranch huser)
      · intro a t ht
        refine ⟨ht.left, ht.right.left, ?_⟩
        intro k hk
        cases hk
      · intro e t ht
        refine ⟨ht.left, ht.right.left, ?_⟩
        intro k hk
        cases hk
  | some key =>
      unfold handledWith
      dsimp only
      cases UUID.parse key with
      | none => exact ⟨rfl, FindsSame.refl conversations s, fun _ _ => rfl⟩
      | some u =>
          dsimp only
          unfold IdempotencyService.claimKey
          rw [if_pos rfl, Prog.wp_bind, Prog.wp_tryCatch, Prog.wp_bind, wp_perform]
          refine ⟨?_, fun hfail => hfail.elim⟩
          cases hvalue : s.idempotency key with
          | none =>
              have hclaimed : ((Op.claimIdempotency key).exec s).1 = true := by
                show (s.idempotency key).isNone = true
                rw [hvalue]
                rfl
              have hsame := samePreferences_exec (.claimIdempotency key) s
              have hfound := findsSame_exec (o := .claimIdempotency key) trivial
                conversations s
              rw [hclaimed]
              dsimp only
              rw [resolvedFor_congr svc args hsame]
              apply Prog.wp_mono
                (wp_processNormally_answer svc call.reads args (some key) hbranch huser)
              · intro a t ht
                refine ⟨ht.left, hfound.trans ht.right.left, ?_⟩
                intro k hk
                cases hk
                rw [hvalue]
                exact ht.right.right key rfl
              · intro e t ht
                refine ⟨ht.left, hfound.trans ht.right.left, ?_⟩
                intro k hk
                cases hk
                rw [hvalue]
                exact ht.right.right key rfl
          | some value =>
              have htaken : ((Op.claimIdempotency key).exec s).1 = false := by
                show (s.idempotency key).isNone = false
                rw [hvalue]
                rfl
              have hkept : ((Op.claimIdempotency key).exec s).2.idempotency
                  key = some value := by
                show Function.update s.idempotency key _ key = _
                rw [Function.update_self, hvalue]
                rfl
              have hfound := findsSame_exec (o := .claimIdempotency key) trivial
                conversations s
              rw [htaken]
              rw [if_neg (by decide), wp_perform]
              refine ⟨?_, fun hfail => hfail.elim⟩
              show Prog.wp storageMachine noFault
                (match ((Op.claimIdempotency key).exec s).2.idempotency key with
                | some .processing => Prog.raise MessagesApi.keyInProgress
                | some (.saved response) => pure (.replayed response)
                | none => MessagesApi.processNormally svc ⟨true⟩ call.reads args (some key))
                _ _ ((Op.claimIdempotency key).exec s).2
              rw [hkept]
              cases value with
              | processing =>
                  refine ⟨rfl, hfound, ?_⟩
                  intro k hk
                  cases hk
                  rw [hkept, hvalue]
              | saved response =>
                  refine ⟨rfl, hfound, ?_⟩
                  intro k hk
                  cases hk
                  rw [hkept, hvalue]
                  rfl

/-!
# The answer of the route
-/

def postAnswer (conversations : Option CacheService) (svc : MessageService) (s : Store)
    (call : PostMessageCall) : Except PyExc CreateMessageAnswer :=
  let svc : MessageService := { svc with branchContext := some conversations }
  match findConversation conversations s call.conversationId with
  | none => .error .valueError
  | some none => .error MessagesApi.conversationNotFound
  | some (some conv) =>
      if conv.userId = some call.currentUser then
        let args := MessagesApi.sendArgs (uuidv7 call.clock) call.conversationId
          call.payload conv
        handledWith call.key s.idempotency
          (sendResult svc call.reads args (resolvedFor svc args s))
      else .error MessagesApi.forbidden

theorem idempotency_of_leavesKeys {o : Op} (ho : o.LeavesKeys) (s : Store) :
    (o.exec s).2.idempotency = s.idempotency := by
  funext key
  apply idempotency_exec
  rw [ho]
  simp

theorem wp_postMessage_answer (conversations : Option CacheService) (svc : MessageService)
    (call : PostMessageCall) {s : Store} :
    Prog.wp storageMachine noFault (call.program conversations svc ⟨true⟩)
      (fun a t => postAnswer conversations svc s call = .ok a ∧
        FindsSame conversations s t ∧
        forall k, call.key = some k ->
          t.idempotency k = valueAfter (s.idempotency k) (.ok a))
      (fun e t => postAnswer conversations svc s call = .error e ∧
        FindsSame conversations s t ∧
        forall k, call.key = some k -> t.idempotency k = s.idempotency k) s := by
  unfold PostMessageCall.program MessagesApi.postMessage
    MessagesApi.requireConversationOwner postAnswer
  rw [Prog.wp_bind, Prog.wp_bind]
  have hfind : Prog.wp storageMachine noFault
      (ConversationReads.get conversations call.conversationId)
      (fun found t => findConversation conversations s call.conversationId = some found ∧
        FindsSame conversations s t)
      (fun e t => findConversation conversations s call.conversationId = none ∧
        e = .valueError ∧ FindsSame conversations s t) s := by
    apply wp_conversationGet
    · intro found t hfound ht
      exact ⟨hfound, ht.found⟩
    · intro hnone
      exact ⟨hnone, rfl, FindsSame.refl conversations s⟩
  have hkeys : Prog.wp storageMachine noFault
      (ConversationReads.get conversations call.conversationId)
      (fun _ t => t.idempotency = s.idempotency)
      (fun _ t => t.idempotency = s.idempotency) s := by
    refine Prog.wp_of_allOps (onlyOps_leavesKeys_get conversations _) ?_ rfl
    intro o t ho ht
    rw [storageMachine_exec, idempotency_of_leavesKeys ho, ht]
  apply Prog.wp_mono (Prog.wp_and (Prog.wp_and hfind hkeys) (wp_samePreferences _ s))
  · intro found t ht
    rcases ht with ⟨⟨⟨hfound, hsame⟩, hkeys⟩, hprefs⟩
    rw [hfound]
    cases found with
    | none => exact ⟨rfl, hsame, fun k _ => congrFun hkeys k⟩
    | some conv =>
        dsimp only
        split
        · rw [Prog.wp_pure]
          have hcreate := wp_createMessage_answer conversations
            { svc with branchContext := some conversations } (call.checked conv) rfl
            (s := t) rfl
          rw [hkeys, ← resolvedFor_congr _ _ hprefs] at hcreate
          apply Prog.wp_mono hcreate
          · intro a u hu
            exact ⟨hu.left, hsame.trans hu.right.left, hu.right.right⟩
          · intro e u hu
            exact ⟨hu.left, hsame.trans hu.right.left, hu.right.right⟩
        · exact ⟨rfl, hsame, fun k _ => congrFun hkeys k⟩
  · intro e t ht
    rcases ht with ⟨⟨⟨hnone, rfl, hsame⟩, hkeys⟩, _⟩
    rw [hnone]
    exact ⟨rfl, hsame, fun k _ => congrFun hkeys k⟩

/-!
# Other keys
-/

def Op.OnKey (key : Option Text) (o : Op) : Prop :=
  o.idempotencyKey = none ∨ o.idempotencyKey = key

theorem onlyOps_onKey_processNormally (svc : MessageService) (reads : Readings)
    (args : SendArgs) (key : Option Text) :
    OnlyOps (Op.OnKey key) (MessagesApi.processNormally svc ⟨true⟩ reads args key) := by
  unfold MessagesApi.processNormally
  refine onlyOps_bind ?_ (fun msg => ?_)
  · refine onlyOps_tryCatch ?_ (fun e => ?_)
    · exact Prog.allOps_mono (onlyOps_leavesKeys_send svc reads args)
        (fun _ ho => Or.inl ho)
    · refine onlyOps_bind ?_ (fun _ => onlyOps_raise _)
      unfold MessagesApi.forKey
      cases key with
      | none => exact onlyOps_ret ()
      | some k => exact onlyOps_tryCatch (onlyOps_perform (Or.inr rfl)) (fun _ => onlyOps_ret ())
  · refine onlyOps_bind ?_ (fun _ => onlyOps_ret _)
    unfold MessagesApi.forKey
    cases key with
    | none => exact onlyOps_ret ()
    | some k =>
        dsimp only
        split
        · exact onlyOps_tryCatch (onlyOps_perform (Or.inr rfl)) (fun _ => onlyOps_ret ())
        · exact onlyOps_raise _

theorem onlyOps_onKey_post (conversations : Option CacheService) (svc : MessageService)
    (call : PostMessageCall) :
    OnlyOps (Op.OnKey call.key) (call.program conversations svc ⟨true⟩) := by
  unfold PostMessageCall.program MessagesApi.postMessage
  refine onlyOps_bind ?_ (fun conv => ?_)
  · exact Prog.allOps_mono (onlyOps_requireConversationOwner conversations _ _)
      (fun _ ho => Or.inl ho)
  · unfold MessagesApi.createMessage PostMessageCall.key
    dsimp only
    cases MessagesApi.keyOf call.xIdempotencyKey with
    | none => exact onlyOps_onKey_processNormally _ _ _ none
    | some key =>
        dsimp only
        cases UUID.parse key with
        | none => exact onlyOps_raise _
        | some u =>
            refine onlyOps_bind ?_ (fun status => ?_)
            · refine onlyOps_tryCatch ?_ (fun _ => onlyOps_ret _)
              refine onlyOps_bind (onlyOps_perform (Or.inr rfl)) (fun acquired => ?_)
              cases acquired with
              | true => exact onlyOps_ret _
              | false => exact onlyOps_perform (Or.inr rfl)
            · cases status with
              | none => exact onlyOps_onKey_processNormally _ _ _ (some key)
              | some value =>
                  cases value with
                  | processing => exact onlyOps_raise _
                  | saved response => exact onlyOps_ret _

/-!
# Serving one request
-/

/-- The answer to a request that is served alone and without faults, and its effect. -/
def serve (conversations : Option CacheService) (svc : MessageService) (s : Store)
    (call : PostMessageCall) : Except PyExc CreateMessageAnswer × Store :=
  Prog.run storageMachine (fun _ => false) (call.program conversations svc ⟨true⟩) s

structure Served (conversations : Option CacheService) (svc : MessageService) (s : Store)
    (call : PostMessageCall) : Prop where
  answer : (serve conversations svc s call).1 = postAnswer conversations svc s call
  access : SameAccess conversations s (serve conversations svc s call).2
  key : forall k, call.key = some k ->
    (serve conversations svc s call).2.idempotency k =
      valueAfter (s.idempotency k) (serve conversations svc s call).1
  others : forall k, call.key ≠ some k ->
    (serve conversations svc s call).2.idempotency k = s.idempotency k

theorem served (conversations : Option CacheService) (svc : MessageService) (s : Store)
    (call : PostMessageCall) : Served conversations svc s call := by
  have hothers : Prog.wp storageMachine noFault (call.program conversations svc ⟨true⟩)
      (fun _ t => forall k, call.key ≠ some k -> t.idempotency k = s.idempotency k)
      (fun _ t => forall k, call.key ≠ some k -> t.idempotency k = s.idempotency k) s := by
    refine Prog.wp_of_allOps (onlyOps_onKey_post conversations svc call) ?_
      (fun _ _ => rfl)
    intro o t ho ht k hk
    have hne : o.idempotencyKey ≠ some k := by
      rcases ho with hnone | hown
      · rw [hnone]
        simp
      · rw [hown]
        exact hk
    rw [storageMachine_exec, idempotency_exec hne, ht k hk]
  have hall := (Prog.wp_noFault_iff _ _ _ s).mp
    (Prog.wp_and (Prog.wp_and (wp_postMessage_answer conversations svc call) hothers)
      (wp_samePreferences (call.program conversations svc ⟨true⟩) s))
  split at hall
  · rename_i a hrun
    have hanswer : (serve conversations svc s call).1 = .ok a := hrun
    rcases hall with ⟨⟨⟨hresult, hfound, hkey⟩, hothers⟩, hprefs⟩
    refine ⟨hanswer.trans hresult.symm, ⟨hprefs, hfound⟩, ?_, hothers⟩
    intro k hk
    rw [hanswer]
    exact hkey k hk
  · rename_i e hrun
    have hanswer : (serve conversations svc s call).1 = .error e := hrun
    rcases hall with ⟨⟨⟨hresult, hfound, hkey⟩, hothers⟩, hprefs⟩
    refine ⟨hanswer.trans hresult.symm, ⟨hprefs, hfound⟩, ?_, hothers⟩
    intro k hk
    rw [hanswer]
    exact hkey k hk

end Posts

end ConversationService
