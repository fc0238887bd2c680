import ConversationService.Model.Replicas
import ConversationService.Effects.Requests

/-!
# The stages of a posted message

A request with a key first tries to claim it. One that finds the key taken reads its
value and ends with what it finds. One that has claimed the key sends, and its last
operation saves the response or removes the lock.
-/

namespace ConversationService

open Python Programs

/-- The idempotency key that an operation is about. -/
def Op.idempotencyKey : Op -> Option Text
  | .claimIdempotency key => some key
  | .getIdempotency key => some key
  | .setIdempotency key _ => some key
  | .deleteIdempotency key => some key
  | _ => none

/-- The operation is about no idempotency key. -/
def Op.LeavesKeys (o : Op) : Prop := o.idempotencyKey = none

theorem idempotency_exec {o : Op} {key : Text} (h : o.idempotencyKey ≠ some key)
    (s : Store) : (o.exec s).2.idempotency key = s.idempotency key := by
  cases o with
  | claimIdempotency k =>
      have hne : key ≠ k := fun heq => h (congrArg some heq.symm)
      exact Function.update_of_ne hne _ _
  | setIdempotency k value =>
      have hne : key ≠ k := fun heq => h (congrArg some heq.symm)
      exact Function.update_of_ne hne _ _
  | deleteIdempotency k =>
      have hne : key ≠ k := fun heq => h (congrArg some heq.symm)
      exact Function.update_of_ne hne _ _
  | _ => rfl

theorem Op.IsTraffic.leavesKeys {o : Op} (ho : o.IsTraffic) : o.LeavesKeys := by
  cases o <;> first | rfl | exact ho.elim

theorem Op.OnResponse.leavesKeys {c r : UUID} {o : Op} (ho : o.OnResponse c r) :
    o.LeavesKeys := by
  cases o <;> first | rfl | exact ho.elim

theorem onlyOps_leavesKeys_send (svc : MessageService) (reads : Readings)
    (args : SendArgs) : OnlyOps Op.LeavesKeys (svc.send reads args) :=
  onlyOps_send svc reads (fun _ ho => ho.isTraffic.leavesKeys) (fun _ _ _ _ _ => rfl)
    (fun _ _ _ ho => ho.leavesKeys) (fun _ _ _ _ _ => rfl)

/-!
# After the claim
-/

/-- What is left of a request that has `rest` of its send before it. -/
def completing (key : Option Text) (rest : Py Message) : Py CreateMessageAnswer :=
  Prog.tryCatch rest
    (fun e => do
      MessagesApi.forKey key (IdempotencyService.removeLock ⟨true⟩)
      Prog.raise (MessagesApi.sendFailure e)) >>= fun msg => do
    MessagesApi.forKey key (fun key =>
      match MessagesApi.responseData msg with
      | some response => IdempotencyService.saveResponse ⟨true⟩ key response
      | none => Prog.raise .attributeError)
    pure (.accepted msg)

def Sending (key : Option Text) (p : Py CreateMessageAnswer) : Prop :=
  exists rest, OnlyOps Op.LeavesKeys rest ∧ p = completing key rest

theorem sending_processNormally (svc : MessageService) (reads : Readings)
    (args : SendArgs) (key : Option Text) :
    Sending key (MessagesApi.processNormally svc ⟨true⟩ reads args key) :=
  ⟨svc.send reads args, onlyOps_leavesKeys_send svc reads args, rfl⟩

/-- Where a request behind its claim is. -/
inductive SendStage (key : Option Text) : Py CreateMessageAnswer -> Prop where
  | working (o : Op) (next : Option o.Res -> Py CreateMessageAnswer) :
      o.LeavesKeys -> (forall answer, Sending key (next answer)) ->
      SendStage key (.op o next)
  | saving (k : Text) (msg : Message) (response : SavedResponse)
      (next : Option Unit -> Py CreateMessageAnswer) :
      key = some k -> MessagesApi.responseData msg = some response ->
      (forall answer, next answer = .ret (.accepted msg)) ->
      SendStage key (.op (.setIdempotency k (.saved response)) next)
  | releasing (k : Text) (e : PyExc) (next : Option Unit -> Py CreateMessageAnswer) :
      key = some k -> (forall answer, next answer = .raise e) ->
      SendStage key (.op (.deleteIdempotency k) next)
  | unkeyed (msg : Message) : key = none -> SendStage key (.ret (.accepted msg))
  | failed (e : PyExc) : SendStage key (.raise e)

theorem sendStage_of_sending {key : Option Text} {p : Py CreateMessageAnswer}
    (h : Sending key p) : SendStage key p := by
  rcases h with ⟨rest, hrest, rfl⟩
  cases rest with
  | op o next =>
      apply SendStage.working o _ hrest.left
      intro answer
      exact ⟨next answer, hrest.right answer, rfl⟩
  | raise e =>
      cases key with
      | none => exact SendStage.failed (MessagesApi.sendFailure e)
      | some k =>
          apply SendStage.releasing k (MessagesApi.sendFailure e) _ rfl
          intro answer
          cases answer <;> rfl
  | ret msg =>
      cases key with
      | none => exact SendStage.unkeyed msg rfl
      | some k =>
          cases hresponse : MessagesApi.responseData msg with
          | none =>
              have hraise : completing (some k) (.ret msg) = .raise .attributeError := by
                unfold completing MessagesApi.forKey
                simp only [Prog.tryCatch, Prog.ret_bind, hresponse, Prog.raise_bind]
              rw [hraise]
              exact SendStage.failed _
          | some response =>
              have hsave : completing (some k) (.ret msg) =
                  IdempotencyService.saveResponse ⟨true⟩ k response >>=
                    fun _ => .ret (.accepted msg) := by
                unfold completing MessagesApi.forKey
                simp only [Prog.tryCatch, Prog.ret_bind, hresponse, Prog.pure_eq_ret]
              rw [hsave]
              apply SendStage.saving k msg response _ rfl hresponse
              intro answer
              cases answer <;> rfl

/-!
# The whole request
-/

/-- What a request does with the value of a key that it has not claimed. -/
structure Looks (key : Text)
    (next : Option (Option IdempotencyValue) -> Py CreateMessageAnswer) : Prop where
  processing : next (some (some .processing)) = .raise MessagesApi.keyInProgress
  saved : forall response, next (some (some (.saved response))) = .ret (.replayed response)
  vanished : Sending (some key) (next (some none))
  raised : Sending (some key) (next none)

structure Claims (key : Text) (next : Option Bool -> Py CreateMessageAnswer) : Prop where
  acquired : Sending (some key) (next (some true))
  taken : exists look, next (some false) = .op (.getIdempotency key) look ∧ Looks key look
  raised : Sending (some key) (next none)

/-- Where a request is. -/
inductive PostStage (key : Option Text) : Py CreateMessageAnswer -> Prop where
  | unclaimed (k : Text) (next : Option Bool -> Py CreateMessageAnswer) :
      key = some k -> Claims k next -> PostStage key (.op (.claimIdempotency k) next)
  | looking (k : Text)
      (next : Option (Option IdempotencyValue) -> Py CreateMessageAnswer) :
      key = some k -> Looks k next -> PostStage key (.op (.getIdempotency k) next)
  | sending (p : Py CreateMessageAnswer) : Sending key p -> PostStage key p
  | accepted (msg : Message) : PostStage key (.ret (.accepted msg))
  | replayed (response : SavedResponse) : PostStage key (.ret (.replayed response))
  | failed (e : PyExc) : PostStage key (.raise e)

theorem program_of_no_key {svc : MessageService} {call : CreateMessageCall}
    (hkey : call.key = none) : Sending none (call.program svc ⟨true⟩) := by
  unfold CreateMessageCall.key at hkey
  unfold CreateMessageCall.program MessagesApi.createMessage
  dsimp only
  rw [hkey]
  exact sending_processNormally svc _ _ none

theorem program_of_key (svc : MessageService) {call : CreateMessageCall} {key : Text}
    (hkey : call.key = some key) :
    call.program svc ⟨true⟩ = .raise MessagesApi.malformedKey ∨
      exists next, call.program svc ⟨true⟩ = .op (.claimIdempotency key) next ∧
        Claims key next := by
  unfold CreateMessageCall.key at hkey
  unfold CreateMessageCall.program MessagesApi.createMessage
  dsimp only
  rw [hkey]
  dsimp only
  cases UUID.parse key with
  | none => exact Or.inl rfl
  | some u =>
      refine Or.inr ⟨_, rfl, ?_⟩
      constructor
      · exact sending_processNormally svc _ _ (some key)
      · refine ⟨_, rfl, rfl, fun response => rfl, ?_, ?_⟩
        · exact sending_processNormally svc _ _ (some key)
        · exact sending_processNormally svc _ _ (some key)
      · exact sending_processNormally svc _ _ (some key)

theorem postStage_start (svc : MessageService) (call : CreateMessageCall) :
    PostStage call.key (call.program svc ⟨true⟩) := by
  cases hkey : call.key with
  | none => exact PostStage.sending _ (program_of_no_key hkey)
  | some key =>
      rcases program_of_key svc hkey with hrefused | ⟨next, hclaim, hclaims⟩
      · rw [hrefused]
        exact PostStage.failed _
      · rw [hclaim]
        exact PostStage.unclaimed key next rfl hclaims

theorem postStage_of_sending {k : Text} {key : Option Text} {p : Py CreateMessageAnswer}
    (hk : key = some k) (h : Sending (some k) p) : PostStage key p :=
  PostStage.sending p (hk ▸ h)

/-- Whatever is answered to it, a request is at one of its stages afterwards. -/
theorem postStage_next {key : Option Text} {o : Op}
    {next : Option o.Res -> Py CreateMessageAnswer} (h : PostStage key (.op o next))
    (answer : Option o.Res) : PostStage key (next answer) := by
  cases h with
  | unclaimed k next hk hclaims =>
      match answer with
      | none => exact postStage_of_sending hk hclaims.raised
      | some true => exact postStage_of_sending hk hclaims.acquired
      | some false =>
          rcases hclaims.taken with ⟨look, hlook, hlooks⟩
          rw [hlook]
          exact PostStage.looking k look hk hlooks
  | looking k next hk hlooks =>
      match answer with
      | none => exact postStage_of_sending hk hlooks.raised
      | some none => exact postStage_of_sending hk hlooks.vanished
      | some (some .processing) =>
          rw [hlooks.processing]
          exact PostStage.failed _
      | some (some (.saved response)) =>
          rw [hlooks.saved response]
          exact PostStage.replayed response
  | sending _ hsending =>
      cases sendStage_of_sending hsending with
      | working o next _ hnext => exact PostStage.sending _ (hnext answer)
      | saving k msg response next _ _ hnext =>
          rw [hnext answer]
          exact PostStage.accepted msg
      | releasing k e next _ hnext =>
          rw [hnext answer]
          exact PostStage.failed e

theorem sending_ne_replayed {key : Option Text} {response : SavedResponse} :
    ¬Sending key (.ret (.replayed response)) := by
  intro h
  cases sendStage_of_sending h

theorem read_of_replayed {key : Option Text} {o : Op}
    {next : Option o.Res -> Py CreateMessageAnswer} {s : Store}
    {response : SavedResponse} (h : PostStage key (.op o next))
    (hnext : next (some (o.exec s).1) = .ret (.replayed response)) :
    exists k, key = some k ∧ s.idempotency k = some (.saved response) := by
  cases h with
  | unclaimed k next hk hclaims =>
      cases hanswer : ((Op.claimIdempotency k).exec s).1 with
      | true =>
          rw [hanswer] at hnext
          exact absurd (hnext ▸ hclaims.acquired) sending_ne_replayed
      | false =>
          rcases hclaims.taken with ⟨look, hlook, _⟩
          rw [hanswer, hlook] at hnext
          cases hnext
  | looking k next hk hlooks =>
      refine ⟨k, hk, ?_⟩
      change next (some (s.idempotency k)) = .ret (.replayed response) at hnext
      cases hvalue : s.idempotency k with
      | none =>
          rw [hvalue] at hnext
          exact absurd (hnext ▸ hlooks.vanished) sending_ne_replayed
      | some value =>
          rw [hvalue] at hnext
          cases value with
          | processing =>
              rw [hlooks.processing] at hnext
              cases hnext
          | saved response' =>
              rw [hlooks.saved response'] at hnext
              cases hnext
              rfl
  | sending _ hsending =>
      cases sendStage_of_sending hsending with
      | working o next _ hnext' =>
          exact absurd (hnext ▸ hnext' _) sending_ne_replayed
      | saving k msg response' next _ _ hnext' =>
          rw [hnext'] at hnext
          cases hnext
      | releasing k e next _ hnext' =>
          rw [hnext'] at hnext
          cases hnext

theorem not_replayed_of_raised {key : Option Text} {o : Op}
    {next : Option o.Res -> Py CreateMessageAnswer} {response : SavedResponse}
    (h : PostStage key (.op o next)) : next none ≠ .ret (.replayed response) := by
  intro hnext
  cases h with
  | unclaimed k next hk hclaims =>
      exact absurd (hnext ▸ hclaims.raised) sending_ne_replayed
  | looking k next hk hlooks => exact absurd (hnext ▸ hlooks.raised) sending_ne_replayed
  | sending _ hsending =>
      cases sendStage_of_sending hsending with
      | working o next _ hnext' =>
          exact absurd (hnext ▸ hnext' none) sending_ne_replayed
      | saving k msg response' next _ _ hnext' =>
          rw [hnext'] at hnext
          cases hnext
      | releasing k e next _ hnext' =>
          rw [hnext'] at hnext
          cases hnext

theorem sent_of_saved {key : Option Text} {o : Op}
    {next : Option o.Res -> Py CreateMessageAnswer} {s : Store} {k : Text}
    {response : SavedResponse} (h : PostStage key (.op o next))
    (hsaved : (o.exec s).2.idempotency k = some (.saved response)) :
    s.idempotency k = some (.saved response) ∨
      key = some k ∧ exists msg, MessagesApi.responseData msg = some response ∧
        next (some (o.exec s).1) = .ret (.accepted msg) := by
  by_cases htarget : o.idempotencyKey = some k
  · cases h with
    | unclaimed k' next hk _ =>
        cases htarget
        have hstored := (Function.update_self k _ _).symm.trans hsaved
        apply Or.inl
        cases hvalue : s.idempotency k with
        | none =>
            rw [hvalue] at hstored
            cases hstored
        | some value =>
            rw [hvalue] at hstored
            exact hstored
    | looking k' next hk _ => exact Or.inl hsaved
    | sending _ hsending =>
        cases sendStage_of_sending hsending with
        | working o next ho _ =>
            rw [ho] at htarget
            cases htarget
        | saving k' msg response' next hk hresponse hnext =>
            cases htarget
            cases (Function.update_self k _ _).symm.trans hsaved
            exact Or.inr ⟨hk, msg, hresponse, hnext _⟩
        | releasing k' e next hk _ =>
            cases htarget
            cases (Function.update_self k _ _).symm.trans hsaved
  · exact Or.inl ((idempotency_exec htarget s).symm.trans hsaved)

/-!
# The route
-/

theorem start_ne_replayed (svc : MessageService) (call : CreateMessageCall)
    (response : SavedResponse) : call.program svc ⟨true⟩ ≠ .ret (.replayed response) := by
  intro hreplayed
  cases hkey : call.key with
  | none => exact sending_ne_replayed (hreplayed ▸ program_of_no_key hkey)
  | some key =>
      rcases program_of_key svc hkey with hrefused | ⟨next, hclaim, _⟩
      · cases hrefused.symm.trans hreplayed
      · cases hclaim.symm.trans hreplayed

structure Checking (key : Option Text) (check : Py Conversation)
    (handler : Conversation -> Py CreateMessageAnswer) : Prop where
  check : OnlyOps Op.LeavesKeys check
  stage : forall conv, PostStage key (handler conv)
  fresh : forall conv response, handler conv ≠ .ret (.replayed response)

/-- A request of the route: its owner check, and then its handler. -/
def RouteStage (key : Option Text) (p : Py CreateMessageAnswer) : Prop :=
  PostStage key p ∨ exists check handler, Checking key check handler ∧ p = check >>= handler

theorem onlyOps_leavesKeys_get (conversations : Option CacheService) (c : UUID) :
    OnlyOps Op.LeavesKeys (ConversationReads.get conversations c) :=
  Prog.allOps_mono (onlyLookups_conversationGet conversations c)
    (fun _ ho => (ho.isRead (c := c)).isTraffic.leavesKeys)

theorem onlyOps_requireConversationOwner (conversations : Option CacheService)
    (c currentUser : UUID) :
    OnlyOps Op.LeavesKeys
      (MessagesApi.requireConversationOwner conversations c currentUser) := by
  unfold MessagesApi.requireConversationOwner
  refine onlyOps_bind (onlyOps_leavesKeys_get conversations c) ?_
  intro found
  cases found with
  | none => exact onlyOps_raise _
  | some conv =>
      dsimp only
      split
      · exact onlyOps_ret conv
      · exact onlyOps_raise _

/-- The request of the handler behind the owner check. -/
def PostMessageCall.checked (call : PostMessageCall) (conv : Conversation) :
    CreateMessageCall :=
  ⟨call.reads, call.clock, call.conversationId, call.payload, call.xIdempotencyKey, conv⟩

theorem routeStage_start (conversations : Option CacheService) (svc : MessageService)
    (call : PostMessageCall) :
    RouteStage call.key (call.program conversations svc ⟨true⟩) := by
  refine Or.inr ⟨_, _, ⟨?_, ?_, ?_⟩, rfl⟩
  · exact onlyOps_requireConversationOwner conversations _ _
  · intro conv
    exact postStage_start _ (call.checked conv)
  · intro conv response
    exact start_ne_replayed _ (call.checked conv) response

theorem route_ne_replayed (conversations : Option CacheService) (svc : MessageService)
    (call : PostMessageCall) (response : SavedResponse) :
    call.program conversations svc ⟨true⟩ ≠ .ret (.replayed response) := by
  unfold PostMessageCall.program MessagesApi.postMessage
  cases hcheck : MessagesApi.requireConversationOwner conversations call.conversationId
    call.currentUser with
  | ret conv => exact start_ne_replayed _ (call.checked conv) response
  | raise e =>
      intro h
      cases h
  | op o next =>
      intro h
      cases h

theorem routeStage_op {key : Option Text} {o : Op}
    {next : Option o.Res -> Py CreateMessageAnswer} (h : RouteStage key (.op o next)) :
    PostStage key (.op o next) ∨
      (o.LeavesKeys ∧ forall answer, RouteStage key (next answer) ∧
        forall response, next answer ≠ .ret (.replayed response)) := by
  rcases h with hstage | ⟨check, handler, hchecking, heq⟩
  · exact Or.inl hstage
  · cases check with
    | ret conv =>
        apply Or.inl
        rw [heq]
        exact hchecking.stage conv
    | raise e => cases heq
    | op o' rest =>
        cases heq
        refine Or.inr ⟨hchecking.check.left, ?_⟩
        intro answer
        have hrest : Checking key (rest answer) handler :=
          ⟨hchecking.check.right answer, hchecking.stage, hchecking.fresh⟩
        refine ⟨Or.inr ⟨rest answer, handler, hrest, rfl⟩, ?_⟩
        intro response hreplayed
        change (rest answer).bind handler = .ret (.replayed response) at hreplayed
        cases hcheck : rest answer with
        | ret conv =>
            rw [hcheck] at hreplayed
            exact hchecking.fresh conv response hreplayed
        | raise e =>
            rw [hcheck] at hreplayed
            cases hreplayed
        | op o'' rest' =>
            rw [hcheck] at hreplayed
            cases hreplayed

theorem routeStage_next {key : Option Text} {o : Op}
    {next : Option o.Res -> Py CreateMessageAnswer} (h : RouteStage key (.op o next))
    (answer : Option o.Res) : RouteStage key (next answer) := by
  rcases routeStage_op h with hstage | ⟨_, hnext⟩
  · exact Or.inl (postStage_next hstage answer)
  · exact (hnext answer).left

/-!
# The message that is sent
-/

/-- The message is the one that a send with these arguments makes. -/
structure IsMessageOf (args : SendArgs) (msg : Message) : Prop where
  conversationId : msg.conversationId = args.conversationId
  messageId : msg.messageId = args.messageId
  sender : msg.sender = some args.sender
  content : msg.content = some args.content

theorem returns_cqlText (value : Text) :
    Prog.Returns (fun t => t = value) (cqlText (.str value)) := by
  unfold cqlText
  dsimp only
  split
  · exact rfl
  · trivial

theorem returns_send (svc : MessageService) (reads : Readings) (args : SendArgs) :
    Prog.Returns (IsMessageOf args) (svc.send reads args) := by
  unfold MessageService.send
  dsimp only
  refine Prog.returns_bind (Prog.returns_trivial _) (fun context _ => ?_)
  refine Prog.returns_bind (Prog.returns_trivial _) (fun resolved _ => ?_)
  refine Prog.returns_bind (Prog.returns_trivial _) (fun _ _ => ?_)
  refine Prog.returns_bind (P := IsMessageOf args) ?_ (fun msg hmsg => ?_)
  · unfold MessageService.stageRequest MessageRepository.createWithOutbox
    refine Prog.returns_tryCatch ?_ (fun e => ?_)
    · refine Prog.returns_bind (returns_cqlText _) (fun content hcontent => ?_)
      refine Prog.returns_bind (Prog.returns_trivial _) (fun _ _ => ?_)
      exact ⟨rfl, rfl, rfl, congrArg some hcontent⟩
    · refine Prog.returns_bind (Prog.returns_trivial _) (fun _ _ => ?_)
      trivial
  · refine Prog.returns_bind (Prog.returns_trivial _) (fun _ _ => ?_)
    exact ⟨hmsg.conversationId, hmsg.messageId, hmsg.sender, hmsg.content⟩

def AcceptsOwn (call : PostMessageCall) : CreateMessageAnswer -> Prop
  | .accepted msg =>
      msg.conversationId = call.conversationId ∧ msg.messageId = uuidv7 call.clock ∧
        msg.sender = some .user ∧ msg.content = some call.payload.content
  | .replayed _ => True

theorem returns_processNormally (svc : MessageService) (idempotency : IdempotencyService)
    (reads : Readings) (args : SendArgs) (key : Option Text) :
    Prog.Returns
      (fun answer => forall msg, answer = .accepted msg -> IsMessageOf args msg)
      (MessagesApi.processNormally svc idempotency reads args key) := by
  unfold MessagesApi.processNormally
  refine Prog.returns_bind (P := IsMessageOf args) ?_ (fun msg hmsg => ?_)
  · refine Prog.returns_tryCatch (returns_send svc reads args) (fun e => ?_)
    refine Prog.returns_bind (Prog.returns_trivial _) (fun _ _ => ?_)
    trivial
  · refine Prog.returns_bind (Prog.returns_trivial _) (fun _ _ => ?_)
    intro msg' hmsg'
    cases hmsg'
    exact hmsg

theorem returns_postMessage (conversations : Option CacheService) (svc : MessageService)
    (call : PostMessageCall) :
    Prog.Returns (AcceptsOwn call) (call.program conversations svc ⟨true⟩) := by
  unfold PostMessageCall.program MessagesApi.postMessage
  refine Prog.returns_bind (Prog.returns_trivial _) (fun conv _ => ?_)
  have hnormally : forall key, Prog.Returns (AcceptsOwn call)
      (MessagesApi.processNormally { svc with branchContext := some conversations } ⟨true⟩
        call.reads
        (MessagesApi.sendArgs (uuidv7 call.clock) call.conversationId call.payload conv)
        key) := by
    intro key
    refine Prog.returns_mono (returns_processNormally _ _ _ _ key) ?_
    intro answer h
    cases answer with
    | accepted msg =>
        have hmsg := h msg rfl
        exact ⟨hmsg.conversationId, hmsg.messageId, hmsg.sender, hmsg.content⟩
    | replayed response => trivial
  unfold MessagesApi.createMessage
  dsimp only
  cases MessagesApi.keyOf call.xIdempotencyKey with
  | none => exact hnormally none
  | some key =>
      dsimp only
      cases UUID.parse key with
      | none => trivial
      | some u =>
          refine Prog.returns_bind (Prog.returns_trivial _) (fun status _ => ?_)
          cases status with
          | none => exact hnormally (some key)
          | some value =>
              cases value with
              | processing => trivial
              | saved response => trivial

end ConversationService
