import ConversationService.Effects.IdempotentPosts

/-!
# One send for an idempotency key

While a request holds its key, the key's value is `processing`; after a successful send
it is the saved response. This holds as long as every request that finds the key taken
also finds a value in it. A request that reads the key after the lock has been removed
takes itself for the holder, and then a later request can claim the key as well.
-/

namespace ConversationService

open Python Programs

abbrev PostTask := Task CreateMessageCall storage PyExc CreateMessageAnswer

abbrev PostPool := Pool CreateMessageCall storage PyExc CreateMessageAnswer Store

/--
The request has claimed its key and has operations left, or its send has succeeded.
Before its claim a request performs operations on its key only.
-/
def atWorkOrSent : Py CreateMessageAnswer -> Bool
  | .op (.claimIdempotency _) _ => false
  | .op (.getIdempotency _) _ => false
  | .op _ _ => true
  | .ret (.accepted _) => true
  | .ret (.replayed _) => false
  | .raise _ => false

def Occupies (key : Text) (t : PostTask) : Prop :=
  t.call.key = some key ∧ atWorkOrSent t.prog = true

instance (key : Text) (t : PostTask) : Decidable (Occupies key t) :=
  inferInstanceAs (Decidable (_ ∧ _))

/-- A request with the key has sent its message, and this is its response. -/
def SentWith (key : Text) (response : SavedResponse) (c : PostPool) : Prop :=
  exists t msg, t ∈ c.tasks ∧ t.call.key = some key ∧ t.prog = .ret (.accepted msg) ∧
    MessagesApi.responseData msg = some response

/--
At most one request of the key is at work behind its claim or has sent. A request that
finds the key taken ends with 409 or with the response of the send, and whoever has
answered from the key has answered with that response.
-/
structure OneSend (key : Text) (c : PostPool) : Prop where
  alone : c.tasks.Pairwise (fun p q => ¬(Occupies key p ∧ Occupies key q))
  refused : forall t k next, t ∈ c.tasks -> t.call.key = some key ->
    t.prog = .op (.getIdempotency k) next ->
    forall value, c.store.idempotency key = some value ->
      next (some (some value)) = .raise MessagesApi.keyInProgress ∨
      exists response, SentWith key response c ∧
        next (some (some value)) = .ret (.replayed response)
  replayed : forall t response, t ∈ c.tasks -> t.call.key = some key ->
    t.prog = .ret (.replayed response) -> SentWith key response c

/-- A request that has not claimed its key finds a value in it. -/
def Op.FindsKey (s : Store) : Op -> Prop
  | .getIdempotency key => s.idempotency key ≠ none
  | _ => True

/--
Any number of requests, with whatever is done to other data around them. Operations on
idempotency keys do not raise; any other operation may.
-/
def posting (svc : MessageService) (P : Store -> Op -> Prop) :
    Rules CreateMessageCall storage PyExc CreateMessageAnswer Store :=
  { machine := storageMachine
    program := CreateMessageCall.program svc ⟨true⟩
    permits := onNext P
    mayFail := Op.LeavesKeys
    mayStart := fun _ _ => True
    mayStop := fun _ => False
    moves := fun s t => t.idempotency = s.idempotency }

/-!
# The value of the key
-/

/-- What the value of the key says about a request with the key. -/
def HeldAs (value : Option IdempotencyValue) : Py CreateMessageAnswer -> Prop
  | .op (.claimIdempotency _) _ => True
  | .op (.getIdempotency _) _ => True
  | .op _ _ => value = some .processing
  | .ret (.accepted msg) =>
      exists response, MessagesApi.responseData msg = some response ∧
        value = some (.saved response)
  | .ret (.replayed response) => value = some (.saved response)
  | .raise _ => True

section Proof

variable {key : Text}

theorem heldAs_op {o : Op} {next : Option o.Res -> Py CreateMessageAnswer}
    {value : Option IdempotencyValue} (ho : o.LeavesKeys) :
    HeldAs value (.op o next) <-> value = some .processing := by
  cases o <;> first | exact Iff.rfl | cases ho

theorem heldAs_sending {p : Py CreateMessageAnswer} (h : Sending (some key) p) :
    HeldAs (some .processing) p := by
  cases sendStage_of_sending h with
  | working o next ho _ => exact (heldAs_op ho).mpr rfl
  | saving k msg response next _ _ _ => rfl
  | releasing k e next _ _ => rfl
  | unkeyed msg hkey => cases hkey
  | failed e => trivial

theorem value_of_occupies {t : PostTask} {value : Option IdempotencyValue}
    (hheld : HeldAs value t.prog) (hoccupies : Occupies key t) : value ≠ none := by
  rcases t with ⟨call, p⟩
  rcases hoccupies with ⟨_, hoccupies⟩
  intro hnone
  subst hnone
  cases p with
  | op o next =>
      cases o <;> first | (cases hoccupies; done) | cases hheld
  | ret answer =>
      cases answer with
      | accepted msg =>
          rcases hheld with ⟨response, _, hvalue⟩
          cases hvalue
      | replayed response => cases hoccupies
  | raise e => cases hoccupies

theorem heldAs_of_not_occupies {t : PostTask} {value : Option IdempotencyValue}
    (hkey : t.call.key = some key) (hnot : ¬Occupies key t)
    (hreplayed : forall response, t.prog ≠ .ret (.replayed response)) :
    HeldAs value t.prog := by
  rcases t with ⟨call, p⟩
  cases p with
  | op o next =>
      cases o <;> first | trivial | exact absurd ⟨hkey, rfl⟩ hnot
  | ret answer =>
      cases answer with
      | accepted msg => exact absurd ⟨hkey, rfl⟩ hnot
      | replayed response => exact absurd rfl (hreplayed response)
  | raise e => trivial

/-- The saved response of the key is that of a request that has sent. -/
def SavedBySender (key : Text) (c : PostPool) : Prop :=
  forall response, c.store.idempotency key = some (.saved response) ->
    SentWith key response c

/-- Each request is at one of its stages and finds the key as this stage has left it. -/
def PostInvariant (key : Text) (s : Store) (t : PostTask) : Prop :=
  PostStage t.call.key t.prog ∧
    (t.call.key = some key -> HeldAs (s.idempotency key) t.prog)

def NotBoth (key : Text) (p q : PostTask) : Prop :=
  ¬(Occupies key p ∧ Occupies key q)

theorem sentWith_replace {before after : List PostTask} {call : CreateMessageCall}
    {o : Op} {next : Option o.Res -> Py CreateMessageAnswer}
    {p : Py CreateMessageAnswer} {s t : Store} {response : SavedResponse}
    (h : SentWith key response ⟨s, before ++ ⟨call, .op o next⟩ :: after⟩) :
    SentWith key response ⟨t, before ++ ⟨call, p⟩ :: after⟩ := by
  rcases h with ⟨q, msg, hq, hcall, hprog, hresponse⟩
  rcases Pool.mem_replace hq with rfl | hother
  · cases hprog
  · exact ⟨q, msg, Pool.mem_split_of_mem hother, hcall, hprog, hresponse⟩

/-!
# One operation
-/

variable {svc : MessageService}

/-- What one operation of a request makes of the key and of the request itself. -/
theorem postInvariant_next {call : CreateMessageCall} {o : Op}
    {next : Option o.Res -> Py CreateMessageAnswer} {s : Store}
    (h : PostInvariant key s ⟨call, .op o next⟩) (hfinds : o.FindsKey s) :
    PostInvariant key (o.exec s).2 ⟨call, next (some (o.exec s).1)⟩ := by
  rcases h with ⟨hstage, hheld⟩
  cases hstage with
  | unclaimed k next hk hclaims =>
      cases hvalue : s.idempotency k with
      | none =>
          have hanswer : ((Op.claimIdempotency k).exec s).1 = true := by
            show (s.idempotency k).isNone = true
            rw [hvalue]
            rfl
          rw [hanswer]
          refine ⟨PostStage.sending _ (hk ▸ hclaims.acquired), ?_⟩
          intro hkey
          cases hk.symm.trans hkey
          have hstored : ((Op.claimIdempotency key).exec s).2.idempotency key =
              some .processing := by
            show Function.update s.idempotency key _ key = _
            rw [Function.update_self, hvalue]
            rfl
          rw [hstored]
          exact heldAs_sending hclaims.acquired
      | some value =>
          have hanswer : ((Op.claimIdempotency k).exec s).1 = false := by
            show (s.idempotency k).isNone = false
            rw [hvalue]
            rfl
          rw [hanswer]
          rcases hclaims.taken with ⟨look, hlook, hlooks⟩
          rw [hlook]
          refine ⟨PostStage.looking k look hk hlooks, ?_⟩
          intro _
          trivial
  | looking k next hk hlooks =>
      show PostInvariant key s ⟨call, next (some (s.idempotency k))⟩
      cases hvalue : s.idempotency k with
      | none => exact absurd hvalue hfinds
      | some value =>
          cases value with
          | processing =>
              rw [hlooks.processing]
              exact ⟨PostStage.failed _, fun _ => trivial⟩
          | saved response =>
              rw [hlooks.saved response]
              refine ⟨PostStage.replayed response, ?_⟩
              intro hkey
              cases hk.symm.trans hkey
              exact hvalue
  | sending _ hsending =>
      cases sendStage_of_sending hsending with
      | working o next ho hnext =>
          refine ⟨PostStage.sending _ (hnext _), ?_⟩
          intro hkey
          have hvalue := (heldAs_op ho).mp (hheld hkey)
          have hne : o.idempotencyKey ≠ some key := by
            rw [ho]
            simp
          rw [idempotency_exec hne, hvalue]
          have hnext' := hnext (some (o.exec s).1)
          change call.key = some key at hkey
          rw [hkey] at hnext'
          exact heldAs_sending hnext'
      | saving k msg response next hk hresponse hnext =>
          rw [hnext]
          refine ⟨PostStage.accepted msg, ?_⟩
          intro hkey
          cases hk.symm.trans hkey
          refine ⟨response, hresponse, ?_⟩
          exact Function.update_self key _ _
      | releasing k e next hk hnext =>
          rw [hnext]
          exact ⟨PostStage.failed e, fun _ => trivial⟩

theorem postInvariant_fault {call : CreateMessageCall} {o : Op}
    {next : Option o.Res -> Py CreateMessageAnswer} {s : Store}
    (h : PostInvariant key s ⟨call, .op o next⟩) (ho : o.LeavesKeys) :
    PostInvariant key s ⟨call, next none⟩ := by
  rcases h with ⟨hstage, hheld⟩
  cases hstage with
  | unclaimed k next hk hclaims => cases ho
  | looking k next hk hlooks => cases ho
  | sending _ hsending =>
      cases sendStage_of_sending hsending with
      | working o next _ hnext =>
          refine ⟨PostStage.sending _ (hnext none), ?_⟩
          intro hkey
          rw [(heldAs_op ho).mp (hheld hkey)]
          have hnext' := hnext none
          change call.key = some key at hkey
          rw [hkey] at hnext'
          exact heldAs_sending hnext'
      | saving k msg response next hk hresponse hnext => cases ho
      | releasing k e next hk hnext => cases ho

theorem postInvariant_other {call : CreateMessageCall} {o : Op}
    {next : Option o.Res -> Py CreateMessageAnswer} {s : Store} {q : PostTask}
    (h : PostInvariant key s ⟨call, .op o next⟩) (hq : PostInvariant key s q)
    (hapart : NotBoth key ⟨call, .op o next⟩ q) :
    PostInvariant key (o.exec s).2 q := by
  refine ⟨hq.left, ?_⟩
  intro hqkey
  have hqheld := hq.right hqkey
  by_cases htarget : o.idempotencyKey = some key
  · rcases h with ⟨hstage, hheld⟩
    -- the value stays what it is unless the key is claimed, saved or removed
    cases hstage with
    | unclaimed k next hk _ =>
        cases htarget
        have hstored : ((Op.claimIdempotency key).exec s).2.idempotency key =
            some ((s.idempotency key).getD .processing) :=
          Function.update_self key _ _
        rw [hstored]
        cases hvalue : s.idempotency key with
        | some value =>
            rw [hvalue] at hqheld
            exact hqheld
        | none =>
            rw [hvalue] at hqheld
            apply heldAs_of_not_occupies hqkey
            · intro hoccupies
              exact value_of_occupies hqheld hoccupies rfl
            · intro response hprog
              rw [hprog] at hqheld
              cases hqheld
    | looking k next hk _ => exact hqheld
    | sending _ hsending =>
        cases sendStage_of_sending hsending with
        | working o next ho _ =>
            rw [ho] at htarget
            cases htarget
        | saving k msg response next hk _ _ =>
            cases htarget
            have hholds := hheld hk
            apply heldAs_of_not_occupies hqkey
            · exact fun hoccupies => hapart ⟨⟨hk, rfl⟩, hoccupies⟩
            · intro response' hprog
              rw [hprog] at hqheld
              cases hholds.symm.trans hqheld
        | releasing k e next hk _ =>
            cases htarget
            have hholds := hheld hk
            apply heldAs_of_not_occupies hqkey
            · exact fun hoccupies => hapart ⟨⟨hk, rfl⟩, hoccupies⟩
            · intro response' hprog
              rw [hprog] at hqheld
              cases hholds.symm.trans hqheld
  · rw [idempotency_exec htarget]
    exact hqheld

theorem occupies_of_leavesKeys {call : CreateMessageCall} {o : Op}
    {next : Option o.Res -> Py CreateMessageAnswer} (hkey : call.key = some key)
    (ho : o.LeavesKeys) : Occupies key ⟨call, .op o next⟩ := by
  refine ⟨hkey, ?_⟩
  cases o <;> first | rfl | cases ho

/-- A request comes to occupy a key only by claiming it while it is free. -/
theorem occupies_next {call : CreateMessageCall} {o : Op}
    {next : Option o.Res -> Py CreateMessageAnswer} {s : Store}
    (h : PostInvariant key s ⟨call, .op o next⟩) (hfinds : o.FindsKey s)
    (hoccupies : Occupies key ⟨call, next (some (o.exec s).1)⟩) :
    Occupies key ⟨call, .op o next⟩ ∨ s.idempotency key = none := by
  rcases h with ⟨hstage, hheld⟩
  have hkey : call.key = some key := hoccupies.left
  cases hstage with
  | unclaimed k next hk hclaims =>
      cases hk.symm.trans hkey
      apply Or.inr
      by_contra hne
      have hanswer : ((Op.claimIdempotency key).exec s).1 = false := by
        show (s.idempotency key).isNone = false
        rw [Option.isNone_eq_false_iff, Option.isSome_iff_ne_none]
        exact hne
      rcases hclaims.taken with ⟨look, hlook, _⟩
      rw [hanswer, hlook] at hoccupies
      cases hoccupies.right
  | looking k next hk hlooks =>
      cases hk.symm.trans hkey
      change Occupies key ⟨call, next (some (s.idempotency key))⟩ at hoccupies
      cases hvalue : s.idempotency key with
      | none => exact absurd hvalue hfinds
      | some value =>
          rw [hvalue] at hoccupies
          cases value with
          | processing =>
              rw [hlooks.processing] at hoccupies
              cases hoccupies.right
          | saved response =>
              rw [hlooks.saved response] at hoccupies
              cases hoccupies.right
  | sending _ hsending =>
      cases sendStage_of_sending hsending with
      | working o next ho _ => exact Or.inl (occupies_of_leavesKeys hkey ho)
      | saving k msg response next _ _ _ => exact Or.inl ⟨hkey, rfl⟩
      | releasing k e next _ _ => exact Or.inl ⟨hkey, rfl⟩

theorem start_outside (svc : MessageService) {call : CreateMessageCall}
    (hkey : call.key = some key) :
    (forall value, HeldAs value (call.program svc ⟨true⟩)) ∧
      ¬Occupies key ⟨call, call.program svc ⟨true⟩⟩ := by
  rcases program_of_key svc hkey with hrefused | ⟨next, hclaim, _⟩
  · rw [hrefused]
    refine ⟨fun _ => trivial, ?_⟩
    intro hoccupies
    cases hoccupies.right
  · rw [hclaim]
    refine ⟨fun _ => trivial, ?_⟩
    intro hoccupies
    cases hoccupies.right

/-!
# All interleavings
-/

theorem postProof (svc : MessageService) (key : Text) :
    Pool.LocalProof (posting svc (fun s o => o.FindsKey s)) (SavedBySender key)
      (PostInvariant key) (NotBoth key) := by
  constructor
  case symm =>
    intro p q h hboth
    exact h ⟨hboth.right, hboth.left⟩
  case own =>
    intro before after call o next s h hfinds
    have hinvariant : PostInvariant key s ⟨call, .op o next⟩ := h.each _ (by simp)
    refine ⟨?_, postInvariant_next hinvariant hfinds⟩
    intro response hsaved
    by_cases htarget : o.idempotencyKey = some key
    · rcases hinvariant with ⟨hstage, _⟩
      cases hstage with
      | unclaimed k next hk _ =>
          cases htarget
          have hstored := (Function.update_self key _ _).symm.trans hsaved
          cases hvalue : s.idempotency key with
          | none =>
              rw [hvalue] at hstored
              cases hstored
          | some value =>
              rw [hvalue] at hstored
              cases hstored
              exact sentWith_replace (h.shared response hvalue)
      | looking k next hk _ => exact sentWith_replace (h.shared response hsaved)
      | sending _ hsending =>
          cases sendStage_of_sending hsending with
          | working o next ho _ =>
              rw [ho] at htarget
              cases htarget
          | saving k msg response' next hk hresponse hnext =>
              cases htarget
              cases (Function.update_self key _ _).symm.trans hsaved
              exact ⟨⟨call, next (some ())⟩, msg, by simp, hk, hnext _, hresponse⟩
          | releasing k e next hk _ =>
              cases htarget
              cases (Function.update_self key _ _).symm.trans hsaved
    · exact sentWith_replace (h.shared response ((idempotency_exec htarget s).symm.trans hsaved))
  case ownFault =>
    intro before after call o next s h ho
    refine ⟨?_, postInvariant_fault (h.each _ (by simp)) ho⟩
    intro response hsaved
    exact sentWith_replace (h.shared response hsaved)
  case stable =>
    intro c call o next q h hmem _ hq hapart
    exact postInvariant_other (h.each _ hmem) (h.each q hq) hapart
  case apartNext =>
    intro c call o next q h hmem hfinds hq hapart hboth
    cases occupies_next (h.each _ hmem) hfinds hboth.left with
    | inl hoccupied => exact hapart ⟨hoccupied, hboth.right⟩
    | inr hfree =>
        have hheld := (h.each q hq).right hboth.right.left
        exact value_of_occupies hheld hboth.right hfree
  case apartFault =>
    intro c call o next q h hmem ho hq hapart hboth
    exact hapart ⟨occupies_of_leavesKeys hboth.left.left ho, hboth.right⟩
  case stopped =>
    intro before after call o next s _ hstop _
    exact hstop.elim
  case started =>
    intro c call h _
    refine ⟨?_, ⟨postStage_start svc call, ?_⟩, ?_⟩
    · intro response hsaved
      rcases h.shared response hsaved with ⟨t, msg, ht, hcall, hprog, hresponse⟩
      exact ⟨t, msg, List.mem_append_left _ ht, hcall, hprog, hresponse⟩
    · intro hkey
      exact (start_outside svc hkey).left _
    · intro q _ hboth
      exact (start_outside svc hboth.right.left).right hboth.right
  case moved =>
    intro tasks s t h hmoves
    change t.idempotency = s.idempotency at hmoves
    refine ⟨?_, ?_⟩
    · intro response hsaved
      exact h.shared response ((congrFun hmoves key).symm.trans hsaved)
    · intro q hq
      have hinvariant := h.each q hq
      refine ⟨hinvariant.left, ?_⟩
      rw [hmoves]
      exact hinvariant.right

/--
With requests that find a value in a taken key, at most one request of the key is at
work or has sent, and the others get 409 or its response.
-/
theorem one_send {s : Store} {c : PostPool} (hkey : s.idempotency key = none)
    (hreach : Pool.Reaches (posting svc (fun s o => o.FindsKey s)) (startingFrom s) c) :
    OneSend key c := by
  have hinit : Pool.Holds (SavedBySender key) (PostInvariant key) (NotBoth key)
      (startingFrom s) := by
    refine ⟨?_, ?_, List.Pairwise.nil⟩
    · intro response hsaved
      cases hkey.symm.trans hsaved
    · intro t ht
      cases ht
  have hholds := Pool.holds_reaches (postProof svc key) hreach hinit
  constructor
  · exact hholds.apart
  · intro t k next ht hcall hprog value hvalue
    have hstage := (hholds.each t ht).left
    rw [hprog] at hstage
    cases hstage with
    | looking _ _ hk hlooks =>
        cases value with
        | processing => exact Or.inl hlooks.processing
        | saved response =>
            exact Or.inr ⟨response, hholds.shared response hvalue, hlooks.saved response⟩
    | sending _ hsending =>
        cases sendStage_of_sending hsending with
        | working _ _ ho _ => cases ho
  · intro t response ht hcall hprog
    have hheld := (hholds.each t ht).right hcall
    rw [hprog] at hheld
    exact hholds.shared response hheld

end Proof

def postAt (ms : BitVec 48) (content : Text) : CreateMessageCall :=
  { reads := .at ms
    clock := .at ms
    conversationId := .ofInt 1
    payload := ⟨content, none, none, false, none⟩
    xIdempotencyKey := some (UUID.ofInt 9).toText
    conv := ⟨.ofInt 1, some (.ofInt 2), none, none, none, .active, none, none⟩ }

/-- A request that claims the key, and one that finds it taken while the first sends. -/
def refusedActs : List (Pool.Act CreateMessageCall) :=
  [ .start (postAt 1000 (text "A")), .perform 0, .perform 0,
    .start (postAt 1001 (text "A")), .perform 1, .perform 1 ]

theorem one_send_refused :
    OneSend (UUID.ofInt 9).toText
      (refusedActs.foldl
        (Pool.play (posting Deployment.single.api (fun s o => o.FindsKey s)))
        (startingFrom Store.blank)) := by
  refine one_send rfl (Pool.reaches_schedule ?_)
  refine ⟨trivial, ?_, ?_, trivial, ?_, ?_, trivial⟩
  all_goals
    intro t ht
    cases ht
    first | trivial | exact fun hnone => nomatch hnone

/-- A request up to the write of its placeholder, and one that finds the key taken. -/
def takenActs : List (Pool.Act CreateMessageCall) :=
  [.start (postAt 1000 (text "A"))] ++ List.replicate 6 (.perform 0) ++
    [.start (postAt 1001 (text "A")), .perform 1]

/--
The first request removes its lock before the second one has looked, and the second one
sends. A third one claims the key and sends as well.
-/
def vanishedActs : List (Pool.Act CreateMessageCall) :=
  [.perform 0, .perform 1, .start (postAt 1002 (text "A")), .perform 2] ++
    List.replicate 11 (.perform 1) ++ List.replicate 11 (.perform 2)

theorem allowsAll_posting {svc : MessageService} (acts : List (Pool.Act CreateMessageCall))
    (h : forall act, act ∈ acts -> (exists i, act = .perform i) ∨
      exists call, act = .start call) (c : PostPool) :
    Pool.AllowsAll (posting svc (fun _ _ => True)) c acts := by
  apply Pool.allowsAll_of_forall
  intro act hact d
  rcases h act hact with ⟨i, rfl⟩ | ⟨call, rfl⟩
  · intro t _
    unfold posting onNext
    dsimp only
    split <;> trivial
  · trivial

/-- The write of the placeholder raises, and the lock is removed. -/
theorem vanished_lock_two_sends :
    ¬forall (svc : MessageService) (key : Text) (s : Store) (c : PostPool),
      s.idempotency key = none ->
      Pool.Reaches (posting svc (fun _ _ => True)) (startingFrom s) c ->
      OneSend key c := by
  intro h
  let rules := posting Deployment.single.api (fun _ _ => True)
  have hreach : Pool.Reaches rules (startingFrom Store.blank)
      ((takenActs ++ .fault 0 :: vanishedActs).foldl (Pool.play rules)
        (startingFrom Store.blank)) := by
    apply Pool.reaches_schedule
    apply Pool.allowsAll_append (allowsAll_posting _ (by simp [takenActs]) _)
    refine ⟨?_, allowsAll_posting _ (by simp [vanishedActs]) _⟩
    intro call o next hnext
    cases hnext
    rfl
  have halone := (h _ (UUID.ofInt 9).toText _ _ rfl hreach).alone
  exact absurd halone (by decide)

end ConversationService
