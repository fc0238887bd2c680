import ConversationService.Effects.PostAnswers

/-!
# Whose response a key replays

The keys of all users and conversations share one name space. A replayed response is
that of a request with the same key, so it belongs to the same user and conversation as
long as requests of different users or conversations keep to different keys.
-/

namespace ConversationService

open Python Programs

abbrev RouteTask := Task PostMessageCall storage PyExc CreateMessageAnswer

abbrev RoutePool := Pool PostMessageCall storage PyExc CreateMessageAnswer Store

/-- The two requests come from one user and go to one conversation. -/
def SameScope (a b : PostMessageCall) : Prop :=
  a.currentUser = b.currentUser ∧ a.conversationId = b.conversationId

/-- A request with this key has sent its message, and this is its response. -/
def Sent (key : Text) (response : SavedResponse) (t : RouteTask) : Prop :=
  t.call.key = some key ∧
    exists msg, t.prog = .ret (.accepted msg) ∧
      MessagesApi.responseData msg = some response

/--
Every replayed response is that of a message which the same user has sent to the same
conversation.
-/
def ReplaysOwn (c : RoutePool) : Prop :=
  forall t response, t ∈ c.tasks -> t.prog = .ret (.replayed response) ->
    exists sender msg, sender ∈ c.tasks ∧ SameScope t.call sender.call ∧
      sender.prog = .ret (.accepted msg) ∧ MessagesApi.responseData msg = some response ∧
      response.conversationId = t.call.conversationId ∧
      response.messageId = uuidv7 sender.call.clock

/-- The request is being served, or its message has been sent. -/
def InUse (t : RouteTask) : Prop :=
  t.prog.Running ∨ exists msg, t.prog = .ret (.accepted msg)

/-- No request in use that carries the same key is of another user or conversation. -/
def KeyIsOwn (c : RoutePool) (call : PostMessageCall) : Prop :=
  forall t, t ∈ c.tasks -> InUse t -> t.call.key = call.key -> call.key ≠ none ->
    SameScope t.call call

/--
Any number of requests, where operations may raise, processes may stop, keys may expire
and anything may be done to other data.
-/
def routing (conversations : Option CacheService) (svc : MessageService)
    (mayStart : RoutePool -> PostMessageCall -> Prop) :
    Rules PostMessageCall storage PyExc CreateMessageAnswer Store :=
  { machine := storageMachine
    program := PostMessageCall.program conversations svc ⟨true⟩
    permits := fun _ _ => True
    mayFail := anyFault
    mayStart := mayStart
    mayStop := fun _ => True
    moves := fun s t =>
      forall key, t.idempotency key = s.idempotency key ∨ t.idempotency key = none }

/-!
# All interleavings
-/

/-- Every saved response has a sender, and every replayed one has one of its scope. -/
structure Traced (c : RoutePool) : Prop where
  saved : forall key response, c.store.idempotency key = some (.saved response) ->
    exists t, t ∈ c.tasks ∧ Sent key response t
  replayed : forall t response, t ∈ c.tasks -> t.prog = .ret (.replayed response) ->
    exists sender key, sender ∈ c.tasks ∧ SameScope t.call sender.call ∧
      Sent key response sender

/-- Each request is at one of its stages and can only answer with its own message. -/
def RouteInvariant (_ : Store) (t : RouteTask) : Prop :=
  RouteStage t.call.key t.prog ∧ Prog.Returns (AcceptsOwn t.call) t.prog

/-- Two requests in use that carry one key have one scope. -/
def ShareScope (p q : RouteTask) : Prop :=
  InUse p -> InUse q -> p.call.key = q.call.key -> q.call.key ≠ none ->
    SameScope p.call q.call

theorem shareScope_symm {p q : RouteTask} (h : ShareScope p q) : ShareScope q p := by
  intro hq hp hkey hne
  have hscope := h hp hq hkey.symm (hkey ▸ hne)
  exact ⟨hscope.left.symm, hscope.right.symm⟩

section Proof

variable {call : PostMessageCall} {o : Op}
  {next : Option o.Res -> Py CreateMessageAnswer} {before after : List RouteTask}

theorem sent_mem_split {key : Text} {response : SavedResponse} {t : RouteTask}
    (ht : t ∈ before ++ ⟨call, .op o next⟩ :: after) (hsent : Sent key response t) :
    t ∈ before ++ after := by
  rcases Pool.mem_replace ht with rfl | hother
  · rcases hsent.right with ⟨msg, hprog, _⟩
    cases hprog
  · exact hother

theorem traced_step {s t : Store} {p : Py CreateMessageAnswer}
    (h : Traced ⟨s, before ++ ⟨call, .op o next⟩ :: after⟩)
    (hsaved : forall key response, t.idempotency key = some (.saved response) ->
      s.idempotency key = some (.saved response) ∨ Sent key response ⟨call, p⟩)
    (hreplayed : forall response, p = .ret (.replayed response) ->
      exists sender key, sender ∈ before ++ after ∧ SameScope call sender.call ∧
        Sent key response sender) :
    Traced ⟨t, before ++ ⟨call, p⟩ :: after⟩ := by
  constructor
  · intro key response hvalue
    rcases hsaved key response hvalue with hbefore | hsent
    · rcases h.saved key response hbefore with ⟨q, hq, hsent⟩
      exact ⟨q, Pool.mem_split_of_mem (sent_mem_split hq hsent), hsent⟩
    · exact ⟨⟨call, p⟩, by simp, hsent⟩
  · intro q response hq hprog
    rcases Pool.mem_replace hq with rfl | hother
    · rcases hreplayed response hprog with ⟨sender, key, hsender, hscope, hsent⟩
      exact ⟨sender, key, Pool.mem_split_of_mem hsender, hscope, hsent⟩
    · rcases h.replayed q response (Pool.mem_split_of_mem hother) hprog with
        ⟨sender, key, hsender, hscope, hsent⟩
      exact ⟨sender, key, Pool.mem_split_of_mem (sent_mem_split hsender hsent), hscope,
        hsent⟩

theorem inUse_op : InUse ⟨call, .op o next⟩ := Or.inl trivial

theorem routeProof (conversations : Option CacheService) (svc : MessageService) :
    Pool.LocalProof (routing conversations svc KeyIsOwn) Traced RouteInvariant
      ShareScope := by
  constructor
  case symm =>
    intro p q h
    exact shareScope_symm h
  case own =>
    intro before after call o next s h _
    have hinvariant : RouteInvariant s ⟨call, .op o next⟩ := h.each _ (by simp)
    refine ⟨traced_step h.shared ?_ ?_, routeStage_next hinvariant.left _,
      hinvariant.right _⟩
    · intro key response hvalue
      rcases routeStage_op hinvariant.left with hstage | ⟨ho, _⟩
      · rcases sent_of_saved hstage hvalue with hbefore | ⟨hkey, msg, hresponse, hnext⟩
        · exact Or.inl hbefore
        · exact Or.inr ⟨hkey, msg, hnext, hresponse⟩
      · have hne : o.idempotencyKey ≠ some key := by
          rw [ho]
          simp
        exact Or.inl ((idempotency_exec hne s).symm.trans hvalue)
    · intro response hprog
      rcases routeStage_op hinvariant.left with hstage | ⟨_, hnext⟩
      · rcases read_of_replayed hstage hprog with ⟨key, hkey, hvalue⟩
        rcases h.shared.saved key response hvalue with ⟨sender, hsender, hsent⟩
        have hother := sent_mem_split hsender hsent
        have hapart := Pool.apart_of_mem (fun _ _ => shareScope_symm) h.apart hother
        rcases hsent with ⟨hsenderKey, msg, hsenderProg, hresponse⟩
        refine ⟨sender, key, hother, ?_, hsenderKey, msg, hsenderProg, hresponse⟩
        apply hapart inUse_op (Or.inr ⟨msg, hsenderProg⟩)
        · exact hkey.trans hsenderKey.symm
        · rw [hsenderKey]
          simp
      · exact absurd hprog ((hnext _).right response)
  case ownFault =>
    intro before after call o next s h _
    have hinvariant : RouteInvariant s ⟨call, .op o next⟩ := h.each _ (by simp)
    refine ⟨traced_step h.shared (fun _ _ hvalue => Or.inl hvalue) ?_,
      routeStage_next hinvariant.left _, hinvariant.right _⟩
    intro response hprog
    rcases routeStage_op hinvariant.left with hstage | ⟨_, hnext⟩
    · exact absurd hprog (not_replayed_of_raised hstage)
    · exact absurd hprog ((hnext _).right response)
  case stable =>
    intro c call o next q h _ _ hq _
    exact h.each q hq
  case apartNext =>
    intro c call o next q _ _ _ _ hapart _ hq hkey hne
    exact hapart inUse_op hq hkey hne
  case apartFault =>
    intro c call o next q _ _ _ _ hapart _ hq hkey hne
    exact hapart inUse_op hq hkey hne
  case stopped =>
    intro before after call o next s h _ _
    constructor
    · intro key response hvalue
      rcases h.shared.saved key response hvalue with ⟨q, hq, hsent⟩
      exact ⟨q, sent_mem_split hq hsent, hsent⟩
    · intro q response hq hprog
      rcases h.shared.replayed q response (Pool.mem_split_of_mem hq) hprog with
        ⟨sender, key, hsender, hscope, hsent⟩
      exact ⟨sender, key, sent_mem_split hsender hsent, hscope, hsent⟩
  case started =>
    intro c call h hstart
    have hstage := routeStage_start conversations svc call
    refine ⟨⟨?_, ?_⟩, ⟨hstage, returns_postMessage conversations svc call⟩, ?_⟩
    · intro key response hvalue
      rcases h.shared.saved key response hvalue with ⟨q, hq, hsent⟩
      exact ⟨q, List.mem_append_left _ hq, hsent⟩
    · intro q response hq hprog
      rcases List.mem_append.mp hq with hold | hnew
      · rcases h.shared.replayed q response hold hprog with
          ⟨sender, key, hsender, hscope, hsent⟩
        exact ⟨sender, key, List.mem_append_left _ hsender, hscope, hsent⟩
      · rw [List.mem_singleton.mp hnew] at hprog
        exact absurd hprog (route_ne_replayed conversations svc call response)
    · intro q hq hinUse _ hkey hne
      exact hstart q hq hinUse hkey hne
  case moved =>
    intro tasks s t h hmoves
    refine ⟨⟨?_, h.shared.replayed⟩, h.each⟩
    intro key response hvalue
    rcases hmoves key with hsame | hexpired
    · exact h.shared.saved key response (hsame.symm.trans hvalue)
    · cases hexpired.symm.trans hvalue

end Proof

theorem replays_own (conversations : Option CacheService) (svc : MessageService)
    {s : Store} {c : RoutePool}
    (hfresh : forall key response, s.idempotency key ≠ some (.saved response))
    (hreach : Pool.Reaches (routing conversations svc KeyIsOwn) (startingFrom s) c) :
    ReplaysOwn c := by
  have hinit : Pool.Holds Traced RouteInvariant ShareScope
      (startingFrom s : RoutePool) := by
    refine ⟨⟨?_, ?_⟩, ?_, List.Pairwise.nil⟩
    · intro key response hvalue
      exact absurd hvalue (hfresh key response)
    · intro t response ht
      cases ht
    · intro t ht
      cases ht
  have hholds := Pool.holds_reaches (routeProof conversations svc) hreach hinit
  intro t response ht hprog
  rcases hholds.shared.replayed t response ht hprog with
    ⟨sender, key, hsender, hscope, _, msg, hsenderProg, hresponse⟩
  have hreturns := (hholds.each sender hsender).right
  rw [hsenderProg] at hreturns
  rcases hreturns with ⟨hconversation, hmessage, _, _⟩
  rcases Option.map_eq_some_iff.mp hresponse with ⟨createdAt, _, rfl⟩
  refine ⟨sender, msg, hsender, hscope, hsenderProg, hresponse, ?_, hmessage⟩
  exact hconversation.trans hscope.right.symm

/-!
# Two histories

Requests are served one after the other. What one user is answered in one conversation
depends on that user's requests there only.
-/

def InScope (user c : UUID) (call : PostMessageCall) : Prop :=
  call.currentUser = user ∧ call.conversationId = c

instance (user c : UUID) (call : PostMessageCall) : Decidable (InScope user c call) :=
  inferInstanceAs (Decidable (_ ∧ _))

/-- The answers to the requests of one scope in a history. -/
def answersIn (conversations : Option CacheService) (svc : MessageService)
    (user c : UUID) : Store -> List PostMessageCall -> List (Except PyExc CreateMessageAnswer)
  | _, [] => []
  | s, call :: rest =>
      let served := serve conversations svc s call
      if InScope user c call then
        served.1 :: answersIn conversations svc user c served.2 rest
      else answersIn conversations svc user c served.2 rest

/-- No request outside the scope carries the key of a request in the scope. -/
def KeysOwn (user c : UUID) (history : List PostMessageCall) : Prop :=
  forall own other, own ∈ history -> other ∈ history -> InScope user c own ->
    ¬InScope user c other -> own.key ≠ none -> other.key ≠ own.key

/-- Two stores that answer alike to requests with these keys. -/
structure SameFor (conversations : Option CacheService) (keys : Text -> Prop)
    (s t : Store) : Prop extends SameAccess conversations s t where
  values : forall key, keys key -> t.idempotency key = s.idempotency key

section Histories

variable {conversations : Option CacheService} {svc : MessageService} {user c : UUID}
  {keys : Text -> Prop}

theorem postAnswer_congr {s t : Store} {call : PostMessageCall}
    (h : SameFor conversations keys s t)
    (hkey : forall key, call.key = some key -> keys key) :
    postAnswer conversations svc s call = postAnswer conversations svc t call := by
  unfold postAnswer
  dsimp only
  rw [h.found]
  split
  · rfl
  · rfl
  · rename_i conv _
    split
    · rw [resolvedFor_congr _ _ h.toSamePreferences]
      unfold handledWith
      split
      · rfl
      · rename_i key heq
        rw [h.values key (hkey key heq)]
    · rfl

/-- A request outside the scope leaves what the requests of the scope depend on. -/
theorem sameFor_other (svc : MessageService) {s t : Store} {call : PostMessageCall}
    (h : SameFor conversations keys s t)
    (hkey : forall key, keys key -> call.key ≠ some key) :
    SameFor conversations keys (serve conversations svc s call).2 t := by
  have hserved := served conversations svc s call
  refine ⟨⟨⟨?_, ?_⟩, ?_⟩, ?_⟩
  · exact h.preferences.trans hserved.access.preferences.symm
  · exact h.customModes.trans hserved.access.customModes.symm
  · intro c'
    exact (h.found c').trans (hserved.access.found c').symm
  · intro key hmem
    exact (h.values key hmem).trans (hserved.others key (hkey key hmem)).symm

/-- A request of the scope is answered alike in both stores and changes them alike. -/
theorem sameFor_own (svc : MessageService) {s t : Store} {call : PostMessageCall}
    (h : SameFor conversations keys s t)
    (hkey : forall key, call.key = some key -> keys key) :
    (serve conversations svc s call).1 = (serve conversations svc t call).1 ∧
      SameFor conversations keys (serve conversations svc s call).2
        (serve conversations svc t call).2 := by
  have hserved := served conversations svc s call
  have hserved' := served conversations svc t call
  have hanswer : (serve conversations svc s call).1 = (serve conversations svc t call).1 := by
    rw [hserved.answer, hserved'.answer]
    exact postAnswer_congr h hkey
  refine ⟨hanswer, ⟨⟨?_, ?_⟩, ?_⟩, ?_⟩
  · rw [hserved.access.preferences, hserved'.access.preferences, h.preferences]
  · rw [hserved.access.customModes, hserved'.access.customModes, h.customModes]
  · intro c'
    rw [hserved.access.found, hserved'.access.found, h.found]
  · intro key hmem
    by_cases hcarried : call.key = some key
    · rw [hserved.key key hcarried, hserved'.key key hcarried, hanswer,
        h.values key hmem]
    · rw [hserved.others key hcarried, hserved'.others key hcarried, h.values key hmem]

theorem answersIn_filter (svc : MessageService) (keys : Text -> Prop)
    {history : List PostMessageCall} {s t : Store}
    (h : SameFor conversations keys s t)
    (hown : forall call key, call ∈ history -> InScope user c call ->
      call.key = some key -> keys key)
    (hother : forall call key, call ∈ history -> ¬InScope user c call -> keys key ->
      call.key ≠ some key) :
    answersIn conversations svc user c s history =
      answersIn conversations svc user c t
        (history.filter (fun call => InScope user c call)) := by
  induction history generalizing s t with
  | nil => rfl
  | cons call rest ih =>
      have hown' : forall call' key, call' ∈ rest -> InScope user c call' ->
          call'.key = some key -> keys key :=
        fun call' key hmem => hown call' key (List.mem_cons_of_mem _ hmem)
      have hother' : forall call' key, call' ∈ rest -> ¬InScope user c call' -> keys key ->
          call'.key ≠ some key :=
        fun call' key hmem => hother call' key (List.mem_cons_of_mem _ hmem)
      by_cases hscope : InScope user c call
      · have hstep := sameFor_own svc h
          (fun key hkey => hown call key (by simp) hscope hkey)
        rw [List.filter_cons_of_pos (by simpa using hscope)]
        unfold answersIn
        dsimp only
        rw [if_pos hscope, if_pos hscope, hstep.left, ih hstep.right hown' hother']
      · have hstep := sameFor_other svc h
          (fun key hmem => hother call key (by simp) hscope hmem)
        rw [List.filter_cons_of_neg (by simpa using hscope)]
        conv => lhs; unfold answersIn
        dsimp only
        rw [if_neg hscope, ih hstep hown' hother']

/-- The keys of the requests of the scope. -/
def KeysIn (user c : UUID) (history : List PostMessageCall) (key : Text) : Prop :=
  exists call, call ∈ history ∧ InScope user c call ∧ call.key = some key

theorem answersIn_own (conversations : Option CacheService) (svc : MessageService)
    {history : List PostMessageCall} (s : Store) (hkeys : KeysOwn user c history) :
    answersIn conversations svc user c s history =
      answersIn conversations svc user c s
        (history.filter (fun call => InScope user c call)) := by
  apply answersIn_filter svc (KeysIn user c history)
  · exact ⟨⟨⟨rfl, rfl⟩, fun _ => rfl⟩, fun _ _ => rfl⟩
  · intro call key hmem hscope hkey
    exact ⟨call, hmem, hscope, hkey⟩
  · intro call key hmem hscope hown hkey
    rcases hown with ⟨own, hmemOwn, hscopeOwn, hkeyOwn⟩
    refine hkeys own call hmemOwn hmem hscopeOwn hscope ?_ ?_
    · rw [hkeyOwn]
      simp
    · rw [hkey, hkeyOwn]

end Histories

/--
When users and conversations keep to keys of their own, replays stay with their user and
conversation, and what a user is answered does not depend on the others' requests.
-/
theorem own_responses (conversations : Option CacheService) (svc : MessageService) :
    (forall (s : Store) (pool : RoutePool),
      (forall key response, s.idempotency key ≠ some (.saved response)) ->
      Pool.Reaches (routing conversations svc KeyIsOwn) (startingFrom s) pool ->
      ReplaysOwn pool) ∧
    (forall (user c : UUID) (s : Store) (history history' : List PostMessageCall),
      KeysOwn user c history -> KeysOwn user c history' ->
      history.filter (fun call => InScope user c call) =
        history'.filter (fun call => InScope user c call) ->
      answersIn conversations svc user c s history =
        answersIn conversations svc user c s history') := by
  constructor
  · intro s pool hfresh hreach
    exact replays_own conversations svc hfresh hreach
  · intro user c s history history' hkeys hkeys' hsame
    rw [answersIn_own conversations svc s hkeys, answersIn_own conversations svc s hkeys',
      hsame]

/-!
# A key of two users
-/

def twoOwners : Store :=
  { Store.blank with
    conversations := fun c =>
      if c = .ofInt 1 then
        some ⟨some (.ofInt 2), some (text "A"), some ⟨0, false⟩, some ⟨0, false⟩,
          some .active, none, none⟩
      else if c = .ofInt 4 then
        some ⟨some (.ofInt 3), some (text "B"), some ⟨0, false⟩, some ⟨0, false⟩,
          some .active, none, none⟩
      else none }

def routeAt (ms : BitVec 48) (conversationId currentUser : UUID) (content : Text) :
    PostMessageCall :=
  { reads := .at ms
    clock := .at ms
    conversationId := conversationId
    payload := ⟨content, none, none, false, none⟩
    xIdempotencyKey := some (UUID.ofInt 9).toText
    currentUser := currentUser }

def ownPost : PostMessageCall := routeAt 1000 (.ofInt 1) (.ofInt 2) (text "A secret")

def otherPost : PostMessageCall := routeAt 1001 (.ofInt 4) (.ofInt 3) (text "B")

/-- Two requests that are served one after the other. -/
def inTurn (first second : PostMessageCall) : List (Pool.Act PostMessageCall) :=
  .start first :: .start second ::
    (List.replicate 20 (.perform 0) ++ List.replicate 20 (.perform 1))

def replaysForeign (t : RouteTask) : Bool :=
  match t.prog with
  | .ret (.replayed response) => response.conversationId != t.call.conversationId
  | _ => false

theorem not_replaysForeign {pool : RoutePool} (h : ReplaysOwn pool) :
    pool.tasks.any replaysForeign = false := by
  rw [List.any_eq_false]
  intro t ht hforeign
  unfold replaysForeign at hforeign
  split at hforeign
  · rename_i response hprog
    rcases h t response ht hprog with ⟨sender, msg, _, _, _, _, hconversation, _⟩
    rw [hconversation] at hforeign
    simp at hforeign
  · cases hforeign

theorem twoOwners_fresh (key : Text) (response : SavedResponse) :
    twoOwners.idempotency key ≠ some (.saved response) := by
  intro hsaved
  cases hsaved

theorem allowsAll_routing {conversations : Option CacheService} {svc : MessageService}
    {mayStart : RoutePool -> PostMessageCall -> Prop} (n : Nat) (pool : RoutePool) :
    Pool.AllowsAll (routing conversations svc mayStart) pool
      (List.replicate n (.perform 0) ++ List.replicate n (.perform 1)) := by
  apply Pool.allowsAll_of_forall
  intro act hact pool'
  have hperform : exists i, act = .perform i := by
    simp only [List.mem_append, List.mem_replicate] at hact
    rcases hact with ⟨_, rfl⟩ | ⟨_, rfl⟩
    · exact ⟨0, rfl⟩
    · exact ⟨1, rfl⟩
  rcases hperform with ⟨i, rfl⟩
  exact fun _ _ => trivial

/-- A user who repeats a request, and the same history without the other user. -/
theorem own_responses_repeated :
    ReplaysOwn ((inTurn ownPost ownPost).foldl
      (Pool.play (routing (some ⟨true⟩) Deployment.single.api KeyIsOwn))
      (startingFrom twoOwners)) ∧
    answersIn (some ⟨true⟩) Deployment.single.api (.ofInt 2) (.ofInt 1) twoOwners
        [{ otherPost with xIdempotencyKey := none }, ownPost, ownPost] =
      answersIn (some ⟨true⟩) Deployment.single.api (.ofInt 2) (.ofInt 1) twoOwners
        [ownPost, ownPost] := by
  constructor
  · apply (own_responses (some ⟨true⟩) Deployment.single.api).left twoOwners _
      twoOwners_fresh
    apply Pool.reaches_schedule
    refine ⟨?_, ?_, allowsAll_routing 20 _⟩
    · intro t ht
      cases ht
    · intro t ht _ _ _
      rw [List.mem_singleton.mp ht]
      exact ⟨rfl, rfl⟩
  · apply (own_responses (some ⟨true⟩) Deployment.single.api).right (.ofInt 2) (.ofInt 1)
    · intro own other _ hother _ hnot hkey
      rcases List.mem_cons.mp hother with rfl | hrest
      · exact hkey.symm
      · simp only [List.mem_cons, List.not_mem_nil, or_false, or_self] at hrest
        subst hrest
        exact absurd ⟨rfl, rfl⟩ hnot
    · intro own other _ hother _ hnot _
      simp only [List.mem_cons, List.not_mem_nil, or_false, or_self] at hother
      subst hother
      exact absurd ⟨rfl, rfl⟩ hnot
    · rfl

/-- A user is shown the message that another user has sent with the same key. -/
theorem foreign_response_replayed :
    ¬forall (conversations : Option CacheService) (svc : MessageService) (s : Store)
        (pool : RoutePool),
      (forall key response, s.idempotency key ≠ some (.saved response)) ->
      Pool.Reaches (routing conversations svc (fun _ _ => True)) (startingFrom s) pool ->
      ReplaysOwn pool := by
  intro h
  let rules := routing (some ⟨true⟩) Deployment.single.api (fun _ _ => True)
  have hreach : Pool.Reaches rules (startingFrom twoOwners)
      ((inTurn ownPost otherPost).foldl (Pool.play rules) (startingFrom twoOwners)) := by
    apply Pool.reaches_schedule
    exact ⟨trivial, trivial, allowsAll_routing 20 _⟩
  have hforeign := not_replaysForeign (h _ _ _ _ twoOwners_fresh hreach)
  exact absurd hforeign (by decide +kernel)

end ConversationService
