import ConversationService.Effects.CachedLists

/-!
# Transparency of the cached history

The calls of a message service one after the other, while keys of Redis may expire at any
point. The cached list is as long as the page of the request that filled it, whatever limit
that request had, and it is served to requests with other limits. They get what the table
holds exactly when the list reaches as far as their limit does.
-/

namespace ConversationService

open Python ClusteredTable Programs

/-- A call that raises has written no row of a conversation with a cached list. -/
def RaisesClean (s : Store) (result : Except PyExc Unit) (t : Store) : Prop :=
  forall e, result = .error e ->
    forall c, t.messages c = s.messages c ∨ t.historyCache c = none

inductive MessageStep (svc : MessageService)
    (permits : Store -> Except PyExc Unit -> Store -> Prop) : Store -> Store -> Prop where
  | call (call : MessageCall) {s t : Store} (result : Except PyExc Unit) :
      Prog.FinishesAmid oneByOne (call.program svc) s result t -> permits s result t ->
      MessageStep svc permits s t
  | elapse {s t : Store} : Elapsed s t -> MessageStep svc permits s t

def MessageRuns (svc : MessageService)
    (permits : Store -> Except PyExc Unit -> Store -> Prop) : Store -> Store -> Prop :=
  Relation.ReflTransGen (MessageStep svc permits)

def liveCount (s : Store) (c : UUID) (limit : Nat) : Nat :=
  ((s.messages c).rows.take limit).countP (fun entry => entry.2.status ≠ .deleted)

/--
A cached list has as many messages as there are live rows among the newest ones, or it is
long enough and none of the newest rows is deleted.
-/
def Fits (s : Store) (c : UUID) (limit : Nat) : Prop :=
  forall items, s.historyCache c = some items ->
    items.length = liveCount s c limit ∨
      (limit ≤ items.length ∧ liveCount s c limit = limit)

/-!
# Runs
-/

section Runs

variable {svc : MessageService} {s t : Store}

theorem historyCoherent_of_raised {call : MessageCall} {e : PyExc}
    (hclean : RaisesClean s (.error e) t)
    (h : Writing s.messages call.conversationId t) : HistoryCoherent t := by
  refine ⟨h.settled, ?_⟩
  intro c items hitems
  rcases hclean e rfl c with hrows | hnone
  · rw [hrows]
    exact h.lists c items hitems
  · rw [hnone] at hitems
    cases hitems

theorem historyCoherent_call (hcache : svc.cache = some ⟨true⟩) {call : MessageCall}
    {result : Except PyExc Unit} (hclean : RaisesClean s result t)
    (hfin : Prog.FinishesAmid oneByOne (call.program svc) s result t)
    (hs : HistoryCoherent s) : HistoryCoherent t := by
  have hend := Prog.wpAmid_finishes (fun _ => historyCoherent_elapsed)
    (fun _ => writing_elapsed) (wpAmid_call hcache call (reading_self hs)) hfin
  cases result with
  | ok a => exact hend
  | error e => exact historyCoherent_of_raised hclean hend

theorem historyCoherent_runs (hcache : svc.cache = some ⟨true⟩) (hs : HistoryCoherent s)
    (hrun : MessageRuns svc RaisesClean s t) : HistoryCoherent t := by
  induction hrun with
  | refl => exact hs
  | tail _ hstep ih =>
      cases hstep with
      | call call result hfin hclean => exact historyCoherent_call hcache hclean hfin ih
      | elapse helapsed => exact historyCoherent_elapsed _ _ helapsed ih

end Runs

/-!
# Beginnings of different lengths
-/

section Pages

variable {s : Store} {c : UUID} {limit : Nat}

theorem length_historyPage : (historyPage s c limit).length = liveCount s c limit := by
  unfold historyPage liveCount
  rw [List.length_filterMap_eq_countP]
  apply List.countP_congr
  rintro ⟨id, row⟩ _
  unfold MessageRepository.liveMessage
  cases row.status <;> simp [RowStatus.message?]

theorem liveCount_le : liveCount s c limit ≤ limit :=
  List.countP_le_length.trans (List.length_take_le _ _)

/-- The list and the page are beginnings of one list, so their lengths decide. -/
theorem take_eq_historyPage_iff {items : List Message}
    (hbegins : items <+: liveMessages c (s.messages c).rows) :
    items.take limit = historyPage s c limit <->
      items.length = liveCount s c limit ∨
        (limit ≤ items.length ∧ liveCount s c limit = limit) := by
  have hle : liveCount s c limit ≤ limit := liveCount_le
  have hpage : historyPage s c limit <+: liveMessages c (s.messages c).rows :=
    liveMessages_take _ _
  have hshort : items.take limit <+: liveMessages c (s.messages c).rows :=
    (List.take_prefix _ _).trans hbegins
  have hlengths : items.take limit = historyPage s c limit <->
      (items.take limit).length = (historyPage s c limit).length := by
    constructor
    · intro heq
      rw [heq]
    · intro hlength
      exact (List.prefix_of_prefix_length_le hshort hpage (Nat.le_of_eq hlength)).eq_of_length
        hlength
  rw [hlengths, length_historyPage, List.length_take]
  omega

end Pages

/-!
# What requests answer
-/

section Answers

variable {svc : MessageService} {s t : Store} {c : UUID} {limit : Nat}

theorem finishes_cachedList (hcache : svc.cache = some ⟨true⟩) (hs : HistoryCoherent s)
    {items : List Message} (hitems : s.historyCache c = some items) (hlimit : 0 < limit) :
    exists t, Prog.FinishesAmid oneByOne (svc.history c limit none) s
      (.ok (items.take limit)) t := by
  rcases hs.lists c items hitems with ⟨hne, hbegins⟩
  have hrange : ((Op.lrangeHistory c limit).exec s).1 = items.take limit := by
    simp [Op.exec, hitems, Nat.ne_of_gt hlimit]
  have hread : (items.take limit).mapM CacheService.cachedMessage =
      some (items.take limit) := by
    apply mapM_cachedMessage hs.settled
    intro msg hmsg
    exact hbegins.subset (List.mem_of_mem_take hmsg)
  have hserved : svc.servedPage s c limit = some (items.take limit) := by
    unfold MessageService.servedPage
    rw [hcache]
    dsimp only
    rw [hrange, hread]
    have hsome : (items.take limit).isEmpty = false := by
      cases items with
      | nil => exact absurd rfl hne
      | cons msg rest =>
          cases limit with
          | zero => exact absurd hlimit (Nat.lt_irrefl 0)
          | succ n => rfl
    rw [hsome]
    rfl
  have hwp : Prog.wp storageMachine noFault (svc.history c limit none)
      (fun page _ => page = items.take limit) (fun _ _ => False) s := by
    apply wp_history_start
    unfold MessageService.startOf
    rw [hserved]
  have hrun := Prog.finishesAmid_run (W := oneByOne) (fun _ _ => trivial)
    (svc.history c limit none) s
  have hanswer := (Prog.wp_noFault_iff _ _ _ _).mp hwp
  cases hresult : (Prog.run storageMachine (fun _ => false) (svc.history c limit none) s).1 with
  | ok page =>
      rw [hresult] at hanswer
      change Prog.FinishesAmid oneByOne _ s
        (Prog.run storageMachine (fun _ => false) (svc.history c limit none) s).1 _ at hrun
      rw [hresult] at hrun
      cases hanswer
      exact ⟨_, hrun⟩
  | error e =>
      rw [hresult] at hanswer
      exact hanswer.elim

/--
After any run, requests with a limit answer what the table holds exactly when the cached
list fits the limit.
-/
theorem history_transparent_iff (hcache : svc.cache = some ⟨true⟩)
    (hlists : forall c, s.historyCache c = none) (hsettled : CitationsSettled s.messages)
    (hrun : MessageRuns svc RaisesClean s t) (c : UUID) (hlimit : 0 < limit) :
    (forall page u,
      Prog.FinishesAmid oneByOne (svc.history c limit none) t (.ok page) u ->
      page = historyPage t c limit) <-> Fits t c limit := by
  have hs : HistoryCoherent s := by
    refine ⟨hsettled, ?_⟩
    intro c items hitems
    rw [hlists c] at hitems
    cases hitems
  have ht := historyCoherent_runs hcache hs hrun
  constructor
  · intro hall items hitems
    rcases finishes_cachedList hcache ht hitems hlimit with ⟨u, hfin⟩
    exact (take_eq_historyPage_iff (ht.lists c items hitems).right).mp (hall _ u hfin)
  · intro hfits page u hfin
    have hanswer : Prog.wpAmid oneByOne (svc.history c limit none)
        (fun page v => Reading t.messages v ∧ AnsweredFrom t.messages t c limit page)
        (fun _ v => Reading t.messages v) t :=
      Prog.wpAmid_mono (wpAmid_history hcache limit none (reading_self ht))
        (fun _ _ h => ⟨h.left, h.right rfl hlimit⟩) (fun _ _ h => h)
    have hstable : forall page, StableUnder Elapsed (fun v => Reading t.messages v ∧
        AnsweredFrom t.messages t c limit page) :=
      fun _ _ _ helapsed h => ⟨reading_elapsed _ _ helapsed h.left, h.right⟩
    have hend := Prog.wpAmid_finishes hstable (fun _ => reading_elapsed) hanswer hfin
    rcases hend.right with hpage | ⟨items, hitems, hpage⟩
    · exact hpage
    · rw [hpage]
      exact (take_eq_historyPage_iff (ht.lists c items hitems).right).mpr (hfits items hitems)

end Answers

/-!
# Two replies and different limits
-/

def storedReplyRow (id : Int) : Option Row -> Row :=
  Row.inserted .assistant (text "hi") ⟨id * 1000, true⟩ .sent none

def twoReplies : Store :=
  (Store.blank.upsertMessage (.ofInt 1) (.ofInt 2) (storedReplyRow 2)).upsertMessage
    (.ofInt 1) (.ofInt 3) (storedReplyRow 3)

theorem settled_twoReplies : CitationsSettled twoReplies.messages := by
  have hblank : CitationsSettled Store.blank.messages := by
    intro c m row hrow
    cases hrow
  have hreply : forall id old, (forall row, old = some row -> IsWritten row.citations) ->
      IsWritten (storedReplyRow id old).citations :=
    fun _ _ hold => isWritten_old hold
  exact settled_upsert (settled_upsert hblank _ (hreply 2)) _ (hreply 3)

def runRequest (limit : Nat) (s : Store) : Except PyExc Unit × Store :=
  Prog.run storageMachine (fun _ => false)
    (MessageCall.program Deployment.single.api (.history (.ofInt 1) limit none)) s

theorem runs_request {permits : Store -> Except PyExc Unit -> Store -> Prop} {limit : Nat}
    {s : Store} (hpermits : permits s (runRequest limit s).1 (runRequest limit s).2) :
    MessageRuns Deployment.single.api permits s (runRequest limit s).2 :=
  Relation.ReflTransGen.single
    (MessageStep.call (.history (.ofInt 1) limit none) _
      (Prog.finishesAmid_run (fun _ _ => trivial) _ s) hpermits)

/-- A list of two rows is right for a request for one. -/
theorem twoReplies_transparent :
    (runRequest 2 twoReplies).1.isOk = true ∧ forall page u,
      Prog.FinishesAmid oneByOne (Deployment.single.api.history (.ofInt 1) 1 none)
        (runRequest 2 twoReplies).2 (.ok page) u ->
      page = historyPage (runRequest 2 twoReplies).2 (.ofInt 1) 1 := by
  have hok : (runRequest 2 twoReplies).1.isOk = true := by
    decide
  have hclean : RaisesClean twoReplies (runRequest 2 twoReplies).1
      (runRequest 2 twoReplies).2 := by
    intro e he
    rw [he] at hok
    cases hok
  refine ⟨hok, (history_transparent_iff rfl (fun _ => rfl) settled_twoReplies
    (runs_request hclean) (.ofInt 1) (by decide)).mpr ?_⟩
  intro items hitems
  right
  have hlength : ((runRequest 2 twoReplies).2.historyCache (.ofInt 1)).map List.length =
      some 2 := by
    decide
  have hcount : liveCount (runRequest 2 twoReplies).2 (.ofInt 1) 1 = 1 := by
    decide
  rw [hitems] at hlength
  have htwo : items.length = 2 := Option.some.inj hlength
  exact ⟨by omega, hcount⟩

/-- A list of one row is served to a request for three. -/
theorem short_list_served :
    ¬forall (s t : Store) (c : UUID) (limit : Nat), (forall c, s.historyCache c = none) ->
      CitationsSettled s.messages ->
      MessageRuns Deployment.single.api (fun _ _ _ => True) s t -> 0 < limit ->
      forall page u,
        Prog.FinishesAmid oneByOne (Deployment.single.api.history c limit none) t
          (.ok page) u ->
        page = historyPage t c limit := by
  intro hall
  let t := (runRequest 1 twoReplies).2
  have hanswer : (Prog.run storageMachine (fun _ => false)
      (Deployment.single.api.history (.ofInt 1) 3 none) t).1.toOption.map
        (List.map Message.messageId) = some [.ofInt 3] := by
    decide
  have hpage : (historyPage t (.ofInt 1) 3).map Message.messageId =
      [.ofInt 3, .ofInt 2] := by
    decide
  have hfin : Prog.FinishesAmid oneByOne (Deployment.single.api.history (.ofInt 1) 3 none) t
      (Prog.run storageMachine (fun _ => false)
        (Deployment.single.api.history (.ofInt 1) 3 none) t).1 _ :=
    Prog.finishesAmid_run (fun _ _ => trivial) _ t
  cases hresult : (Prog.run storageMachine (fun _ => false)
      (Deployment.single.api.history (.ofInt 1) 3 none) t).1 with
  | ok page =>
      rw [hresult] at hfin hanswer
      have hsame := hall twoReplies t (.ofInt 1) 3 (fun _ => rfl) settled_twoReplies
        (runs_request trivial) (by decide) page _ hfin
      have hids : page.map Message.messageId = [.ofInt 3] := Option.some.inj hanswer
      rw [hsame, hpage] at hids
      exact absurd hids (by decide)
  | error e =>
      rw [hresult] at hanswer
      cases hanswer

end ConversationService
