import ConversationService.Effects.Pages
import ConversationService.Effects.Replies

/-!
# Pages and the cached list

What `history` answers and what it leaves in the cache when no operation raises.
-/

namespace ConversationService

open Python Programs

namespace MessageService

/-- The page that the cached list answers, if it answers one. -/
def servedPage (svc : MessageService) (s : Store) (c : UUID) (limit : Nat) :
    Option (List Message) :=
  match svc.cache with
  | none => none
  | some cache =>
      let items := ((Op.lrangeHistory c limit).exec s).1
      if cache.redis && !items.isEmpty then items.mapM CacheService.cachedMessage
      else none

/-- A list is written to the cache if it has messages and all of them have a time. -/
def Fills (svc : MessageService) (page : List Message) : Prop :=
  (exists cache, svc.cache = some cache ∧ cache.redis = true) ∧ page ≠ [] ∧
    forall msg, msg ∈ page -> msg.createdAt.isSome = true

instance (svc : MessageService) (page : List Message) : Decidable (svc.Fills page) :=
  match h : svc.cache with
  | none => .isFalse (by
      intro hfills
      rcases hfills.left with ⟨cache, hcache, _⟩
      rw [h] at hcache
      cases hcache)
  | some cache =>
      decidable_of_iff (cache.redis = true ∧ page ≠ [] ∧
          forall msg, msg ∈ page -> msg.createdAt.isSome = true) (by
        unfold Fills
        simp [h])

/-- The state after a page was read from the table. -/
def afterFill (svc : MessageService) (s : Store) (c : UUID) (page : List Message) :
    Store :=
  if svc.Fills page then s.setHistoryCache c (some page) else s

/-- The answer and the state after a request without a cursor. -/
def startOf (svc : MessageService) (s : Store) (c : UUID) (limit : Nat) :
    List Message × Store :=
  match svc.servedPage s c limit with
  | some page => (page, s)
  | none => (historyPage s c limit, svc.afterFill s c (historyPage s c limit))

end MessageService

section Requests

variable {svc : MessageService} {s : Store} {c : UUID} {limit : Nat}

theorem wp_setLast50Messages_noFault {cache : CacheService} {page : List Message}
    {Q : Unit -> Store -> Prop} {E : PyExc -> Store -> Prop}
    (hcache : svc.cache = some cache) (hQ : Q () (svc.afterFill s c page)) :
    Prog.wp storageMachine noFault (cache.setLast50Messages c page) Q E s := by
  unfold CacheService.setLast50Messages
  unfold MessageService.afterFill at hQ
  split
  · rename_i hskip
    have hnot : ¬svc.Fills page := by
      intro h
      rcases h with ⟨⟨cache', hcache', hredis⟩, hne, _⟩
      rw [hcache] at hcache'
      cases hcache'
      simp [hredis, hne] at hskip
    rw [if_neg hnot] at hQ
    exact hQ
  · rename_i hskip
    rw [Prog.wp_tryCatch]
    split
    · rename_i hall
      have hfills : svc.Fills page := by
        refine ⟨⟨cache, hcache, ?_⟩, ?_, ?_⟩
        · simp at hskip
          exact hskip.left
        · simp at hskip
          exact hskip.right
        · simpa using hall
      rw [if_pos hfills] at hQ
      have hstate : (s.setHistoryCache c none).setHistoryCache c (some page) =
          s.setHistoryCache c (some page) := by
        simp [Store.setHistoryCache]
      rw [← hstate] at hQ
      refine ⟨⟨⟨?_, fun h => h.elim⟩, fun h => h.elim⟩, fun h => h.elim⟩
      have hlist : ((s.setHistoryCache c none).historyCache c).getD [] ++ page = page := by
        simp [Store.setHistoryCache]
      show Q () ((s.setHistoryCache c none).setHistoryCache c
        (some (((s.setHistoryCache c none).historyCache c).getD [] ++ page)))
      rw [hlist]
      exact hQ
    · rename_i hall
      have hnot : ¬svc.Fills page := by
        intro h
        apply hall
        simpa using h.right.right
      rw [if_neg hnot] at hQ
      exact hQ

theorem wp_cachedHistory_start {Q : Option (List Message) -> Store -> Prop}
    {E : PyExc -> Store -> Prop} (hQ : Q (svc.servedPage s c limit) s) :
    Prog.wp storageMachine noFault (svc.cachedHistory c limit none) Q E s := by
  unfold MessageService.cachedHistory
  unfold MessageService.servedPage at hQ
  split
  · rename_i cache _ hcache
    rw [hcache] at hQ
    dsimp only at hQ
    unfold CacheService.getLast50Messages
    cases hredis : cache.redis with
    | false =>
        rw [hredis] at hQ
        exact hQ
    | true =>
        rw [hredis] at hQ
        rw [if_pos rfl, Prog.wp_tryCatch, Prog.wp_bind, wp_perform]
        refine ⟨?_, fun h => h.elim⟩
        cases hempty : ((Op.lrangeHistory c limit).exec s).1.isEmpty with
        | true =>
            rw [hempty] at hQ
            rw [if_pos rfl]
            exact hQ
        | false =>
            rw [hempty] at hQ
            rw [if_neg Bool.false_ne_true]
            have hitems : Q (((Op.lrangeHistory c limit).exec s).1.mapM
                CacheService.cachedMessage) s := hQ
            cases hread : ((Op.lrangeHistory c limit).exec s).1.mapM
                CacheService.cachedMessage with
            | none =>
                rw [hread] at hitems
                exact hitems
            | some page =>
                rw [hread] at hitems
                exact hitems
  · rename_i hnone
    cases hcache : svc.cache with
    | none =>
        rw [hcache] at hQ
        exact hQ
    | some cache => exact absurd hcache (hnone cache rfl)

theorem wp_history_start {Q : List Message -> Store -> Prop} {E : PyExc -> Store -> Prop}
    (hQ : Q (svc.startOf s c limit).1 (svc.startOf s c limit).2) :
    Prog.wp storageMachine noFault (svc.history c limit none) Q E s := by
  unfold MessageService.history
  rw [Prog.wp_bind]
  apply wp_cachedHistory_start
  unfold MessageService.startOf at hQ
  cases hserved : svc.servedPage s c limit with
  | some page =>
      rw [hserved] at hQ
      exact hQ
  | none =>
      rw [hserved] at hQ
      dsimp only at hQ ⊢
      unfold MessageRepository.history
      rw [Prog.wp_bind, Prog.wp_bind, wp_perform]
      refine ⟨?_, fun h => h.elim⟩
      rw [Prog.wp_pure]
      split
      · rename_i cache hcache
        rw [Prog.wp_bind]
        exact wp_setLast50Messages_noFault hcache hQ
      · rename_i hnone
        have hnot : ¬svc.Fills (historyPage s c limit) := by
          intro h
          rcases h.left with ⟨cache, hcache, _⟩
          exact hnone cache rfl hcache
        unfold MessageService.afterFill at hQ
        rw [if_neg hnot] at hQ
        exact hQ

theorem wp_history_cursor {k : UUID} {Q : List Message -> Store -> Prop}
    {E : PyExc -> Store -> Prop}
    (hQ : Q ((((s.messages c).rows.filter (fun r => r.1 < k)).take limit).filterMap
      (MessageRepository.liveMessage c)) s) :
    Prog.wp storageMachine noFault (svc.history c limit (some k)) Q E s := by
  unfold MessageService.history
  rw [Prog.wp_bind]
  show Prog.wp storageMachine noFault (MessageRepository.history c limit (some k) >>= _)
    Q E s
  unfold MessageRepository.history
  rw [Prog.wp_bind, Prog.wp_bind, wp_perform]
  exact ⟨hQ, fun h => h.elim⟩

end Requests

/-! What the cached list answers. -/

@[simp] theorem messages_afterFill (svc : MessageService) (s : Store) (c : UUID)
    (page : List Message) : (svc.afterFill s c page).messages = s.messages := by
  unfold MessageService.afterFill
  split
  · rfl
  · rfl

@[simp] theorem messages_startOf (svc : MessageService) (s : Store) (c : UUID)
    (limit : Nat) : (svc.startOf s c limit).2.messages = s.messages := by
  unfold MessageService.startOf
  split
  · rfl
  · exact messages_afterFill svc s c _

end ConversationService
