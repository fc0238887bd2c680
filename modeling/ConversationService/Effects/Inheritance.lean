import ConversationService.Effects.Traffic

/-!
# What a branch inherits

Without faults the context of a branch is a function of the tables and of the cached
conversations: the chain of the ancestors that can be found, and the usable messages
within their boundaries.
-/

namespace ConversationService

open Python Programs

/-!
# Finding conversations
-/

/-- The cached conversation that `get` looks for first, if it can be read. -/
def cachedConversation (cache : Option CacheService) (s : Store) (c : UUID) :
    Option Conversation :=
  match cache with
  | some cache =>
      if cache.redis then (s.conversationCache c).filter (fun conv => conv.userId.isSome)
      else none
  | none => none

def storedConversation (s : Store) (c : UUID) : Option (Option Conversation) :=
  match s.conversations c with
  | none => some none
  | some row => (ConversationRepository.conversationOfRow? c row).map some

/-- The answer of `get`, unless it raises. -/
def findConversation (cache : Option CacheService) (s : Store) (c : UUID) :
    Option (Option Conversation) :=
  match cachedConversation cache s c with
  | some conv => some (some conv)
  | none => storedConversation s c

/-- Two stores with the same messages, in which the same conversations are found. -/
structure SameSources (cache : Option CacheService) (s t : Store) : Prop where
  messages : t.messages = s.messages
  found : forall c, findConversation cache t c = findConversation cache s c

theorem SameSources.refl (cache : Option CacheService) (s : Store) :
    SameSources cache s s :=
  ⟨rfl, fun _ => rfl⟩

theorem SameSources.trans {cache : Option CacheService} {s t u : Store}
    (h : SameSources cache s t) (h' : SameSources cache t u) :
    SameSources cache s u := by
  constructor
  · rw [h'.messages, h.messages]
  · intro c
    rw [h'.found, h.found]

theorem sameSources_setConversationCache {cache : CacheService} {s : Store} {c : UUID}
    {conv : Conversation} (hmiss : cachedConversation (some cache) s c = none)
    (hstored : storedConversation s c = some (some conv)) :
    SameSources (some cache) s (s.setConversationCache c (some conv)) := by
  refine ⟨rfl, ?_⟩
  intro c'
  by_cases hc : c' = c
  · subst hc
    have hbefore : findConversation (some cache) s c' = some (some conv) := by
      unfold findConversation
      rw [hmiss]
      exact hstored
    rw [hbefore]
    unfold findConversation cachedConversation
    dsimp only
    cases cache.redis with
    | false => exact hstored
    | true =>
        cases howner : conv.userId.isSome with
        | true => simp [Store.setConversationCache, Option.filter, howner]
        | false =>
            simp only [Store.setConversationCache, Option.filter, howner, if_true,
              Function.update_self, Bool.false_eq_true, if_false]
            exact hstored
  · have hsame : cachedConversation (some cache) (s.setConversationCache c (some conv)) c' =
        cachedConversation (some cache) s c' := by
      unfold cachedConversation Store.setConversationCache
      dsimp only
      rw [Function.update_of_ne hc]
    unfold findConversation
    rw [hsame]
    rfl

section Find

variable {s : Store} {Q : Option Conversation -> Store -> Prop}
  {E : PyExc -> Store -> Prop}

theorem wp_getCached (cache : Option CacheService) (c : UUID)
    (hQ : Q (cachedConversation cache s c) s) :
    Prog.wp storageMachine noFault (ConversationReads.getCached cache c) Q E s := by
  unfold ConversationReads.getCached
  unfold cachedConversation at hQ
  cases cache with
  | none => exact hQ
  | some cache =>
      dsimp only at hQ ⊢
      unfold CacheService.getConversation
      cases hredis : cache.redis with
      | false =>
          rw [hredis] at hQ
          exact hQ
      | true =>
          rw [hredis, if_pos rfl] at hQ
          rw [if_pos rfl, Prog.wp_tryCatch, Prog.wp_bind]
          refine ⟨?_, fun hfail => hfail.elim⟩
          show Prog.wp storageMachine noFault
            (match s.conversationCache c with
            | some conv =>
                if conv.userId.isSome then pure (some conv)
                else Prog.raise PyExc.valueError
            | none => pure none) Q
            (fun _ t => Prog.wp storageMachine noFault (pure none) Q E t) s
          cases hcached : s.conversationCache c with
          | none =>
              rw [hcached] at hQ
              exact hQ
          | some conv =>
              rw [hcached] at hQ
              dsimp only
              cases howner : conv.userId.isSome with
              | true =>
                  rw [Option.filter_some, howner] at hQ
                  exact hQ
              | false =>
                  rw [Option.filter_some, howner] at hQ
                  exact hQ

theorem wp_repositoryGet (c : UUID)
    (hQ : forall conv, storedConversation s c = some conv -> Q conv s)
    (hE : storedConversation s c = none -> E .valueError s) :
    Prog.wp storageMachine noFault (ConversationRepository.get c) Q E s := by
  unfold ConversationRepository.get
  unfold storedConversation at hQ hE
  rw [Prog.wp_bind]
  refine ⟨?_, fun hfail => hfail.elim⟩
  show Prog.wp storageMachine noFault
    (match s.conversations c with
    | none => pure none
    | some row =>
        match ConversationRepository.conversationOfRow? c row with
        | some conv => pure (some conv)
        | none => Prog.raise PyExc.valueError) Q E s
  cases hrow : s.conversations c with
  | none =>
      rw [hrow] at hQ
      exact hQ none rfl
  | some row =>
      rw [hrow] at hQ hE
      dsimp only at hQ hE ⊢
      cases hconv : ConversationRepository.conversationOfRow? c row with
      | some conv =>
          rw [hconv] at hQ
          exact hQ (some conv) rfl
      | none =>
          rw [hconv] at hE
          exact hE rfl

theorem storedConversation_key {c : UUID} {conv : Conversation}
    (h : storedConversation s c = some (some conv)) : conv.conversationId = c := by
  unfold storedConversation at h
  split at h
  · cases h
  · rename_i row hrow
    rcases Option.map_eq_some_iff.mp h with ⟨conv', hconv, heq⟩
    cases heq
    rcases Option.map_eq_some_iff.mp hconv with ⟨status, _, rfl⟩
    rfl

theorem wp_setConversation (cache : CacheService) (conv : Conversation)
    {Q : Unit -> Store -> Prop}
    (hset : cache.redis = true -> CacheService.isCacheable conv = true ->
      Q () (s.setConversationCache conv.conversationId (some conv)))
    (hkeep : (cache.redis = false ∨ CacheService.isCacheable conv = false) -> Q () s) :
    Prog.wp storageMachine noFault (cache.setConversation conv) Q E s := by
  unfold CacheService.setConversation
  cases hredis : cache.redis with
  | false => exact hkeep (Or.inl hredis)
  | true =>
      rw [if_pos rfl, Prog.wp_tryCatch]
      cases hcacheable : CacheService.isCacheable conv with
      | false => exact hkeep (Or.inr hcacheable)
      | true =>
          rw [if_pos rfl, Prog.wp_bind]
          exact ⟨⟨hset hredis hcacheable, fun hfail => hfail.elim⟩,
            fun hfail => hfail.elim⟩

theorem wp_conversationGet (cache : Option CacheService) (c : UUID)
    (hQ : forall conv t, findConversation cache s c = some conv ->
      SameSources cache s t -> Q conv t)
    (hE : findConversation cache s c = none -> E .valueError s) :
    Prog.wp storageMachine noFault (ConversationReads.get cache c) Q E s := by
  unfold ConversationReads.get
  unfold findConversation at hQ hE
  rw [Prog.wp_bind]
  apply wp_getCached
  cases hcached : cachedConversation cache s c with
  | some conv =>
      rw [hcached] at hQ
      exact hQ (some conv) s rfl (SameSources.refl cache s)
  | none =>
      rw [hcached] at hQ hE
      dsimp only at hQ hE ⊢
      rw [Prog.wp_bind]
      apply wp_repositoryGet
      · intro stored hstored
        cases stored with
        | none => exact hQ none s hstored (SameSources.refl cache s)
        | some conv =>
            cases cache with
            | none => exact hQ (some conv) s hstored (SameSources.refl none s)
            | some cache =>
                dsimp only
                rw [Prog.wp_bind]
                apply wp_setConversation
                · intro _ _
                  rw [storedConversation_key hstored]
                  exact hQ (some conv) _ hstored
                    (sameSources_setConversationCache hcached hstored)
                · intro _
                  exact hQ (some conv) s hstored (SameSources.refl (some cache) s)
      · exact hE

end Find

/-!
# The chain of ancestors
-/

/-- `lineageFrom` over the answers of `get`; without a value where `get` raises. -/
def lineageOf (find : UUID -> Option (Option Conversation)) (owner : Option UUID) :
    Nat -> List UUID -> Conversation -> List Segment -> Option Lineage
  | depth, seen, cur, chain =>
      match cur.parentConversationId with
      | none => some ⟨chain, none⟩
      | some parentId =>
          match depth with
          | 0 => some ⟨chain, some .maxDepth⟩
          | depth + 1 =>
              if parentId ∈ seen then some ⟨chain, some .cycle⟩
              else
                match find parentId with
                | none => none
                | some none => some ⟨chain, some .missingAncestor⟩
                | some (some parent) =>
                    if parent.userId ≠ owner then
                      some ⟨chain, some .inaccessibleAncestor⟩
                    else if parent.status = .deleted then
                      some ⟨chain, some .deletedAncestor⟩
                    else
                      lineageOf find owner depth (parentId :: seen) parent
                        (BranchContextService.segmentOf cur parentId parent :: chain)

/-- The ancestors of a conversation, root first. -/
def ancestry (cache : Option CacheService) (s : Store) (conv : Conversation) :
    Option Lineage :=
  lineageOf (findConversation cache s) conv.userId maxLineageDepth
    [conv.conversationId] conv []

theorem wp_lineageFrom (cache : Option CacheService) (owner : Option UUID) (depth : Nat)
    (seen : List UUID) (cur : Conversation) (chain : List Segment) {s : Store}
    {Q : Lineage -> Store -> Prop} {E : PyExc -> Store -> Prop}
    (hQ : forall l t,
      lineageOf (findConversation cache s) owner depth seen cur chain = some l ->
      SameSources cache s t -> Q l t)
    (hE : forall t,
      lineageOf (findConversation cache s) owner depth seen cur chain = none ->
      SameSources cache s t -> E .valueError t) :
    Prog.wp storageMachine noFault
      (BranchContextService.lineageFrom cache owner depth seen cur chain) Q E s := by
  have hstart := SameSources.refl cache s
  induction depth generalizing s seen cur chain with
  | zero =>
      unfold BranchContextService.lineageFrom
      unfold lineageOf at hQ
      cases hparent : cur.parentConversationId with
      | none =>
          rw [hparent] at hQ
          exact hQ _ s rfl hstart
      | some parentId =>
          rw [hparent] at hQ
          exact hQ _ s rfl hstart
  | succ depth ih =>
      unfold BranchContextService.lineageFrom
      unfold lineageOf at hQ hE
      cases hparent : cur.parentConversationId with
      | none =>
          rw [hparent] at hQ
          exact hQ _ s rfl hstart
      | some parentId =>
          rw [hparent] at hQ hE
          dsimp only at hQ hE ⊢
          by_cases hseen : parentId ∈ seen
          · rw [if_pos hseen] at hQ ⊢
            exact hQ _ s rfl hstart
          · rw [if_neg hseen] at hQ hE ⊢
            rw [Prog.wp_bind]
            apply wp_conversationGet
            · intro found t hfind ht
              rw [hfind] at hQ hE
              cases found with
              | none => exact hQ _ t rfl ht
              | some parent =>
                  dsimp only at hQ hE ⊢
                  by_cases howner : parent.userId ≠ owner
                  · rw [if_pos howner] at hQ ⊢
                    exact hQ _ t rfl ht
                  · rw [if_neg howner] at hQ hE ⊢
                    by_cases hdeleted : parent.status = .deleted
                    · rw [if_pos hdeleted] at hQ ⊢
                      exact hQ _ t rfl ht
                    · rw [if_neg hdeleted] at hQ hE ⊢
                      have hfound : findConversation cache t =
                          findConversation cache s := funext ht.found
                      apply ih
                      · intro l u hl hu
                        rw [hfound] at hl
                        exact hQ l u hl (ht.trans hu)
                      · intro u hl hu
                        rw [hfound] at hl
                        exact hE u hl (ht.trans hu)
                      · exact SameSources.refl cache t
            · intro hfind
              rw [hfind] at hE
              exact hE s rfl hstart

theorem mem_lineageOf_of_mem {find : UUID -> Option (Option Conversation)}
    {owner : Option UUID} {depth : Nat} {seen : List UUID} {cur : Conversation}
    {chain : List Segment} {l : Lineage} {seg : Segment}
    (hl : lineageOf find owner depth seen cur chain = some l) (h : seg ∈ chain) :
    seg ∈ l.segments := by
  induction depth generalizing seen cur chain with
  | zero =>
      unfold lineageOf at hl
      split at hl
      · cases hl
        exact h
      · cases hl
        exact h
  | succ depth ih =>
      unfold lineageOf at hl
      split at hl
      · cases hl
        exact h
      · dsimp only at hl
        split at hl
        · cases hl
          exact h
        · split at hl
          · cases hl
          · cases hl
            exact h
          · split at hl
            · cases hl
              exact h
            · split at hl
              · cases hl
                exact h
              · exact ih hl (List.mem_cons_of_mem _ h)

/-!
# The messages in scope
-/

/-- The messages of a segment; without an answer if times cannot be compared. -/
def scopeOf (s : Store) (seg : Segment) (limit : Nat) : Option (List Message) :=
  match seg.uptoMessageId with
  | some upto =>
      some ((((s.messages seg.conversationId).rows.filter
        (fun (r : UUID × Row) => r.1 ≤ upto)).take limit).filterMap
          (MessageRepository.liveMessage seg.conversationId))
  | none =>
      match seg.uptoTime with
      | none => some (historyPage s seg.conversationId limit)
      | some time =>
          ((historyPage s seg.conversationId limit).mapM (fun m =>
            (BranchContextService.writtenUpto time m).map (fun b => (m, b)))).map
              (fun marked => (marked.filter (fun p => p.2)).map Prod.fst)

/-- What is picked from the segments, nearest first, unless a comparison raises. -/
def pickOf (s : Store) (p : BranchContextService.Picking) :
    List Segment -> Option BranchContextService.Picking
  | [] => some p
  | seg :: rest =>
      (scopeOf s seg (inheritedMaxMessages * 2)).bind (fun rows =>
        let p := BranchContextService.pickMessages p
          (rows.filter BranchContextService.usable)
        if p.full then some p else pickOf s p rest)

/-- The inherited messages, oldest first. -/
def inheritedOf (s : Store) (l : Lineage) : List InheritedMessage :=
  match pickOf s .start l.segments.reverse with
  | some p => p.picked.reverse.map BranchContextService.inheritedMessage
  | none => []

section Scope

variable {s : Store} {E : PyExc -> Store -> Prop}

theorem wp_messagesInScope (seg : Segment) (limit : Nat)
    {Q : List Message -> Store -> Prop}
    (hQ : forall rows, scopeOf s seg limit = some rows -> Q rows s)
    (hE : scopeOf s seg limit = none -> E .typeError s) :
    Prog.wp storageMachine noFault (BranchContextService.messagesInScope seg limit)
      Q E s := by
  unfold BranchContextService.messagesInScope
  unfold scopeOf at hQ hE
  cases hupto : seg.uptoMessageId with
  | some upto =>
      rw [hupto] at hQ
      exact ⟨hQ _ rfl, fun hfail => hfail.elim⟩
  | none =>
      rw [hupto] at hQ hE
      dsimp only at hQ hE ⊢
      rw [Prog.wp_bind]
      refine ⟨?_, fun hfail => hfail.elim⟩
      show Prog.wp storageMachine noFault (pure (historyPage s seg.conversationId limit)) _ E s
      rw [Prog.wp_pure]
      cases htime : seg.uptoTime with
      | none =>
          rw [htime] at hQ
          exact hQ _ rfl
      | some time =>
          rw [htime] at hQ hE
          dsimp only at hQ hE ⊢
          cases hmarked : (historyPage s seg.conversationId limit).mapM (fun m =>
              (BranchContextService.writtenUpto time m).map (fun b => (m, b))) with
          | some marked =>
              rw [hmarked] at hQ
              exact hQ _ rfl
          | none =>
              rw [hmarked] at hE
              exact hE rfl

theorem wp_pickSegments (p : BranchContextService.Picking) (segments : List Segment)
    {Q : BranchContextService.Picking -> Store -> Prop}
    (hQ : forall q, pickOf s p segments = some q -> Q q s)
    (hE : forall e, pickOf s p segments = none -> E e s) :
    Prog.wp storageMachine noFault (BranchContextService.pickSegments p segments)
      Q E s := by
  induction segments generalizing p with
  | nil => exact hQ p rfl
  | cons seg rest ih =>
      unfold BranchContextService.pickSegments BranchContextService.segmentMessages
      unfold pickOf at hQ hE
      rw [Prog.wp_bind, Prog.wp_bind]
      apply wp_messagesInScope
      · intro rows hrows
        rw [hrows, Option.bind_some] at hQ hE
        rw [Prog.wp_pure]
        dsimp only at hQ hE ⊢
        split
        · rename_i hfull
          rw [if_pos hfull] at hQ
          exact hQ _ rfl
        · rename_i hfull
          rw [if_neg hfull] at hQ hE
          exact ih _ hQ hE
      · intro hnone
        rw [hnone] at hE
        exact hE _ rfl

theorem wp_inheritedHistory (l : Lineage) {Q : List InheritedMessage -> Store -> Prop}
    (hQ : Q (inheritedOf s l) s) :
    Prog.wp storageMachine noFault (BranchContextService.inheritedHistory l) Q E s := by
  unfold BranchContextService.inheritedHistory
  unfold inheritedOf at hQ
  rw [Prog.wp_tryCatch, Prog.wp_bind]
  apply wp_pickSegments
  · intro q hq
    rw [hq] at hQ
    exact hQ
  · intro e hnone
    rw [hnone] at hQ
    exact hQ

end Scope

/-!
# The whole context
-/

/-- What the requests of a conversation inherit. -/
def branchContextOf (cache : Option CacheService) (s : Store) (c : UUID) :
    List InheritedMessage × List AncestorRef :=
  match findConversation cache s c with
  | some (some conv) =>
      match ancestry cache s conv with
      | some l => (inheritedOf s l, BranchContextService.ancestorRefs l)
      | none => ([], [])
  | _ => ([], [])

theorem scopeOf_congr {s t : Store} (h : t.messages = s.messages) (seg : Segment)
    (limit : Nat) : scopeOf t seg limit = scopeOf s seg limit := by
  unfold scopeOf historyPage
  rw [h]

theorem pickOf_congr {s t : Store} (h : t.messages = s.messages)
    (p : BranchContextService.Picking) (segments : List Segment) :
    pickOf t p segments = pickOf s p segments := by
  induction segments generalizing p with
  | nil => rfl
  | cons seg rest ih =>
      unfold pickOf
      rw [scopeOf_congr h]
      congr
      funext rows
      dsimp only
      rw [ih]

theorem inheritedOf_congr {s t : Store} (h : t.messages = s.messages) (l : Lineage) :
    inheritedOf t l = inheritedOf s l := by
  unfold inheritedOf
  rw [pickOf_congr h]

theorem ancestry_congr {cache : Option CacheService} {s t : Store}
    (h : SameSources cache s t) (conv : Conversation) :
    ancestry cache t conv = ancestry cache s conv := by
  have hfound : findConversation cache t = findConversation cache s := funext h.found
  unfold ancestry
  rw [hfound]

theorem branchContextOf_congr {cache : Option CacheService} {s t : Store}
    (h : SameSources cache s t) (c : UUID) :
    branchContextOf cache t c = branchContextOf cache s c := by
  unfold branchContextOf
  rw [h.found]
  split
  · rw [ancestry_congr h]
    split
    · rw [inheritedOf_congr h.messages]
    · rfl
  · rfl

theorem wp_eventContext (cache : Option CacheService) (conv : Conversation) {s : Store}
    {Q : List InheritedMessage × List AncestorRef -> Store -> Prop}
    {E : PyExc -> Store -> Prop}
    (hQ : forall l t, ancestry cache s conv = some l -> SameSources cache s t ->
      Q (inheritedOf s l, BranchContextService.ancestorRefs l) t)
    (hnone : forall t, ancestry cache s conv = none -> SameSources cache s t ->
      Q ([], []) t) :
    Prog.wp storageMachine noFault (BranchContextService.eventContext cache conv)
      Q E s := by
  unfold BranchContextService.eventContext BranchContextService.lineage
  rw [Prog.wp_bind, Prog.wp_tryCatch, Prog.wp_bind]
  apply wp_lineageFrom
  · intro l t hl ht
    rw [Prog.wp_pure]
    dsimp only
    rw [Prog.wp_bind]
    apply wp_inheritedHistory
    rw [inheritedOf_congr ht.messages]
    exact hQ l t hl ht
  · intro t hl ht
    exact hnone t hl ht

theorem wp_inheritedHistoryOf (cache : Option CacheService) (conv : Conversation)
    {s : Store} {Q : List InheritedMessage -> Store -> Prop} {E : PyExc -> Store -> Prop}
    (hQ : forall l t, ancestry cache s conv = some l -> SameSources cache s t ->
      Q (inheritedOf s l) t)
    (hnone : forall t, ancestry cache s conv = none -> SameSources cache s t -> Q [] t) :
    Prog.wp storageMachine noFault (BranchContextService.inheritedHistoryOf cache conv)
      Q E s := by
  unfold BranchContextService.inheritedHistoryOf BranchContextService.lineage
  rw [Prog.wp_tryCatch, Prog.wp_bind]
  apply wp_lineageFrom
  · intro l t hl ht
    have hpicked := pickOf_congr ht.messages .start l.segments.reverse
    have hinherited := hQ l t hl ht
    unfold inheritedOf at hinherited
    rw [Prog.wp_bind]
    apply wp_pickSegments
    · intro q hq
      rw [hpicked] at hq
      rw [hq] at hinherited
      exact hinherited
    · intro e hq
      rw [hpicked] at hq
      rw [hq] at hinherited
      exact hinherited
  · intro t hl ht
    exact hnone t hl ht

/-- The context of a request is what the branch inherits, before the own history. -/
theorem wp_branchEventContext (cache : Option CacheService) (c : UUID)
    (own : List HistoryEntry) {s : Store}
    {Q : List HistoryEntry × List AncestorRef -> Store -> Prop}
    {E : PyExc -> Store -> Prop}
    (hQ : forall t, SameSources cache s t ->
      Q ((branchContextOf cache s c).1.map MessageService.markInherited ++ own,
        (branchContextOf cache s c).2) t) :
    Prog.wp storageMachine noFault (MessageService.branchEventContext cache c own)
      Q E s := by
  unfold MessageService.branchEventContext
  unfold branchContextOf at hQ
  rw [Prog.wp_tryCatch, Prog.wp_bind]
  apply wp_conversationGet
  · intro found t hfind ht
    rw [hfind] at hQ
    cases found with
    | none => exact hQ t ht
    | some conv =>
        dsimp only at hQ ⊢
        cases hparent : conv.parentConversationId with
        | none =>
            have hroot : ancestry cache s conv = some ⟨[], none⟩ := by
              unfold ancestry lineageOf
              rw [hparent]
            rw [hroot] at hQ
            exact hQ t ht
        | some parentId =>
            dsimp only
            rw [Prog.wp_bind]
            apply wp_eventContext
            · intro l u hl hu
              rw [ancestry_congr ht] at hl
              rw [hl] at hQ
              rw [inheritedOf_congr ht.messages]
              exact hQ u (ht.trans hu)
            · intro u hl hu
              rw [ancestry_congr ht] at hl
              rw [hl] at hQ
              exact hQ u (ht.trans hu)
  · intro hfind
    rw [hfind] at hQ
    exact hQ s (SameSources.refl cache s)

/-!
# The documents
-/

/-- What is gathered from the segments, unless a comparison raises. -/
def gatherOf (s : Store) (l : Lineage) (g : BranchContextService.Gathering) :
    List Segment -> Option BranchContextService.Gathering
  | [] => some g
  | seg :: rest =>
      (scopeOf s seg scanPerSegment).bind (fun rows =>
        gatherOf s l ((rows.filter BranchContextService.usable).reverse.foldl
          (BranchContextService.gatherMessage l seg) g) rest)

/-- The inherited documents, in the order of `context`. -/
def documentsOf (s : Store) (l : Lineage) : Option (List InheritedDocument) :=
  (gatherOf s l ⟨[], []⟩ l.segments).map BranchContextService.Gathering.documents

theorem wp_gatherSegments (l : Lineage) (g : BranchContextService.Gathering)
    (segments : List Segment) {s : Store}
    {Q : BranchContextService.Gathering -> Store -> Prop} {E : PyExc -> Store -> Prop}
    (hQ : forall g', gatherOf s l g segments = some g' -> Q g' s)
    (hE : gatherOf s l g segments = none -> E .typeError s) :
    Prog.wp storageMachine noFault (BranchContextService.gatherSegments l g segments)
      Q E s := by
  induction segments generalizing g with
  | nil => exact hQ g rfl
  | cons seg rest ih =>
      unfold BranchContextService.gatherSegments BranchContextService.segmentMessages
      unfold gatherOf at hQ hE
      rw [Prog.wp_bind, Prog.wp_bind]
      apply wp_messagesInScope
      · intro rows hrows
        rw [hrows, Option.bind_some] at hQ hE
        rw [Prog.wp_pure]
        exact ih _ hQ hE
      · intro hnone
        rw [hnone] at hE
        exact hE rfl

/-- The result of `context` for a lineage and its documents. -/
def shownContext (conv : Conversation) (l : Lineage) (documents : List InheritedDocument) :
    BranchContext :=
  { conversationId := conv.conversationId
    branchMessageId := conv.branchMessageId
    lineage := l.segments.map BranchContextService.lineageEntry
    truncated := l.truncated
    documents := documents }

theorem gatherOf_congr {s t : Store} (h : t.messages = s.messages) (l : Lineage)
    (g : BranchContextService.Gathering) (segments : List Segment) :
    gatherOf t l g segments = gatherOf s l g segments := by
  induction segments generalizing g with
  | nil => rfl
  | cons seg rest ih =>
      unfold gatherOf
      rw [scopeOf_congr h]
      congr
      funext rows
      exact ih _

theorem wp_context (cache : Option CacheService) (conv : Conversation) {s : Store}
    {Q : BranchContext -> Store -> Prop} {E : PyExc -> Store -> Prop}
    (hQ : forall l documents t, ancestry cache s conv = some l ->
      documentsOf s l = some documents -> SameSources cache s t ->
      Q (shownContext conv l documents) t)
    (hlineage : forall t, ancestry cache s conv = none -> SameSources cache s t ->
      E .valueError t)
    (hscope : forall l t, ancestry cache s conv = some l -> documentsOf s l = none ->
      SameSources cache s t -> E .typeError t) :
    Prog.wp storageMachine noFault (BranchContextService.context cache conv) Q E s := by
  unfold BranchContextService.context BranchContextService.lineage
  rw [Prog.wp_bind]
  apply wp_lineageFrom
  · intro l t hl ht
    have hgather := gatherOf_congr ht.messages l ⟨[], []⟩ l.segments
    rw [Prog.wp_bind]
    apply wp_gatherSegments
    · intro g hg
      rw [hgather] at hg
      apply hQ l g.documents t hl _ ht
      unfold documentsOf
      rw [hg]
      rfl
    · intro hnone
      rw [hgather] at hnone
      apply hscope l t hl _ ht
      unfold documentsOf
      rw [hnone]
      rfl
  · exact hlineage

end ConversationService
