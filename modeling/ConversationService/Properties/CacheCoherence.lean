import ConversationService.Model.Replicas
import ConversationService.Effects.CachedReads
import ConversationService.Effects.Tables

/-!
# Coherence of the conversation cache

The calls of the conversation service one after the other, while cached conversations
may expire at any point. Every cached conversation mirrors its row, with one exception:
`update_with_outbox` returns a conversation without its branch point, and `rename` and
`archive` cache it. As long as they are called on conversations without a branch point
only, what is read through the cache is what the table holds.
-/

namespace ConversationService

open Python Programs

/-- A cached conversation says what its row says. -/
structure Mirrors (row : ConversationRow) (conv : Conversation) : Prop where
  userId : conv.userId = row.userId
  title : conv.title = row.title
  status : row.status = some conv.status
  parent : conv.parentConversationId = row.parentConversationId
  branch : conv.branchMessageId = row.branchMessageId

structure ConversationRow.IsFull (row : ConversationRow) : Prop where
  userId : row.userId.isSome
  createdAt : row.createdAt.isSome
  updatedAt : row.updatedAt.isSome
  status : row.status.isSome

/-- The table holds `rows`, and the cache mirrors them but for one conversation. -/
structure CacheOf (rows : UUID -> Option ConversationRow) (except : Option UUID)
    (s : Store) : Prop where
  table : s.conversations = rows
  full : forall c row, rows c = some row -> row.IsFull
  mirrors : forall c conv, except ≠ some c -> s.conversationCache c = some conv ->
    exists row, rows c = some row ∧ Mirrors row conv
  /-- Redis takes no null -/
  titled : forall c conv, s.conversationCache c = some conv -> conv.title.isSome

def CacheCoherent (s : Store) : Prop :=
  CacheOf s.conversations none s

def redisCache : Option CacheService := some ⟨true⟩

def Op.IsOnTables : Op -> Prop
  | .hgetConversation _ => False
  | .hsetConversation _ _ => False
  | .expireConversation _ => False
  | .deleteConversation _ => False
  | _ => True

/-- Nobody else is at work, but cached conversations may expire. -/
def sequential : Surroundings storage Store :=
  amid Op.IsOnTables (fun _ _ => True) Elapsed

theorem isSome_title {conv : Conversation} (h : CacheService.isCacheable conv = true) :
    conv.title.isSome = true := by
  unfold CacheService.isCacheable at h
  exact (Bool.and_eq_true_iff.mp h).right

section CacheOf

variable {rows : UUID -> Option ConversationRow} {except : Option UUID} {c : UUID}

theorem cacheOf_elapsed : StableUnder Elapsed (CacheOf rows except) := by
  intro s t helapsed h
  have hkept : forall c conv, t.conversationCache c = some conv ->
      s.conversationCache c = some conv := by
    intro c conv hcached
    rcases helapsed.conversationCache c with hsame | hnone
    · rw [← hsame]
      exact hcached
    · rw [hnone] at hcached
      cases hcached
  refine ⟨?_, h.full, ?_, ?_⟩
  · rw [← h.table, helapsed.rest]
  · exact fun c conv hne hcached => h.mirrors c conv hne (hkept c conv hcached)
  · exact fun c conv hcached => h.titled c conv (hkept c conv hcached)

theorem cacheOf_hset {s : Store} {row : ConversationRow} {conv : Conversation}
    (h : CacheOf rows except s) (hexcept : except = none ∨ except = some c)
    (hrow : rows c = some row) (hmirrors : Mirrors row conv)
    (hcacheable : CacheService.isCacheable conv = true) :
    CacheOf rows none ((Op.hsetConversation c conv).exec s).2 := by
  have hput : forall c' conv',
      ((Op.hsetConversation c conv).exec s).2.conversationCache c' = some conv' ->
        (c' = c ∧ conv' = conv) ∨ (c' ≠ c ∧ s.conversationCache c' = some conv') := by
    intro c' conv' hcached
    by_cases hc : c' = c
    · subst hc
      have hnew := (Function.update_self c' _ _).symm.trans hcached
      exact Or.inl ⟨rfl, (Option.some.inj hnew).symm⟩
    · exact Or.inr ⟨hc, (Function.update_of_ne hc _ _).symm.trans hcached⟩
  refine ⟨h.table, h.full, ?_, ?_⟩
  · intro c' conv' _ hcached
    rcases hput c' conv' hcached with ⟨rfl, rfl⟩ | ⟨hc, hold⟩
    · exact ⟨row, hrow, hmirrors⟩
    · refine h.mirrors c' conv' ?_ hold
      rcases hexcept with rfl | rfl
      · intro heq
        cases heq
      · intro heq
        exact hc (Option.some.inj heq).symm
  · intro c' conv' hcached
    rcases hput c' conv' hcached with ⟨_, rfl⟩ | ⟨_, hold⟩
    · exact isSome_title hcacheable
    · exact h.titled c' conv' hold

theorem cacheOf_evict {s : Store} (h : CacheOf rows except s)
    (hexcept : except = none ∨ except = some c) :
    CacheOf rows none ((Op.deleteConversation c).exec s).2 := by
  have hkept : forall c' conv',
      ((Op.deleteConversation c).exec s).2.conversationCache c' = some conv' ->
        c' ≠ c ∧ s.conversationCache c' = some conv' := by
    intro c' conv' hcached
    by_cases hc : c' = c
    · subst hc
      have hnone := (Function.update_self c' _ _).symm.trans hcached
      cases hnone
    · exact ⟨hc, (Function.update_of_ne hc _ _).symm.trans hcached⟩
  refine ⟨h.table, h.full, ?_, ?_⟩
  · intro c' conv' _ hcached
    rcases hkept c' conv' hcached with ⟨hc, hold⟩
    refine h.mirrors c' conv' ?_ hold
    rcases hexcept with rfl | rfl
    · intro heq
      cases heq
    · intro heq
      exact hc (Option.some.inj heq).symm
  · exact fun c' conv' hcached => h.titled c' conv' (hkept c' conv' hcached).right

theorem uncached_of_untitled {s : Store} (h : CacheOf rows none s)
    (huntitled : forall row, rows c = some row -> row.title = none) :
    s.conversationCache c = none := by
  cases hcached : s.conversationCache c with
  | none => rfl
  | some conv =>
      rcases h.mirrors c conv (by simp) hcached with ⟨row, hrow, hmirrors⟩
      have htitled := h.titled c conv hcached
      rw [hmirrors.title, huntitled row hrow] at htitled
      cases htitled

theorem cacheOf_of_uncached {s : Store} (h : CacheOf rows (some c) s)
    (huncached : s.conversationCache c = none) : CacheOf rows none s := by
  refine ⟨h.table, h.full, ?_, h.titled⟩
  intro c' conv _ hcached
  apply h.mirrors c' conv _ hcached
  intro heq
  cases heq
  rw [huncached] at hcached
  cases hcached

theorem cacheOf_batch {s t : Store} {row : ConversationRow} (h : CacheOf rows none s)
    (htable : t.conversations = Function.update s.conversations c (some row))
    (hcache : t.conversationCache = s.conversationCache) (hfull : row.IsFull) :
    CacheOf (Function.update rows c (some row)) (some c) t := by
  refine ⟨?_, ?_, ?_, ?_⟩
  · rw [htable, h.table]
  · intro c' row' hrow
    by_cases hc : c' = c
    · subst hc
      rw [Function.update_self] at hrow
      cases hrow
      exact hfull
    · rw [Function.update_of_ne hc] at hrow
      exact h.full c' row' hrow
  · intro c' conv hne hcached
    have hc : c' ≠ c := fun heq => hne (by rw [heq])
    rw [hcache] at hcached
    rcases h.mirrors c' conv (by simp) hcached with ⟨row', hrow, hmirrors⟩
    exact ⟨row', by rw [Function.update_of_ne hc]; exact hrow, hmirrors⟩
  · rw [hcache]
    exact h.titled

/-!
# Reads
-/

def MirrorsRow (rows : UUID -> Option ConversationRow) (c : UUID) (conv : Conversation) :
    Prop :=
  exists row, rows c = some row ∧ Mirrors row conv ∧ row.IsFull

def IsOfRow (rows : UUID -> Option ConversationRow) (c : UUID) (conv : Conversation) :
    Prop :=
  exists row, rows c = some row ∧
    ConversationRepository.conversationOfRow? c row = some conv ∧ row.IsFull

theorem mirrors_conversationOfRow {row : ConversationRow} {conv : Conversation}
    (h : ConversationRepository.conversationOfRow? c row = some conv) : Mirrors row conv := by
  rcases Option.map_eq_some_iff.mp h with ⟨status, hstatus, rfl⟩
  exact ⟨rfl, rfl, hstatus, rfl, rfl⟩

theorem isOfRow_stored {s : Store} {conv : Conversation} (hs : CacheOf rows except s)
    (hstored : storedConversation s c = some (some conv)) : IsOfRow rows c conv := by
  unfold storedConversation at hstored
  rw [hs.table] at hstored
  split at hstored
  · cases hstored
  · rename_i row hrow
    rcases Option.map_eq_some_iff.mp hstored with ⟨conv', hconv, heq⟩
    cases heq
    exact ⟨row, hrow, hconv, hs.full c row hrow⟩

theorem readsAs_row : ReadsAs (CacheOf rows none) none c (IsOfRow rows c) := by
  constructor
  · intro s conv _ hcached
    cases hcached
  · intro s conv hs hstored
    exact isOfRow_stored hs hstored

theorem readsAs_mirrors :
    ReadsAs (CacheOf rows none) redisCache c (MirrorsRow rows c) := by
  constructor
  · intro s conv hs hcached
    have hcache : s.conversationCache c = some conv := by
      change (s.conversationCache c).filter _ = some conv at hcached
      exact (Option.filter_eq_some_iff.mp hcached).left
    rcases hs.mirrors c conv (by simp) hcache with ⟨row, hrow, hmirrors⟩
    exact ⟨row, hrow, hmirrors, hs.full c row hrow⟩
  · intro s conv hs hstored
    rcases isOfRow_stored hs hstored with ⟨row, hrow, hconv, hfull⟩
    exact ⟨row, hrow, mirrors_conversationOfRow hconv, hfull⟩

theorem within_get_mirrors :
    Prog.within sequential (CacheOf rows none) (ConversationReads.get redisCache c)
      (Found (MirrorsRow rows c)) (fun _ => True) := by
  apply within_conversationGet readsAs_mirrors
  intro conv s hfound _ hcacheable hs _
  rcases hfound with ⟨row, hrow, hmirrors, _⟩
  exact cacheOf_hset hs (Or.inl rfl) hrow hmirrors hcacheable

end CacheOf

/-!
# Writes
-/

section Writes

variable {rows : UUID -> Option ConversationRow} {c : UUID}

theorem wpAmid_cache {conv : Conversation} {row : ConversationRow} {s : Store}
    (hs : CacheOf rows (some c) s) (hkey : conv.conversationId = c)
    (hrow : rows c = some row) (hmirrors : Mirrors row conv)
    (hcacheable : CacheService.isCacheable conv = true) :
    Prog.wpAmid sequential
      (ConversationWrites.forCache redisCache (fun cache => cache.setConversation conv))
      (fun _ t => CacheOf rows none t) (fun _ _ => False) s := by
  show Prog.wpAmid sequential (CacheService.setConversation ⟨true⟩ conv) _ _ s
  unfold CacheService.setConversation
  rw [if_pos rfl, if_pos hcacheable, Prog.wpAmid_tryCatch, Prog.wpAmid_bind]
  refine Prog.wpAmid_perform cacheOf_elapsed hs ?_ (fun _ _ hfail => hfail.elim)
  intro t ht _
  rw [hkey]
  have hput := cacheOf_hset ht (Or.inr rfl) hrow hmirrors hcacheable
  exact Prog.wpAmid_perform cacheOf_elapsed hput (fun _ hu _ => hu)
    (fun _ _ hfail => hfail.elim)

/-- Redis refuses a conversation without a title, and nothing is changed. -/
theorem wpAmid_cache_untitled {conv : Conversation} {s : Store} (hs : CacheOf rows none s)
    (huntitled : conv.title = none) :
    Prog.wpAmid sequential
      (ConversationWrites.forCache redisCache (fun cache => cache.setConversation conv))
      (fun _ t => CacheOf rows none t) (fun _ _ => False) s := by
  have hcacheable : ¬CacheService.isCacheable conv = true := by
    intro h
    have htitled := isSome_title h
    rw [huntitled] at htitled
    cases htitled
  show Prog.wpAmid sequential (CacheService.setConversation ⟨true⟩ conv) _ _ s
  unfold CacheService.setConversation
  rw [if_pos rfl, if_neg hcacheable, Prog.wpAmid_tryCatch]
  exact hs

theorem wpAmid_evict_mirrors {s : Store} (hs : CacheOf rows (some c) s) :
    Prog.wpAmid sequential
      (ConversationWrites.forCache redisCache (fun cache => cache.deleteConversation c))
      (fun _ t => CacheOf rows none t) (fun _ _ => False) s := by
  show Prog.wpAmid sequential (CacheService.deleteConversation ⟨true⟩ c) _ _ s
  unfold CacheService.deleteConversation
  rw [if_pos rfl, Prog.wpAmid_tryCatch]
  exact Prog.wpAmid_perform cacheOf_elapsed hs
    (fun _ ht _ => cacheOf_evict ht (Or.inr rfl)) (fun _ _ hfail => hfail.elim)

/-- What `update_with_outbox` writes and returns: all of the row but its branch point. -/
structure Updated (rows : UUID -> Option ConversationRow) (c : UUID)
    (row : ConversationRow) (conv : Conversation) : Prop where
  key : conv.conversationId = c
  cacheable : conv.title.isSome = true -> CacheService.isCacheable conv = true
  mirrors : Mirrors { row with branchMessageId := none } conv
  branch : (rows c).map ConversationRow.branchMessageId = some row.branchMessageId

def KeepsTitle (rows : UUID -> Option ConversationRow) (c : UUID) (title : Option Text) :
    Prop :=
  title = none -> forall row, rows c = some row -> row.title = none

theorem keepsTitle_of_row {row : ConversationRow} {title : Option Text}
    (hrow : rows c = some row) (h : title = row.title) : KeepsTitle rows c title := by
  intro hnone row' hrow'
  rw [hrow] at hrow'
  cases hrow'
  rw [← h]
  exact hnone

theorem wpAmid_updateWithOutbox {now : Datetime} {title : Option Text}
    {status : ConversationStatus} {eventId : UUID} {eventType : Text}
    {payload : ConversationEvent} (htitle : KeepsTitle rows c title) {s : Store}
    (hs : CacheOf rows none s) :
    Prog.wpAmid sequential
      (ConversationRepository.updateWithOutbox now c title status eventId eventType payload)
      (fun r t =>
        match r with
        | none => CacheOf rows none t
        | some conv => exists row, CacheOf (Function.update rows c (some row)) (some c) t ∧
            Updated rows c row conv ∧
            (conv.title = none -> t.conversationCache c = none))
      (fun _ t => CacheOf rows none t) s := by
  unfold ConversationRepository.updateWithOutbox
  rw [Prog.wpAmid_bind]
  refine Prog.wpAmid_mono
    (Prog.wpAmid_of_within cacheOf_elapsed (within_repositoryGet readsAs_row) hs) ?_
    (fun _ t ht => ht.left)
  intro found t ht
  cases found with
  | none => exact ht.left
  | some conv =>
      rcases ht.right conv rfl with ⟨⟨old, hold, hconv, hfull⟩, hkey⟩
      dsimp only
      rw [Prog.wpAmid_bind]
      refine Prog.wpAmid_mono
        (Prog.wpAmid_of_within cacheOf_elapsed (within_cqlOptionalText title) ht.left) ?_
        (fun _ t ht => ht.left)
      intro text t ht
      have htext : text.isSome = title.isSome := ht.right
      rw [Prog.wpAmid_bind]
      refine Prog.wpAmid_mono
        (Prog.wpAmid_of_within cacheOf_elapsed (within_catalogOwner conv) ht.left) ?_
        (fun _ t ht => ht.left)
      intro owner t ht
      rw [Prog.wpAmid_bind]
      refine Prog.wpAmid_perform cacheOf_elapsed ht.left ?_ (fun t ht _ => ht)
      intro t ht _
      rw [Prog.wpAmid_pure]
      have hrow : t.conversations c = some old := by
        rw [ht.table]
        exact hold
      refine ⟨.updated text now status (some old), ?_, ?_, ?_⟩
      · refine cacheOf_batch ht ?_ rfl ⟨hfull.userId, hfull.createdAt, rfl, rfl⟩
        rw [← hrow]
        rfl
      · rcases Option.map_eq_some_iff.mp hconv with ⟨oldStatus, _, rfl⟩
        refine ⟨rfl, ?_, ⟨rfl, rfl, rfl, rfl, rfl⟩, ?_⟩
        · intro htitled
          have htextSome : text.isSome = true := htitled
          unfold CacheService.isCacheable
          simp [ConversationRepository.updatedConversation, hfull.createdAt, htextSome]
        · rw [hold]
          rfl
      · intro huntitled
        have hnone : text = none := huntitled
        have htitleNone : title = none := by
          rw [hnone] at htext
          exact Option.not_isSome_iff_eq_none.mp (by rw [← htext]; exact Bool.false_ne_true)
        -- the batch does not touch the cache
        exact (uncached_of_untitled ht (htitle htitleNone) : t.conversationCache c = none)

theorem coherent_of_cacheOf {s : Store} (h : CacheOf rows none s) : CacheCoherent s := by
  unfold CacheCoherent
  rw [h.table]
  exact h

def HasNoBranchPoint (rows : UUID -> Option ConversationRow) (c : UUID) : Prop :=
  forall row, rows c = some row -> row.branchMessageId = none

theorem wpAmid_updateThrough {reads : ConversationReadings} {title : Option Text}
    {status : ConversationStatus} {event : ConversationEvent}
    (htitle : KeepsTitle rows c title) (hbranch : HasNoBranchPoint rows c) {s : Store}
    (hs : CacheOf rows none s) :
    Prog.wpAmid sequential
      (ConversationWrites.updateThrough redisCache reads c title status event)
      (fun _ t => CacheCoherent t) (fun _ t => CacheCoherent t) s := by
  unfold ConversationWrites.updateThrough
  rw [Prog.wpAmid_bind]
  refine Prog.wpAmid_mono (wpAmid_updateWithOutbox htitle hs) ?_
    (fun _ t ht => coherent_of_cacheOf ht)
  intro updated t ht
  cases updated with
  | none => exact coherent_of_cacheOf ht
  | some conv =>
      rcases ht with ⟨row, ht, hupdated, huncached⟩
      have hnone : row.branchMessageId = none := by
        rcases Option.map_eq_some_iff.mp hupdated.branch with ⟨old, hold, hsame⟩
        rw [← hsame]
        exact hbranch old hold
      have hmirrors : Mirrors row conv := by
        have hpartial := hupdated.mirrors
        rw [← hnone] at hpartial
        exact hpartial
      have hcache : Prog.wpAmid sequential
          (ConversationWrites.forCache redisCache (fun cache => cache.setConversation conv))
          (fun _ t => CacheOf (Function.update rows c (some row)) none t)
          (fun _ _ => False) t := by
        cases htitled : conv.title with
        | some _ =>
            exact wpAmid_cache ht hupdated.key (Function.update_self _ _ _) hmirrors
              (hupdated.cacheable (by rw [htitled]; rfl))
        | none =>
            exact wpAmid_cache_untitled (cacheOf_of_uncached ht (huncached htitled)) htitled
      dsimp only
      rw [Prog.wpAmid_bind]
      refine Prog.wpAmid_mono hcache ?_ (fun _ _ h => h.elim)
      intro _ u hu
      exact coherent_of_cacheOf hu

theorem wpAmid_rename_mirrors (reads : ConversationReadings) (newTitle : Text)
    (hbranch : HasNoBranchPoint rows c) {s : Store} (hs : CacheOf rows none s) :
    Prog.wpAmid sequential (ConversationWrites.rename redisCache reads c newTitle)
      (fun _ t => CacheCoherent t) (fun _ t => CacheCoherent t) s := by
  unfold ConversationWrites.rename
  rw [Prog.wpAmid_bind]
  refine Prog.wpAmid_mono (Prog.wpAmid_of_within cacheOf_elapsed within_get_mirrors hs) ?_
    (fun _ t ht => coherent_of_cacheOf ht.left)
  intro found t ht
  cases found with
  | none => exact coherent_of_cacheOf ht.left
  | some conv =>
      have htitle : KeepsTitle rows c (some newTitle) := fun hnone => nomatch hnone
      exact wpAmid_updateThrough htitle hbranch ht.left

theorem wpAmid_archive_mirrors (reads : ConversationReadings)
    (hbranch : HasNoBranchPoint rows c) {s : Store} (hs : CacheOf rows none s) :
    Prog.wpAmid sequential (ConversationWrites.archive redisCache reads c)
      (fun _ t => CacheCoherent t) (fun _ t => CacheCoherent t) s := by
  unfold ConversationWrites.archive
  rw [Prog.wpAmid_bind]
  refine Prog.wpAmid_mono (Prog.wpAmid_of_within cacheOf_elapsed within_get_mirrors hs) ?_
    (fun _ t ht => coherent_of_cacheOf ht.left)
  intro found t ht
  cases found with
  | none => exact coherent_of_cacheOf ht.left
  | some conv =>
      rcases ht.right conv rfl with ⟨row, hrow, hmirrors, _⟩
      exact wpAmid_updateThrough (keepsTitle_of_row hrow hmirrors.title) hbranch ht.left

theorem wpAmid_delete_mirrors (reads : ConversationReadings) {s : Store}
    (hs : CacheOf rows none s) :
    Prog.wpAmid sequential (ConversationWrites.delete redisCache reads c)
      (fun _ t => CacheCoherent t) (fun _ t => CacheCoherent t) s := by
  unfold ConversationWrites.delete ConversationRepository.deleteWithOutbox
  rw [Prog.wpAmid_bind]
  refine Prog.wpAmid_mono (Prog.wpAmid_of_within cacheOf_elapsed within_get_mirrors hs) ?_
    (fun _ t ht => coherent_of_cacheOf ht.left)
  intro found t ht
  cases found with
  | none => exact coherent_of_cacheOf ht.left
  | some conv =>
      dsimp only
      rw [Prog.wpAmid_bind, Prog.wpAmid_bind]
      refine Prog.wpAmid_mono
        (Prog.wpAmid_of_within cacheOf_elapsed (within_repositoryGet readsAs_row) ht.left)
        ?_ (fun _ t ht => coherent_of_cacheOf ht.left)
      intro stored t ht
      cases stored with
      | none => exact coherent_of_cacheOf ht.left
      | some stored =>
          rcases ht.right stored rfl with ⟨⟨row, hrow, hstored, _⟩, _⟩
          have htitle : KeepsTitle rows c stored.title :=
            keepsTitle_of_row hrow (mirrors_conversationOfRow hstored).title
          dsimp only
          rw [Prog.wpAmid_bind]
          refine Prog.wpAmid_mono (wpAmid_updateWithOutbox htitle ht.left) ?_
            (fun _ t ht => coherent_of_cacheOf ht)
          intro updated t ht
          cases updated with
          | none => exact coherent_of_cacheOf ht
          | some conv =>
              rcases ht with ⟨row, ht, _⟩
              rw [Prog.wpAmid_pure]
              dsimp only [Option.isSome]
              rw [if_pos rfl, Prog.wpAmid_bind]
              refine Prog.wpAmid_mono (wpAmid_evict_mirrors ht) ?_ (fun _ _ h => h.elim)
              intro _ u hu
              exact coherent_of_cacheOf hu

theorem wpAmid_setTitle_mirrors (now : Datetime) (title : Json) {s : Store}
    (hs : CacheOf rows none s) :
    Prog.wpAmid sequential (ConversationWrites.setTitle redisCache now c title)
      (fun _ t => CacheCoherent t) (fun _ t => CacheCoherent t) s := by
  unfold ConversationWrites.setTitle ConversationRepository.updateTitle
  rw [Prog.wpAmid_bind, Prog.wpAmid_bind]
  refine Prog.wpAmid_mono
    (Prog.wpAmid_of_within cacheOf_elapsed (within_repositoryGet readsAs_row) hs) ?_
    (fun _ t ht => coherent_of_cacheOf ht.left)
  intro found t ht
  cases found with
  | none => exact coherent_of_cacheOf ht.left
  | some conv =>
      rcases ht.right conv rfl with ⟨⟨old, hold, _, hfull⟩, _⟩
      dsimp only
      rw [Prog.wpAmid_bind]
      refine Prog.wpAmid_mono
        (Prog.wpAmid_of_within cacheOf_elapsed (within_cqlNullableText title) ht.left) ?_
        (fun _ t ht => coherent_of_cacheOf ht.left)
      intro text t ht
      rw [Prog.wpAmid_bind]
      refine Prog.wpAmid_mono
        (Prog.wpAmid_of_within cacheOf_elapsed (within_catalogOwner conv) ht.left) ?_
        (fun _ t ht => coherent_of_cacheOf ht.left)
      intro owner t ht
      rw [Prog.wpAmid_bind]
      refine Prog.wpAmid_perform cacheOf_elapsed ht.left ?_
        (fun t ht _ => coherent_of_cacheOf ht)
      intro t ht _
      have hrow : t.conversations c = some old := by
        rw [ht.table]
        exact hold
      rw [Prog.wpAmid_pure]
      dsimp only
      rw [if_pos rfl, Prog.wpAmid_bind]
      have hnew : (ConversationRow.retitled text now (some old)).IsFull :=
        ⟨hfull.userId, hfull.createdAt, rfl, hfull.status⟩
      refine Prog.wpAmid_mono (wpAmid_evict_mirrors (cacheOf_batch ht ?_ rfl hnew)) ?_
        (fun _ _ h => h.elim)
      · rw [← hrow]
        rfl
      · intro _ u hu
        exact coherent_of_cacheOf hu

theorem within_branchPoint (messageRepo : Bool) (parentId : UUID)
    (branchMessageId : Option UUID) :
    Prog.within sequential (CacheOf rows none)
      (ConversationWrites.branchPoint messageRepo parentId branchMessageId)
      (fun _ => True) (fun _ => True) := by
  unfold ConversationWrites.branchPoint
  split
  · cases branchMessageId with
    | some id =>
        have hread : Prog.within sequential (CacheOf rows none)
            (MessageRepository.getMessage parentId id) (fun _ => True) (fun _ => True) := by
          apply Prog.within_bind
          exact within_perform (fun _ hs _ => hs) (fun _ _ => trivial)
        apply Prog.within_bind
        refine Prog.within_mono hread ?_ (fun _ _ => trivial)
        intro message _
        cases message with
        | none => trivial
        | some _ => trivial
    | none =>
        have hread : Prog.within sequential (CacheOf rows none)
            (MessageRepository.history parentId 1 none) (fun _ => True)
            (fun _ => True) := by
          apply Prog.within_bind
          exact within_perform (fun _ hs _ => hs) (fun _ _ => trivial)
        apply Prog.within_bind
        exact Prog.within_mono hread (fun _ _ => trivial) (fun _ _ => trivial)
  · trivial

theorem within_checkParent (messageRepo : Bool) (userId : UUID)
    (parentConversationId branchMessageId : Option UUID) :
    Prog.within sequential (CacheOf rows none)
      (ConversationWrites.checkParent redisCache messageRepo userId parentConversationId
        branchMessageId) (fun _ => True) (fun _ => True) := by
  unfold ConversationWrites.checkParent
  cases parentConversationId with
  | none => trivial
  | some parentId =>
      apply Prog.within_bind
      refine Prog.within_mono within_get_mirrors ?_ (fun _ _ => trivial)
      intro parent _
      cases parent with
      | none => trivial
      | some parent =>
          dsimp only
          split
          · trivial
          · split
            · trivial
            · exact within_branchPoint messageRepo parentId branchMessageId

theorem wpAmid_create_mirrors (reads : ConversationReadings) (userId : UUID)
    (title : Text) (parentConversationId branchMessageId : Option UUID)
    (messageRepo : Bool) {s : Store} (hs : CacheOf rows none s) :
    Prog.wpAmid sequential
      (ConversationWrites.create redisCache reads userId title parentConversationId
        branchMessageId messageRepo)
      (fun _ t => CacheCoherent t) (fun _ t => CacheCoherent t) s := by
  unfold ConversationWrites.create ConversationRepository.createWithOutbox
  rw [Prog.wpAmid_bind]
  refine Prog.wpAmid_mono
    (Prog.wpAmid_of_within cacheOf_elapsed (within_checkParent _ _ _ _) hs) ?_
    (fun _ t ht => coherent_of_cacheOf ht.left)
  intro branch t ht
  rw [Prog.wpAmid_bind, Prog.wpAmid_bind]
  refine Prog.wpAmid_mono
    (Prog.wpAmid_of_within cacheOf_elapsed (within_cqlText _) ht.left) ?_
    (fun _ t ht => coherent_of_cacheOf ht.left)
  intro text t ht
  rw [Prog.wpAmid_bind]
  refine Prog.wpAmid_perform cacheOf_elapsed ht.left ?_
    (fun t ht _ => coherent_of_cacheOf ht)
  intro t ht _
  rw [Prog.wpAmid_pure, Prog.wpAmid_bind]
  refine Prog.wpAmid_mono
    (wpAmid_cache (cacheOf_batch ht rfl rfl ⟨rfl, rfl, rfl, rfl⟩) rfl
      (Function.update_self _ _ _) ⟨rfl, rfl, rfl, rfl, rfl⟩ rfl) ?_ (fun _ _ h => h.elim)
  intro _ u hu
  exact coherent_of_cacheOf hu

end Writes

/-!
# Sequences of calls
-/

/-- A call renames or archives no conversation that has a branch point. -/
def KeepsBranchPoint (s : Store) : ConversationCall -> Prop
  | .rename _ c _ => HasNoBranchPoint s.conversations c
  | .archive _ c => HasNoBranchPoint s.conversations c
  | _ => True

/-- One call, run to its end, or the passing of time. -/
inductive CallStep (guard : Store -> ConversationCall -> Prop) : Store -> Store -> Prop where
  | call (call : ConversationCall) (r : Except PyExc Unit) {s t : Store} :
      guard s call -> Prog.FinishesAmid sequential (call.program redisCache) s r t ->
      CallStep guard s t
  | elapse {s t : Store} : Elapsed s t -> CallStep guard s t

def CallRuns (guard : Store -> ConversationCall -> Prop) : Store -> Store -> Prop :=
  Relation.ReflTransGen (CallStep guard)

theorem coherent_elapsed : StableUnder Elapsed CacheCoherent := by
  intro s t helapsed h
  have hsame : t.conversations = s.conversations := by rw [helapsed.rest]
  unfold CacheCoherent
  rw [hsame]
  exact cacheOf_elapsed s t helapsed h

theorem wpAmid_ignoreResult {alpha : Type} {p : Py alpha} {K : Store -> Prop} {s : Store}
    (h : Prog.wpAmid sequential p (fun _ t => K t) (fun _ t => K t) s) :
    Prog.wpAmid sequential (ignoreResult p) (fun _ t => K t) (fun _ t => K t) s := by
  unfold ignoreResult
  rw [Prog.wpAmid_bind]
  exact h

theorem coherent_call {call : ConversationCall} {r : Except PyExc Unit} {s t : Store}
    (hguard : KeepsBranchPoint s call) (hs : CacheCoherent s)
    (hfin : Prog.FinishesAmid sequential (call.program redisCache) s r t) :
    CacheCoherent t := by
  have hwp : Prog.wpAmid sequential (call.program redisCache) (fun _ t => CacheCoherent t)
      (fun _ t => CacheCoherent t) s := by
    cases call with
    | create reads userId title parent branch messageRepo =>
        exact wpAmid_ignoreResult
          (wpAmid_create_mirrors reads userId title parent branch messageRepo hs)
    | get c =>
        apply wpAmid_ignoreResult
        refine Prog.wpAmid_mono
          (Prog.wpAmid_of_within cacheOf_elapsed within_get_mirrors hs) ?_ ?_
        · intro _ t ht
          exact coherent_of_cacheOf ht.left
        · intro _ t ht
          exact coherent_of_cacheOf ht.left
    | rename reads c newTitle =>
        exact wpAmid_ignoreResult (wpAmid_rename_mirrors reads newTitle hguard hs)
    | archive reads c => exact wpAmid_ignoreResult (wpAmid_archive_mirrors reads hguard hs)
    | delete reads c => exact wpAmid_ignoreResult (wpAmid_delete_mirrors reads hs)
    | setTitle now c title => exact wpAmid_ignoreResult (wpAmid_setTitle_mirrors now title hs)
  have hend := Prog.wpAmid_finishes (fun _ => coherent_elapsed) (fun _ => coherent_elapsed)
    hwp hfin
  cases r with
  | ok a => exact hend
  | error e => exact hend

theorem coherent_runs {s t : Store} (hs : CacheCoherent s)
    (hrun : CallRuns KeepsBranchPoint s t) : CacheCoherent t := by
  induction hrun with
  | refl => exact hs
  | tail _ hstep ih =>
      cases hstep with
      | call call r hguard hfin => exact coherent_call hguard ih hfin
      | elapse helapsed => exact coherent_elapsed _ _ helapsed ih

/-!
# What is read
-/

/-- The conversations agree on all that the claims on a chain of branches depend on. -/
structure SameConversation (a b : Conversation) : Prop where
  userId : a.userId = b.userId
  title : a.title = b.title
  status : a.status = b.status
  parent : a.parentConversationId = b.parentConversationId
  branch : a.branchMessageId = b.branchMessageId

/-- Two reads find the same conversation, or none, or raise. -/
def SameFound : Option (Option Conversation) -> Option (Option Conversation) -> Prop
  | some (some a), some (some b) => SameConversation a b
  | some none, some none => True
  | none, none => True
  | _, _ => False

/-- Two chains with the same ancestors, the same boundaries and the same end. -/
structure SameBoundaries (l l' : Lineage) : Prop where
  segments : l.segments.map (fun seg => (seg.conversationId, seg.uptoMessageId)) =
    l'.segments.map (fun seg => (seg.conversationId, seg.uptoMessageId))
  truncated : l.truncated = l'.truncated

/-- Reading through the cache and from the table comes to the same. -/
structure ReadsAgree (s : Store) : Prop where
  get : forall c r t r' t',
    Prog.Finishes storageMachine noFault (ConversationReads.get redisCache c) s r t ->
    Prog.Finishes storageMachine noFault (ConversationRepository.get c) s r' t' ->
    SameFound r.toOption r'.toOption
  lineage : forall conv conv' r t r' t',
    conv.conversationId = conv'.conversationId -> SameConversation conv conv' ->
    Prog.Finishes storageMachine noFault (BranchContextService.lineage redisCache conv) s
      r t ->
    Prog.Finishes storageMachine noFault (BranchContextService.lineage none conv') s
      r' t' ->
    Option.Rel SameBoundaries r.toOption r'.toOption

theorem SameFound.branch {a b : Option (Option Conversation)} (h : SameFound a b) :
    a.map (Option.map Conversation.branchMessageId) =
      b.map (Option.map Conversation.branchMessageId) := by
  match a, b with
  | some (some a), some (some b) =>
      have hsame : SameConversation a b := h
      simp [hsame.branch]
  | some none, some none => rfl
  | none, none => rfl

theorem sameFound_of_coherent {s : Store} (h : CacheCoherent s) (c : UUID) :
    SameFound (findConversation redisCache s c) (storedConversation s c) := by
  have hrefl : forall found : Option (Option Conversation), SameFound found found := by
    intro found
    match found with
    | some (some conv) => exact ⟨rfl, rfl, rfl, rfl, rfl⟩
    | some none => trivial
    | none => trivial
  unfold findConversation
  split
  · rename_i conv hcached
    rcases readsAs_mirrors.cached s conv h hcached with ⟨row, hrow, hmirrors, _⟩
    unfold storedConversation ConversationRepository.conversationOfRow?
    rw [hrow]
    dsimp only
    rw [hmirrors.status]
    exact ⟨hmirrors.userId, hmirrors.title, rfl, hmirrors.parent, hmirrors.branch⟩
  · exact hrefl _

theorem toOption_get {cache : Option CacheService} {c : UUID} {s t : Store}
    {r : Except PyExc (Option Conversation)}
    (hfin : Prog.Finishes storageMachine noFault (ConversationReads.get cache c) s r t) :
    r.toOption = findConversation cache s c := by
  have hwp : Prog.wp storageMachine noFault (ConversationReads.get cache c)
      (fun found _ => findConversation cache s c = some found)
      (fun _ _ => findConversation cache s c = none) s := by
    apply wp_conversationGet
    · intro conv _ hfound _
      exact hfound
    · intro hnone
      exact hnone
  have hend := Prog.wp_finishes hwp hfin
  cases r with
  | ok found => exact hend.symm
  | error e => exact hend.symm

theorem toOption_repositoryGet {c : UUID} {s t : Store}
    {r : Except PyExc (Option Conversation)}
    (hfin : Prog.Finishes storageMachine noFault (ConversationRepository.get c) s r t) :
    r.toOption = storedConversation s c := by
  have hwp : Prog.wp storageMachine noFault (ConversationRepository.get c)
      (fun found _ => storedConversation s c = some found)
      (fun _ _ => storedConversation s c = none) s :=
    wp_repositoryGet c (fun _ hfound => hfound) id
  have hend := Prog.wp_finishes hwp hfin
  cases r with
  | ok found => exact hend.symm
  | error e => exact hend.symm

theorem toOption_lineage {cache : Option CacheService} {conv : Conversation}
    {s t : Store} {r : Except PyExc Lineage}
    (hfin : Prog.Finishes storageMachine noFault (BranchContextService.lineage cache conv)
      s r t) : r.toOption = ancestry cache s conv := by
  have hwp : Prog.wp storageMachine noFault (BranchContextService.lineage cache conv)
      (fun l _ => ancestry cache s conv = some l) (fun _ _ => ancestry cache s conv = none)
      s := by
    apply wp_lineageFrom
    · intro l _ hl _
      exact hl
    · intro _ hnone _
      exact hnone
  have hend := Prog.wp_finishes hwp hfin
  cases r with
  | ok l => exact hend.symm
  | error e => exact hend.symm

theorem lineageOf_same {find find' : UUID -> Option (Option Conversation)}
    (hfind : forall c, SameFound (find c) (find' c)) (owner : Option UUID) (depth : Nat)
    (seen : List UUID) {cur cur' : Conversation} {chain chain' : List Segment}
    (hcur : SameConversation cur cur')
    (hchain : chain.map (fun seg => (seg.conversationId, seg.uptoMessageId)) =
      chain'.map (fun seg => (seg.conversationId, seg.uptoMessageId))) :
    Option.Rel SameBoundaries (lineageOf find owner depth seen cur chain)
      (lineageOf find' owner depth seen cur' chain') := by
  induction depth generalizing seen cur cur' chain chain' with
  | zero =>
      unfold lineageOf
      rw [hcur.parent]
      cases cur'.parentConversationId with
      | none => exact Option.Rel.some ⟨hchain, rfl⟩
      | some parentId => exact Option.Rel.some ⟨hchain, rfl⟩
  | succ depth ih =>
      unfold lineageOf
      rw [hcur.parent]
      cases cur'.parentConversationId with
      | none => exact Option.Rel.some ⟨hchain, rfl⟩
      | some parentId =>
          dsimp only
          split
          · exact Option.Rel.some ⟨hchain, rfl⟩
          · have hparent := hfind parentId
            rcases hfound : find parentId with _ | _ | parent
            · rcases hfound' : find' parentId with _ | _
              · exact Option.Rel.none
              · rw [hfound, hfound'] at hparent
                exact hparent.elim
            · rcases hfound' : find' parentId with _ | _ | _
              · rw [hfound, hfound'] at hparent
                exact hparent.elim
              · exact Option.Rel.some ⟨hchain, rfl⟩
              · rw [hfound, hfound'] at hparent
                exact hparent.elim
            · rcases hfound' : find' parentId with _ | _ | parent'
              · rw [hfound, hfound'] at hparent
                exact hparent.elim
              · rw [hfound, hfound'] at hparent
                exact hparent.elim
              · rw [hfound, hfound'] at hparent
                have hsame : SameConversation parent parent' := hparent
                dsimp only
                rw [hsame.userId, hsame.status]
                split
                · exact Option.Rel.some ⟨hchain, rfl⟩
                · split
                  · exact Option.Rel.some ⟨hchain, rfl⟩
                  · apply ih _ hsame
                    rw [List.map_cons, List.map_cons, hchain]
                    unfold BranchContextService.segmentOf
                    rw [hcur.branch]

theorem readsAgree_of_coherent {s : Store} (h : CacheCoherent s) : ReadsAgree s := by
  constructor
  · intro c r t r' t' hfin hfin'
    rw [toOption_get hfin, toOption_repositoryGet hfin']
    exact sameFound_of_coherent h c
  · intro conv conv' r t r' t' hid hsame hfin hfin'
    rw [toOption_lineage hfin, toOption_lineage hfin']
    unfold ancestry
    rw [hid, hsame.userId]
    exact lineageOf_same (sameFound_of_coherent h) _ _ _ hsame rfl

/-- Without renames and archivings of branches, the cache says what the table says. -/
theorem cache_coherent {s t : Store} (hs : CacheCoherent s)
    (hrun : CallRuns KeepsBranchPoint s t) : ReadsAgree t :=
  readsAgree_of_coherent (coherent_runs hs hrun)

/-!
# A renamed branch
-/

def ConversationCall.after (call : ConversationCall) (s : Store) : Store :=
  (Prog.run storageMachine (fun _ => false) (call.program redisCache) s).2

theorem callStep_after {guard : Store -> ConversationCall -> Prop} {s : Store}
    {call : ConversationCall} (hguard : guard s call) :
    CallStep guard s (call.after s) :=
  CallStep.call call _ hguard (Prog.finishesAmid_run (fun _ _ => trivial) _ s)

theorem coherent_of_empty {s : Store} (hrows : s.conversations = fun _ => none)
    (hcache : s.conversationCache = fun _ => none) : CacheCoherent s := by
  refine ⟨rfl, ?_, ?_, ?_⟩
  · intro c row hrow
    rw [hrows] at hrow
    cases hrow
  · intro c conv _ hcached
    rw [hcache] at hcached
    cases hcached
  · intro c conv hcached
    rw [hcache] at hcached
    cases hcached

def storeWithMessage : Store :=
  Store.blank.upsertMessage (.ofInt 1) (.ofInt 7)
    (Row.staged .user (text "hi") ⟨1000, true⟩ .sent [])

def createParent : ConversationCall :=
  .create (.at 2 (.ofInt 1)) (.ofInt 5) (text "A") none none true

def createBranch : ConversationCall :=
  .create (.at 3 (.ofInt 2)) (.ofInt 5) (text "B") (some (.ofInt 1)) none true

/-- A conversation that is no branch is renamed, and read back with its new title. -/
theorem cache_coherent_renamed :
    ReadsAgree ((ConversationCall.rename (.at 3 (.ofInt 4)) (.ofInt 1) (text "C")).after
      (createParent.after storeWithMessage)) := by
  have hcreate : CallStep KeepsBranchPoint storeWithMessage
      (createParent.after storeWithMessage) := callStep_after trivial
  apply cache_coherent (s := storeWithMessage) (coherent_of_empty rfl rfl)
  refine Relation.ReflTransGen.tail (Relation.ReflTransGen.single hcreate) ?_
  apply callStep_after
  intro row hrow
  have hbranch : ((createParent.after storeWithMessage).conversations (.ofInt 1)).map
      ConversationRow.branchMessageId = some none := by
    decide
  rw [hrow] at hbranch
  exact Option.some.inj hbranch

/-- A branch that is renamed is cached without its branch point. -/
theorem renamed_branch_incoherent :
    ¬forall s t : Store, CacheCoherent s -> CallRuns (fun _ _ => True) s t ->
      ReadsAgree t := by
  intro h
  let t := (ConversationCall.rename (.at 4 (.ofInt 4)) (.ofInt 2) (text "C")).after
    (createBranch.after (createParent.after storeWithMessage))
  have hrun : CallRuns (fun _ _ => True) storeWithMessage t :=
    Relation.ReflTransGen.tail
      (Relation.ReflTransGen.tail
        (Relation.ReflTransGen.single (callStep_after trivial)) (callStep_after trivial))
      (callStep_after trivial)
  have hagree := h storeWithMessage t (coherent_of_empty rfl rfl) hrun
  rcases exists_finishes_noFault (ConversationReads.get redisCache (.ofInt 2)) t with
    ⟨r, u, hfin⟩
  rcases exists_finishes_noFault (ConversationRepository.get (.ofInt 2)) t with
    ⟨r', u', hfin'⟩
  have hsame := (hagree.get (.ofInt 2) r u r' u' hfin hfin').branch
  have hcached : (findConversation redisCache t (.ofInt 2)).map
      (Option.map Conversation.branchMessageId) = some (some none) := by
    decide
  have hstored : (storedConversation t (.ofInt 2)).map
      (Option.map Conversation.branchMessageId) = some (some (some (.ofInt 7))) := by
    decide
  rw [toOption_get hfin, toOption_repositoryGet hfin', hcached, hstored] at hsame
  cases hsame

end ConversationService
