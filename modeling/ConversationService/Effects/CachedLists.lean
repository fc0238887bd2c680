import ConversationService.Effects.CachedHistory
import ConversationService.Effects.CachedReads
import ConversationService.Effects.Operations
import ConversationService.Effects.SanitizedCitations
import ConversationService.Model.MessageCalls

/-!
# Cached lists of messages

A cached list is a beginning of what the rows of the conversation show. Reads through the
cache keep that so, a write of a row breaks it for its conversation, and the eviction
behind the write makes it good again. Cached lists may expire between any two operations.
-/

namespace ConversationService

open Python ClusteredTable Programs

/-- What rows show of their conversation. -/
def liveMessages (c : UUID) (rows : List (UUID × Row)) : List Message :=
  rows.filterMap (MessageRepository.liveMessage c)

/-- Redis does not fail; the databases may. -/
def Op.IsOnDatabase : Op -> Prop
  | .selectHistory _ _ _ => True
  | .selectHistoryUpto _ _ _ => True
  | .selectMessage _ _ => True
  | .insertMessage _ _ _ _ _ _ _ => True
  | .updateDeleted _ _ => True
  | .batchMessageOutbox _ _ _ _ _ _ _ _ _ _ => True
  | .selectConversation _ => True
  | .selectPreferences _ => True
  | .selectCustomMode _ _ => True
  | _ => False

/-- Nobody else is at work, but keys of Redis may expire. -/
def oneByOne : Surroundings storage Store :=
  amid Op.IsOnDatabase (fun _ _ => True) Elapsed

/-- The citations of all rows are as this code writes them. -/
def CitationsSettled (messages : UUID -> Partition UUID Row) : Prop :=
  forall c m row, (messages c).get m = some row -> IsWritten row.citations

/-- Every cached list is a beginning of what the rows show, and not an empty one. -/
def ListsFrom (messages : UUID -> Partition UUID Row) (s : Store) : Prop :=
  forall c items, s.historyCache c = some items ->
    items ≠ [] ∧ items <+: liveMessages c (messages c).rows

structure HistoryCoherent (s : Store) : Prop where
  settled : CitationsSettled s.messages
  lists : ListsFrom s.messages s

structure Reading (messages : UUID -> Partition UUID Row) (s : Store) : Prop where
  rows : s.messages = messages
  coherent : HistoryCoherent s

/-- Rows of one conversation may have been written. -/
structure Writing (messages : UUID -> Partition UUID Row) (c : UUID) (s : Store) :
    Prop where
  others : forall c', c' ≠ c -> s.messages c' = messages c'
  settled : CitationsSettled s.messages
  lists : ListsFrom messages s

section Invariants

variable {messages : UUID -> Partition UUID Row} {c : UUID} {s t : Store}

theorem Reading.writing (h : Reading messages s) (c : UUID) : Writing messages c s := by
  rcases h with ⟨rfl, hsettled, hlists⟩
  exact ⟨fun _ _ => rfl, hsettled, hlists⟩

theorem reading_self (h : HistoryCoherent s) : Reading s.messages s := ⟨rfl, h⟩

theorem listsFrom_of_cache (h : ListsFrom messages s)
    (hcache : forall c, t.historyCache c = s.historyCache c ∨ t.historyCache c = none) :
    ListsFrom messages t := by
  intro c items hitems
  rcases hcache c with hsame | hnone
  · rw [hsame] at hitems
    exact h c items hitems
  · rw [hnone] at hitems
    cases hitems

theorem reading_of_same (h : Reading messages s) (hrows : t.messages = s.messages)
    (hcache : forall c, t.historyCache c = s.historyCache c ∨ t.historyCache c = none) :
    Reading messages t := by
  refine ⟨hrows.trans h.rows, ?_, ?_⟩
  · rw [hrows]
    exact h.coherent.settled
  · rw [hrows]
    exact listsFrom_of_cache h.coherent.lists hcache

theorem messages_elapsed (h : Elapsed s t) : t.messages = s.messages := by
  rw [h.rest]

theorem reading_elapsed : StableUnder Elapsed (Reading messages) :=
  fun _ _ helapsed h =>
    reading_of_same h (messages_elapsed helapsed) helapsed.historyCache

theorem writing_elapsed : StableUnder Elapsed (Writing messages c) := by
  intro s t helapsed h
  refine ⟨?_, ?_, listsFrom_of_cache h.lists helapsed.historyCache⟩
  · rw [messages_elapsed helapsed]
    exact h.others
  · rw [messages_elapsed helapsed]
    exact h.settled

theorem historyCoherent_elapsed : StableUnder Elapsed HistoryCoherent :=
  fun _ _ helapsed h => (reading_elapsed _ _ helapsed (reading_self h)).coherent

end Invariants

/-!
# What a cached list shows
-/

namespace Citations

theorem sanitize_loads {column : Option Json} (h : IsWritten column) :
    sanitizeCitations (toJson (loadsCitations column)) = some (loadsCitations column) := by
  have hnil : sanitizeCitations (toJson []) = some [] := by
    decide
  rcases h with ⟨citations, hcolumn⟩
  unfold citationsColumn at hcolumn
  rcases Option.map_eq_some_iff.mp hcolumn with ⟨clean, hclean, rfl⟩
  split at hclean
  · rw [sanitize_itemsOf] at hclean
    have hkeeps := keeps_of_sanitize hclean
    split
    · exact hnil
    · unfold loadsCitations
      dsimp only
      rw [sanitize_again hkeeps]
      exact sanitize_stable hkeeps
  · cases hclean
    exact hnil

end Citations

section Shown

variable {messages : UUID -> Partition UUID Row} {c : UUID}

theorem cachedMessage_live {entry : UUID × Row} {msg : Message}
    (hwritten : IsWritten entry.2.citations)
    (h : MessageRepository.liveMessage c entry = some msg) :
    CacheService.cachedMessage msg = some msg := by
  rcases Option.map_eq_some_iff.mp h with ⟨status, _, rfl⟩
  unfold CacheService.cachedMessage
  have hstable : Citations.sanitizeCitations (Citations.toJson
      (MessageRepository.rowMessage c entry.1 status entry.2).citations) =
      some (MessageRepository.rowMessage c entry.1 status entry.2).citations :=
    Citations.sanitize_loads hwritten
  rw [hstable]
  rfl

theorem mapM_cachedMessage (hsettled : CitationsSettled messages) {items : List Message}
    (h : forall msg, msg ∈ items -> msg ∈ liveMessages c (messages c).rows) :
    items.mapM CacheService.cachedMessage = some items := by
  induction items with
  | nil => rfl
  | cons msg rest ih =>
      rcases List.mem_filterMap.mp (h msg (by simp)) with ⟨entry, hentry, hlive⟩
      have hwritten := hsettled c entry.1 entry.2 ((Partition.get_eq_some_iff _ _ _).mpr hentry)
      rw [List.mapM_cons, cachedMessage_live hwritten hlive,
        ih (fun m hm => h m (List.mem_cons_of_mem _ hm))]
      rfl

theorem liveMessages_take (rows : List (UUID × Row)) (n : Nat) :
    liveMessages c (rows.take n) <+: liveMessages c rows := by
  conv_rhs => rw [← List.take_append_drop n rows]
  unfold liveMessages
  rw [List.filterMap_append]
  exact List.prefix_append _ _

end Shown

/-!
# Operations
-/

/-- An operation that writes no row of a message and fills no list. -/
def Op.KeepsLists : Op -> Prop
  | .insertMessage _ _ _ _ _ _ _ => False
  | .updateDeleted _ _ => False
  | .batchMessageOutbox _ _ _ _ _ _ _ _ _ _ => False
  | .deleteAllMessages _ => False
  | .rpushHistory _ _ => False
  | _ => True

/-- An operation that may also write rows of one conversation, as this code does. -/
def Op.WritesIn (c : UUID) : Op -> Prop
  | .insertMessage c' _ _ _ _ _ column => c' = c ∧ IsWritten column
  | .updateDeleted c' _ => c' = c
  | .batchMessageOutbox c' _ _ _ _ _ _ _ _ _ => c' = c
  | o => o.KeepsLists

theorem Op.IsLookup.keepsLists {o : Op} (ho : o.IsLookup) : o.KeepsLists := by
  cases o <;> trivial

section Operations

variable {messages : UUID -> Partition UUID Row} {c : UUID} {s : Store} {o : Op}

theorem keepsLists_exec (ho : o.KeepsLists) (s : Store) :
    (o.exec s).2.messages = s.messages ∧
      forall c, (o.exec s).2.historyCache c = s.historyCache c ∨
        (o.exec s).2.historyCache c = none := by
  cases o with
  | insertMessage _ _ _ _ _ _ _ => exact ho.elim
  | updateDeleted _ _ => exact ho.elim
  | batchMessageOutbox _ _ _ _ _ _ _ _ _ _ => exact ho.elim
  | deleteAllMessages _ => exact ho.elim
  | rpushHistory _ _ => exact ho.elim
  | deleteHistory c' =>
      refine ⟨rfl, ?_⟩
      intro c
      by_cases hc : c = c'
      · subst hc
        exact Or.inr (Function.update_self _ _ _)
      · exact Or.inl (Function.update_of_ne hc _ _)
  | _ => exact ⟨rfl, fun _ => Or.inl rfl⟩

theorem reading_exec (ho : o.KeepsLists) (h : Reading messages s) :
    Reading messages (o.exec s).2 := by
  rcases keepsLists_exec ho s with ⟨hrows, hcache⟩
  exact reading_of_same h hrows hcache

theorem settled_upsert (h : CitationsSettled s.messages) (m : UUID) {f : Option Row -> Row}
    (hf : forall old, (forall row, old = some row -> IsWritten row.citations) ->
      IsWritten (f old).citations) : CitationsSettled (s.upsertMessage c m f).messages := by
  intro c' m' row hrow
  change (Function.update s.messages c ((s.messages c).upsert m f) c').get m' = some row
    at hrow
  by_cases hc : c' = c
  · subst hc
    rw [Function.update_self, Partition.get_upsert] at hrow
    split at hrow
    · rw [← Option.some.inj hrow]
      exact hf _ (fun old hold => h c' m old hold)
    · exact h c' m' row hrow
  · rw [Function.update_of_ne hc] at hrow
    exact h c' m' row hrow

theorem writing_upsert (h : Writing messages c s) (m : UUID) {f : Option Row -> Row}
    (hf : forall old, (forall row, old = some row -> IsWritten row.citations) ->
      IsWritten (f old).citations) : Writing messages c (s.upsertMessage c m f) := by
  refine ⟨?_, settled_upsert h.settled m hf, h.lists⟩
  intro c' hne
  rw [← h.others c' hne]
  exact Function.update_of_ne hne _ _

theorem isWritten_none : IsWritten none := ⟨.null, rfl⟩

theorem isWritten_old {old : Option Row}
    (hold : forall row, old = some row -> IsWritten row.citations) :
    IsWritten (old.bind Row.citations) := by
  cases old with
  | none => exact isWritten_none
  | some row => exact hold row rfl

theorem writing_exec (ho : o.WritesIn c) (h : Writing messages c s) :
    Writing messages c (o.exec s).2 := by
  have hkeeps : o.KeepsLists -> Writing messages c (o.exec s).2 := by
    intro hkeeps
    rcases keepsLists_exec hkeeps s with ⟨hrows, hcache⟩
    refine ⟨?_, ?_, listsFrom_of_cache h.lists hcache⟩
    · rw [hrows]
      exact h.others
    · rw [hrows]
      exact h.settled
  cases o with
  | insertMessage c' m sender content createdAt status column =>
      rcases ho with ⟨rfl, hcolumn⟩
      apply writing_upsert h m
      intro old hold
      cases column with
      | none => exact isWritten_old hold
      | some value => exact hcolumn
  | updateDeleted c' m =>
      cases ho
      apply writing_upsert h m
      intro old hold
      cases old with
      | none => exact isWritten_none
      | some row => exact hold row rfl
  | batchMessageOutbox c' m sender content createdAt status fileIds bucket eventId event =>
      cases ho
      have hrow : Writing messages c
          (s.upsertMessage c m (Row.staged sender content createdAt status fileIds)) :=
        writing_upsert h m (fun old hold => isWritten_old hold)
      exact ⟨hrow.others, hrow.settled, hrow.lists⟩
  | deleteAllMessages _ => exact ho.elim
  | rpushHistory _ _ => exact ho.elim
  | _ => exact hkeeps trivial

theorem historyCoherent_evict (h : Writing messages c s) :
    HistoryCoherent ((Op.deleteHistory c).exec s).2 := by
  refine ⟨h.settled, ?_⟩
  intro c' items hitems
  by_cases hc : c' = c
  · subst hc
    change Function.update s.historyCache c' none c' = some items at hitems
    rw [Function.update_self] at hitems
    cases hitems
  · change Function.update s.historyCache c none c' = some items at hitems
    rw [Function.update_of_ne hc] at hitems
    show items ≠ [] ∧ items <+: liveMessages c' (s.messages c').rows
    rw [h.others c' hc]
    exact h.lists c' items hitems

end Operations

/-!
# Programs
-/

section Programs

variable {alpha : Type} {messages : UUID -> Partition UUID Row} {c : UUID} {s : Store}
  {p : Py alpha}

theorem wpAmid_reading (hp : OnlyOps Op.KeepsLists p) (h : Reading messages s) :
    Prog.wpAmid oneByOne p (fun _ t => Reading messages t) (fun _ t => Reading messages t)
      s := by
  have hwithin : Prog.within oneByOne (Reading messages) p (fun _ => True) (fun _ => True) :=
    Prog.within_of_allOps hp (fun o t ho ht _ => reading_exec ho ht)
  refine Prog.wpAmid_mono (Prog.wpAmid_of_within reading_elapsed hwithin h) ?_ ?_
  · exact fun _ _ ht => ht.left
  · exact fun _ _ ht => ht.left

theorem wpAmid_writing (hp : OnlyOps (Op.WritesIn c) p) (h : Writing messages c s) :
    Prog.wpAmid oneByOne p (fun _ t => Writing messages c t)
      (fun _ t => Writing messages c t) s := by
  have hwithin : Prog.within oneByOne (Writing messages c) p (fun _ => True)
      (fun _ => True) :=
    Prog.within_of_allOps hp (fun o t ho ht _ => writing_exec ho ht)
  refine Prog.wpAmid_mono (Prog.wpAmid_of_within writing_elapsed hwithin h) ?_ ?_
  · exact fun _ _ ht => ht.left
  · exact fun _ _ ht => ht.left

theorem wpAmid_invalidateCache {svc : MessageService} (hcache : svc.cache = some ⟨true⟩)
    (h : Writing messages c s) :
    Prog.wpAmid oneByOne (svc.invalidateCache c) (fun _ t => HistoryCoherent t)
      (fun _ _ => False) s := by
  unfold MessageService.invalidateCache
  rw [hcache]
  dsimp only
  unfold CacheService.deleteLast50Messages
  rw [if_pos rfl, Prog.wpAmid_tryCatch]
  exact Prog.wpAmid_perform writing_elapsed h (fun _ ht _ => historyCoherent_evict ht)
    (fun _ _ hfail => hfail.elim)

/-- A request answers from the rows, or from the list that was in the cache. -/
def AnsweredFrom (messages : UUID -> Partition UUID Row) (s : Store) (c : UUID)
    (limit : Nat) (page : List Message) : Prop :=
  page = liveMessages c ((messages c).rows.take limit) ∨
    exists items, s.historyCache c = some items ∧ page = items.take limit

/-- The list is as it was at the start of a request, or it has expired. -/
structure Requesting (messages : UUID -> Partition UUID Row) (start : Store) (c : UUID)
    (s : Store) : Prop where
  reading : Reading messages s
  list : s.historyCache c = start.historyCache c ∨ s.historyCache c = none

theorem requesting_elapsed {start : Store} :
    StableUnder Elapsed (Requesting messages start c) := by
  intro s t helapsed h
  refine ⟨reading_elapsed _ _ helapsed h.reading, ?_⟩
  rcases helapsed.historyCache c with hsame | hnone
  · rw [hsame]
    exact h.list
  · exact Or.inr hnone

theorem wpAmid_setLast50Messages {page : List Message} (h : Reading messages s)
    (hpage : page <+: liveMessages c (messages c).rows) :
    Prog.wpAmid oneByOne (CacheService.setLast50Messages ⟨true⟩ c page)
      (fun _ t => Reading messages t) (fun _ _ => False) s := by
  have hevicted : StableUnder Elapsed
      (fun t => Reading messages t ∧ t.historyCache c = none) := by
    rintro t u helapsed ⟨ht, hnone⟩
    refine ⟨reading_elapsed _ _ helapsed ht, ?_⟩
    rcases helapsed.historyCache c with hsame | hgone
    · rw [hsame, hnone]
    · exact hgone
  unfold CacheService.setLast50Messages
  split
  · exact h
  · rename_i hskip
    have hne : page ≠ [] := by
      intro hnil
      apply hskip
      rw [hnil]
      rfl
    rw [Prog.wpAmid_tryCatch]
    split
    · rw [Prog.wpAmid_bind]
      refine Prog.wpAmid_perform reading_elapsed h ?_ (fun _ _ hfail => hfail.elim)
      intro t ht _
      rw [Prog.wpAmid_bind]
      have hgone : Reading messages ((Op.deleteHistory c).exec t).2 ∧
          ((Op.deleteHistory c).exec t).2.historyCache c = none :=
        ⟨reading_exec (by trivial) ht, Function.update_self _ _ _⟩
      refine Prog.wpAmid_perform hevicted hgone ?_ (fun _ _ hfail => hfail.elim)
      rintro u ⟨hu, hnone⟩ _
      have hfilled : Reading messages ((Op.rpushHistory c page).exec u).2 := by
        refine ⟨hu.rows, hu.coherent.settled, ?_⟩
        intro c' items hitems
        change Function.update u.historyCache c (some ((u.historyCache c).getD [] ++ page)) c' =
          some items at hitems
        show items ≠ [] ∧ items <+: liveMessages c' (u.messages c').rows
        by_cases hc : c' = c
        · subst hc
          rw [Function.update_self, hnone] at hitems
          rw [← Option.some.inj hitems, hu.rows]
          exact ⟨hne, hpage⟩
        · rw [Function.update_of_ne hc] at hitems
          exact hu.coherent.lists c' items hitems
      exact Prog.wpAmid_perform reading_elapsed hfilled
        (fun _ hv _ => reading_exec (o := .expireHistory c) trivial hv)
        (fun _ _ hfail => hfail.elim)
    · exact h

theorem wpAmid_getLast50Messages {limit : Nat} (h : Reading messages s) :
    Prog.wpAmid oneByOne (CacheService.getLast50Messages ⟨true⟩ c limit)
      (fun cached t => Reading messages t ∧ forall page, cached = some page -> 0 < limit ->
        exists items, s.historyCache c = some items ∧ page = items.take limit)
      (fun _ _ => False) s := by
  unfold CacheService.getLast50Messages
  rw [if_pos rfl, Prog.wpAmid_tryCatch, Prog.wpAmid_bind]
  have hstart : Requesting messages s c s := ⟨h, Or.inl rfl⟩
  refine Prog.wpAmid_perform requesting_elapsed hstart ?_ (fun _ _ hfail => hfail.elim)
  intro t ht _
  change Prog.wpAmid oneByOne (if ((Op.lrangeHistory c limit).exec t).1.isEmpty then _ else _)
    _ _ t
  split
  · exact ⟨ht.reading, fun _ hnone => by cases hnone⟩
  · rename_i hempty
    have hcached : exists items, t.historyCache c = some items ∧
        ((Op.lrangeHistory c limit).exec t).1 =
          if limit = 0 then items else items.take limit := by
      cases hlist : t.historyCache c with
      | none =>
          exfalso
          apply hempty
          simp [Op.exec, hlist]
      | some items => exact ⟨items, rfl, by simp [Op.exec, hlist]⟩
    rcases hcached with ⟨items, hitems, hrange⟩
    have hsub : forall msg, msg ∈ ((Op.lrangeHistory c limit).exec t).1 ->
        msg ∈ liveMessages c (messages c).rows := by
      intro msg hmsg
      have hmem : msg ∈ items := by
        rw [hrange] at hmsg
        split at hmsg
        · exact hmsg
        · exact List.mem_of_mem_take hmsg
      have hprefix := (ht.reading.coherent.lists c items hitems).right.subset hmem
      rw [ht.reading.rows] at hprefix
      exact hprefix
    have hsettled : CitationsSettled messages := by
      rw [← ht.reading.rows]
      exact ht.reading.coherent.settled
    have hread : List.mapM CacheService.cachedMessage
        (oneByOne.machine.exec (Op.lrangeHistory c limit) t).1 =
        some ((Op.lrangeHistory c limit).exec t).1 := mapM_cachedMessage hsettled hsub
    rw [hread]
    refine ⟨ht.reading, ?_⟩
    intro page hpage hlimit
    refine ⟨items, ?_, ?_⟩
    · rcases ht.list with hsame | hnone
      · rw [← hsame]
        exact hitems
      · rw [hnone] at hitems
        cases hitems
    · rw [← Option.some.inj hpage, hrange, if_neg (Nat.ne_of_gt hlimit)]

theorem wpAmid_history {svc : MessageService} (hcache : svc.cache = some ⟨true⟩)
    (limit : Nat) (cursor : Option UUID) (h : Reading messages s) :
    Prog.wpAmid oneByOne (svc.history c limit cursor)
      (fun page t => Reading messages t ∧
        (cursor = none -> 0 < limit -> AnsweredFrom messages s c limit page))
      (fun _ t => Reading messages t) s := by
  unfold MessageService.history
  rw [Prog.wpAmid_bind]
  have hcached : Prog.wpAmid oneByOne (svc.cachedHistory c limit cursor)
      (fun cached t => Reading messages t ∧ forall page, cached = some page -> cursor = none ∧
        (0 < limit -> exists items, s.historyCache c = some items ∧ page = items.take limit))
      (fun _ _ => False) s := by
    unfold MessageService.cachedHistory
    rw [hcache]
    cases cursor with
    | some k => exact ⟨h, fun _ hnone => by cases hnone⟩
    | none =>
        refine Prog.wpAmid_mono (wpAmid_getLast50Messages h) ?_ (fun _ _ hfalse => hfalse)
        rintro cached t ⟨ht, hitems⟩
        exact ⟨ht, fun page hpage => ⟨rfl, hitems page hpage⟩⟩
  refine Prog.wpAmid_mono hcached ?_ (fun _ _ hfalse => hfalse.elim)
  rintro cached t ⟨ht, hitems⟩
  cases cached with
  | some page =>
      exact ⟨ht, fun _ hlimit => Or.inr ((hitems page rfl).right hlimit)⟩
  | none =>
      dsimp only
      unfold MessageRepository.history
      rw [Prog.wpAmid_bind, Prog.wpAmid_bind]
      refine Prog.wpAmid_perform reading_elapsed ht ?_ (fun _ ht _ => ht)
      intro u hu _
      rw [Prog.wpAmid_pure, hcache]
      cases cursor with
      | some k => exact ⟨hu, fun hnone => by cases hnone⟩
      | none =>
          dsimp only
          rw [Prog.wpAmid_bind]
          have hpage : liveMessages c (((u.messages c).rows).take limit) <+:
              liveMessages c (messages c).rows := by
            rw [hu.rows]
            exact liveMessages_take _ _
          refine Prog.wpAmid_mono (wpAmid_setLast50Messages hu hpage) ?_
            (fun _ _ hfalse => hfalse.elim)
          intro _ v hv
          refine ⟨hv, fun _ _ => Or.inl ?_⟩
          rw [← hu.rows]
          rfl

/-!
# Calls
-/

variable {svc : MessageService}

theorem wpAmid_recentHistory (hcache : svc.cache = some ⟨true⟩) (h : Reading messages s) :
    Prog.wpAmid oneByOne (svc.recentHistory c) (fun _ t => Reading messages t)
      (fun _ t => Reading messages t) s := by
  unfold MessageService.recentHistory
  rw [Prog.wpAmid_tryCatch, Prog.wpAmid_bind]
  refine Prog.wpAmid_mono (wpAmid_history hcache _ none h) ?_ (fun _ _ ht => ht)
  exact fun _ _ ht => ht.left

theorem wpAmid_sendContext (hcache : svc.cache = some ⟨true⟩) (args : SendArgs)
    (h : Reading messages s) :
    Prog.wpAmid oneByOne (svc.sendContext args) (fun _ t => Reading messages t)
      (fun _ t => Reading messages t) s := by
  unfold MessageService.sendContext
  split
  · rw [Prog.wpAmid_bind]
    refine Prog.wpAmid_mono (wpAmid_recentHistory hcache h) ?_ (fun _ _ ht => ht)
    intro own t ht
    split
    · exact wpAmid_reading (Prog.allOps_mono
        (MessageService.onlyLookups_branchEventContext _ _ _) (fun _ ho => ho.keepsLists)) ht
    · exact ht
  · exact h

theorem wpAmid_resolvePreferences (userId : Option UUID) (mode : Option Text)
    (selectedTools : Option (List Text)) (h : Reading messages s) :
    Prog.wpAmid oneByOne (svc.resolvePreferences userId mode selectedTools)
      (fun _ t => Reading messages t) (fun _ t => Reading messages t) s :=
  wpAmid_reading (MessageService.onlyOps_resolvePreferences (fun _ => trivial)
    (fun _ _ => trivial) svc userId mode selectedTools) h

theorem Op.OnResponse.writesIn {r : UUID} {o : Op} (ho : o.OnResponse c r) :
    o.WritesIn c := by
  cases o with
  | updateDeleted c' m => exact ho.left
  | setPending _ _ _ => trivial
  | zaddPending _ _ => trivial
  | deletePending _ => trivial
  | zremPending _ => trivial
  | _ => exact ho.elim

theorem onlyWrites_openPendingResponse (reads : Readings) (r : UUID) :
    OnlyOps (Op.WritesIn c) (svc.openPendingResponse reads c r) :=
  onlyOps_openPendingResponse svc reads (fun _ _ => ⟨rfl, isWritten_none⟩)
    (fun _ ho => ho.writesIn)

theorem wpAmid_send (hcache : svc.cache = some ⟨true⟩) (reads : Readings) (args : SendArgs)
    (h : Reading messages s) :
    Prog.wpAmid oneByOne (svc.send reads args) (fun _ t => HistoryCoherent t)
      (fun _ t => Writing messages args.conversationId t) s := by
  unfold MessageService.send
  dsimp only
  rw [Prog.wpAmid_bind]
  refine Prog.wpAmid_mono (wpAmid_sendContext hcache args h) ?_ (fun _ _ ht => ht.writing _)
  intro context t ht
  rw [Prog.wpAmid_bind]
  refine Prog.wpAmid_mono (wpAmid_resolvePreferences _ _ _ ht) ?_
    (fun _ _ hu => hu.writing _)
  intro resolved u hu
  rw [Prog.wpAmid_bind]
  have hopens : OnlyOps (Op.WritesIn args.conversationId)
      (MessageService.forResponse (MessageService.responseIdFor reads args)
        (svc.openPendingResponse reads args.conversationId)) := by
    unfold MessageService.forResponse
    split
    · exact onlyWrites_openPendingResponse reads _
    · exact onlyOps_ret _
  refine Prog.wpAmid_mono (wpAmid_writing hopens (hu.writing _)) ?_ (fun _ _ hv => hv)
  intro _ v hv
  rw [Prog.wpAmid_bind]
  have hstages : OnlyOps (Op.WritesIn args.conversationId)
      (svc.stageRequest reads args.conversationId args.messageId args.sender args.content
        .sent (MessageService.sendPayload reads args context resolved) args.fileIds
        (MessageService.responseIdFor reads args)) :=
    onlyOps_stageRequest svc reads (fun _ _ _ _ => rfl) (fun _ _ _ ho => ho.writesIn)
  refine Prog.wpAmid_mono (wpAmid_writing hstages hv) ?_ (fun _ _ hw => hw)
  intro msg w hw
  rw [Prog.wpAmid_bind]
  refine Prog.wpAmid_mono (wpAmid_invalidateCache hcache hw) ?_
    (fun _ _ hfalse => hfalse.elim)
  exact fun _ _ hx => hx

theorem wpAmid_regenerate (hcache : svc.cache = some ⟨true⟩) (reads : Readings) (m : UUID)
    (userId : Option UUID) (h : Reading messages s) :
    Prog.wpAmid oneByOne (svc.regenerate reads c m userId) (fun _ t => HistoryCoherent t)
      (fun _ t => Writing messages c t) s := by
  unfold MessageService.regenerate
  rw [Prog.wpAmid_bind]
  refine Prog.wpAmid_mono (wpAmid_reading (onlyOps_repositoryHistory _ _ _ trivial) h) ?_
    (fun _ _ ht => ht.writing c)
  intro page t ht
  split
  · exact ht.coherent
  · rename_i target below _
    unfold MessageService.regenerateTarget
    dsimp only
    rw [Prog.wpAmid_bind]
    refine Prog.wpAmid_mono (wpAmid_resolvePreferences _ _ _ ht) ?_
      (fun _ _ hu => hu.writing c)
    intro resolved u hu
    rw [Prog.wpAmid_bind]
    refine Prog.wpAmid_mono (wpAmid_writing (onlyWrites_openPendingResponse reads _)
      (hu.writing c)) ?_ (fun _ _ hv => hv)
    intro _ v hv
    rw [Prog.wpAmid_bind]
    refine Prog.wpAmid_mono (wpAmid_writing (onlyOps_stageRequest svc reads
      (fun _ _ _ _ => rfl) (fun _ _ _ ho => ho.writesIn)) hv) ?_ (fun _ _ hw => hw)
    intro _ w hw
    rw [Prog.wpAmid_bind]
    have hreplaces : OnlyOps (Op.WritesIn c) (MessageService.deleteReplaced c m target) := by
      unfold MessageService.deleteReplaced
      split
      · exact Prog.allOps_mono (allOps_softDeletePlaceholder c m) (fun _ ho => ho.writesIn)
      · exact onlyOps_ret _
    refine Prog.wpAmid_mono (wpAmid_writing hreplaces hw) ?_ (fun _ _ hx => hx)
    intro _ x hx
    rw [Prog.wpAmid_bind]
    refine Prog.wpAmid_mono (wpAmid_invalidateCache hcache hx) ?_
      (fun _ _ hfalse => hfalse.elim)
    exact fun _ _ hy => hy

theorem wpAmid_writeMessage (hcache : svc.cache = some ⟨true⟩) (now : Datetime) (m : UUID)
    (sender : Sender) (content : Json) (status : MessageStatus) (citations : Json)
    {beta : Type} (f : Message -> beta) (h : Reading messages s) :
    Prog.wpAmid oneByOne
      (do
        let msg <- MessageRepository.createMessageDirect now c m sender content status
          citations
        svc.invalidateCache c
        pure (f msg))
      (fun _ t => HistoryCoherent t) (fun _ t => Writing messages c t) s := by
  rw [Prog.wpAmid_bind]
  refine Prog.wpAmid_mono (wpAmid_writing (onlyOps_createMessageDirect
    (fun _ _ hcolumn => ⟨rfl, hcolumn⟩)) (h.writing c)) ?_ (fun _ _ ht => ht)
  intro msg t ht
  rw [Prog.wpAmid_bind]
  refine Prog.wpAmid_mono (wpAmid_invalidateCache hcache ht) ?_
    (fun _ _ hfalse => hfalse.elim)
  exact fun _ _ hu => hu

theorem wpAmid_finalizeAssistantMessage (hcache : svc.cache = some ⟨true⟩) (now : Datetime)
    (m : UUID) (content citations : Json) (h : Reading messages s) :
    Prog.wpAmid oneByOne (svc.finalizeAssistantMessage now c m content citations)
      (fun _ t => HistoryCoherent t) (fun _ t => Writing messages c t) s := by
  unfold MessageService.finalizeAssistantMessage
  rw [Prog.wpAmid_bind]
  refine Prog.wpAmid_mono (wpAmid_reading (onlyOps_isWritableAssistantRow trivial) h) ?_
    (fun _ _ ht => ht.writing c)
  intro writable t ht
  split
  · exact wpAmid_writeMessage hcache now m .assistant content .sent citations some ht
  · exact ht.coherent

theorem wpAmid_failAssistantMessage (hcache : svc.cache = some ⟨true⟩) (now : Datetime)
    (m : UUID) (errorMessage : Json) (h : Reading messages s) :
    Prog.wpAmid oneByOne (svc.failAssistantMessage now c m errorMessage)
      (fun _ t => HistoryCoherent t) (fun _ t => Writing messages c t) s := by
  unfold MessageService.failAssistantMessage
  rw [Prog.wpAmid_bind]
  refine Prog.wpAmid_mono (wpAmid_reading (onlyOps_isWritableAssistantRow trivial) h) ?_
    (fun _ _ ht => ht.writing c)
  intro writable t ht
  split
  · rw [Prog.wpAmid_bind]
    refine Prog.wpAmid_mono (wpAmid_reading (onlyOps_getMessage trivial) ht) ?_
      (fun _ _ hu => hu.writing c)
    intro existing u hu
    split
    · exact hu.coherent
    · exact wpAmid_writeMessage hcache now m .assistant errorMessage .failed .null some hu
  · exact ht.coherent

theorem wpAmid_delete (hcache : svc.cache = some ⟨true⟩) (m : UUID)
    (h : Reading messages s) :
    Prog.wpAmid oneByOne (svc.delete c m) (fun _ t => HistoryCoherent t)
      (fun _ t => Writing messages c t) s := by
  unfold MessageService.delete MessageRepository.delete
  rw [Prog.wpAmid_bind, Prog.wpAmid_bind]
  refine Prog.wpAmid_perform writing_elapsed (h.writing c) ?_ (fun _ ht _ => ht)
  intro t ht _
  rw [Prog.wpAmid_pure, if_pos rfl, Prog.wpAmid_bind]
  refine Prog.wpAmid_mono (wpAmid_invalidateCache hcache (writing_exec rfl ht)) ?_
    (fun _ _ hfalse => hfalse.elim)
  exact fun _ _ hu => hu

/-- Every call leaves the lists coherent; one that raises may have written before. -/
theorem wpAmid_call (hcache : svc.cache = some ⟨true⟩) (call : MessageCall)
    (h : Reading messages s) :
    Prog.wpAmid oneByOne (call.program svc) (fun _ t => HistoryCoherent t)
      (fun _ t => Writing messages call.conversationId t) s := by
  cases call with
  | send reads args =>
      exact (Prog.wpAmid_bind _ _ _ _ _).mpr (wpAmid_send hcache reads args h)
  | regenerate reads c m userId =>
      exact (Prog.wpAmid_bind _ _ _ _ _).mpr (wpAmid_regenerate hcache reads m userId h)
  | finalizeAssistantMessage now c m content citations =>
      exact (Prog.wpAmid_bind _ _ _ _ _).mpr
        (wpAmid_finalizeAssistantMessage hcache now m content citations h)
  | failAssistantMessage now c m errorMessage =>
      exact (Prog.wpAmid_bind _ _ _ _ _).mpr
        (wpAmid_failAssistantMessage hcache now m errorMessage h)
  | delete c m => exact (Prog.wpAmid_bind _ _ _ _ _).mpr (wpAmid_delete hcache m h)
  | attachSummary now c m summary =>
      exact (Prog.wpAmid_bind _ _ _ _ _).mpr
        (wpAmid_writeMessage hcache now m .system _ .sent .null id h)
  | history c limit cursor =>
      refine (Prog.wpAmid_bind _ _ _ _ _).mpr
        (Prog.wpAmid_mono (wpAmid_history hcache limit cursor h) ?_ ?_)
      · exact fun _ _ ht => ht.left.coherent
      · exact fun _ _ ht => ht.writing c

end Programs

end ConversationService
