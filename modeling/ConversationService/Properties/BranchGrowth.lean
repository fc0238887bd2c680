import ConversationService.Effects.BranchScope

/-!
# Growth of the ancestors

An ancestor goes on after a branch was taken from it. Behind a recorded boundary the
branch does not notice. A legacy boundary is applied to the newest messages only, after
they have been read, so there the branch keeps its context exactly as long as the bounded
pages still show what is within the boundary.
-/

namespace ConversationService

open Python Programs

/-!
# Stores that differ by later messages
-/

/-- The message was appended after the boundary of the segment was taken. -/
structure Segment.Later (seg : Segment) (id : UUID) (row : Row) : Prop where
  id : forall upto, seg.uptoMessageId = some upto -> upto < id
  time : forall time, seg.uptoTime = some time ->
    exists created, row.createdAt = some created ∧ time.micros < created.micros

/-- The ancestor of a segment has kept its rows, and got later ones at most. -/
structure GrownSegment (s t : Store) (seg : Segment) : Prop where
  bounded : seg.uptoMessageId.isSome = true ∨ seg.uptoTime.isSome = true
  kept : forall id row, s.row seg.conversationId id = some row ->
    t.row seg.conversationId id = some row
  later : forall id row, t.row seg.conversationId id = some row ->
    s.row seg.conversationId id = none -> seg.Later id row

/-- Two stores that differ in later messages of the ancestors of `conv` only. -/
structure Grown (cache : Option CacheService) (conv : Conversation) (s t : Store) :
    Prop where
  rest : t = { s with messages := t.messages }
  segments : forall l, ancestry cache s conv = some l ->
    forall seg, seg ∈ l.segments -> GrownSegment s t seg

theorem Grown.ancestry {cache : Option CacheService} {conv : Conversation}
    {s t : Store} (h : Grown cache conv s t) :
    ancestry cache t conv = ancestry cache s conv := by
  have hfound : findConversation cache t = findConversation cache s := by
    rw [h.rest]
    rfl
  unfold ConversationService.ancestry
  rw [hfound]

theorem GrownSegment.insert {s t : Store} {seg : Segment} (h : GrownSegment s t seg)
    {c id : UUID} {f : Option Row -> Row} (hfresh : t.row c id = none)
    (hlater : seg.conversationId = c -> seg.Later id (f none)) :
    GrownSegment s (t.upsertMessage c id f) seg := by
  refine ⟨h.bounded, ?_, ?_⟩
  · intro id' row hrow
    have hkept := h.kept id' row hrow
    rw [Store.row_upsertMessage_ne]
    · exact hkept
    · intro hsame
      rw [hsame.left, hsame.right, hfresh] at hkept
      cases hkept
  · intro id' row hrow hnone
    rw [Store.row_upsertMessage] at hrow
    split at hrow
    · rename_i hsame
      rw [hfresh] at hrow
      cases hrow
      rw [hsame.right]
      exact hlater hsame.left
    · exact h.later id' row hrow hnone

/-!
# Recorded boundaries
-/

section Segment

variable {s t : Store} {seg : Segment}

theorem GrownSegment.rows_subset (h : GrownSegment s t seg) (entry : UUID × Row)
    (hentry : entry ∈ (s.messages seg.conversationId).rows) :
    entry ∈ (t.messages seg.conversationId).rows :=
  mem_rows_of_row (h.kept entry.1 entry.2 (row_of_mem_rows hentry))

theorem GrownSegment.scopeOf_recorded (h : GrownSegment s t seg) {upto : UUID}
    (hupto : seg.uptoMessageId = some upto) (limit : Nat) :
    scopeOf t seg limit = scopeOf s seg limit := by
  have hrows : (t.messages seg.conversationId).rows.filter
        (fun (r : UUID × Row) => r.1 ≤ upto) =
      (s.messages seg.conversationId).rows.filter
        (fun (r : UUID × Row) => r.1 ≤ upto) := by
    apply ClusteredTable.eq_of_mem_iff Prod.fst
    · exact (t.messages seg.conversationId).sorted.filter _
    · exact (s.messages seg.conversationId).sorted.filter _
    · intro entry
      rw [List.mem_filter, List.mem_filter]
      constructor
      · intro hmem
        refine ⟨?_, hmem.right⟩
        cases hrow : s.row seg.conversationId entry.1 with
        | none =>
            have hlater := h.later entry.1 entry.2 (row_of_mem_rows hmem.left) hrow
            have hlt := hlater.id upto hupto
            exact absurd (of_decide_eq_true hmem.right) (not_le_of_gt hlt)
        | some row =>
            have hkept := h.kept entry.1 row hrow
            rw [row_of_mem_rows hmem.left] at hkept
            cases hkept
            exact mem_rows_of_row hrow
      · intro hmem
        exact ⟨h.rows_subset entry hmem.left, hmem.right⟩
  rw [ConversationService.scopeOf_recorded hupto,
    ConversationService.scopeOf_recorded hupto, hrows]

/-!
# Legacy boundaries
-/

/-- Every message of a page can be compared with the time. -/
def Comparable (time : Datetime) (page : List Message) : Prop :=
  forall m, m ∈ page -> (BranchContextService.writtenUpto time m).isSome = true

/-- The bounded page still shows what is within the boundary. -/
structure SameWindow (time : Datetime) (before after : List Message) : Prop where
  comparable : Comparable time after <-> Comparable time before
  shown : Comparable time before -> forall m, m ∈ before ->
    BranchContextService.writtenUpto time m = some true -> m ∈ after

theorem GrownSegment.mem_of_writtenUpto (h : GrownSegment s t seg) {time : Datetime}
    (htime : seg.uptoTime = some time) {limit : Nat} {m : Message}
    (hm : m ∈ historyPage t seg.conversationId limit)
    (hwritten : BranchContextService.writtenUpto time m = some true) :
    m ∈ historyPage s seg.conversationId limit := by
  rcases List.mem_filterMap.mp hm with ⟨entry, hentry, hlive⟩
  have hstored := row_of_mem_rows (List.mem_of_mem_take hentry)
  apply List.mem_filterMap.mpr
  refine ⟨entry, ?_, hlive⟩
  cases hrow : s.row seg.conversationId entry.1 with
  | some row =>
      have hkept := h.kept entry.1 row hrow
      rw [hstored] at hkept
      cases hkept
      exact ClusteredTable.Partition.mem_take_of_subset h.rows_subset
        (mem_rows_of_row hrow) hentry
  | none =>
      exfalso
      rcases (h.later entry.1 entry.2 hstored hrow).time time htime with
        ⟨created, hcreated, hlt⟩
      unfold MessageRepository.liveMessage at hlive
      rcases Option.map_eq_some_iff.mp hlive with ⟨shown, _, rfl⟩
      unfold BranchContextService.writtenUpto MessageRepository.rowMessage
        Datetime.le? at hwritten
      dsimp only at hwritten
      rw [hcreated, Option.bind_some] at hwritten
      split at hwritten
      · have hle := of_decide_eq_true (Option.some.inj hwritten)
        omega
      · cases hwritten

theorem scopeOf_legacy_comparable {time : Datetime} (hupto : seg.uptoMessageId = none)
    (htime : seg.uptoTime = some time) {limit : Nat}
    (h : Comparable time (historyPage s seg.conversationId limit)) :
    scopeOf s seg limit = some (keptUpto time (historyPage s seg.conversationId limit)) := by
  rw [scopeOf_legacy hupto htime, if_pos]
  exact List.all_eq_true.mpr h

theorem scopeOf_legacy_incomparable {time : Datetime} (hupto : seg.uptoMessageId = none)
    (htime : seg.uptoTime = some time) {limit : Nat}
    (h : ¬Comparable time (historyPage s seg.conversationId limit)) :
    scopeOf s seg limit = none := by
  rw [scopeOf_legacy hupto htime, if_neg]
  intro hall
  exact h (List.all_eq_true.mp hall)

/-- A read behind a legacy boundary is unaffected exactly when the page still shows
what is within the boundary. -/
theorem GrownSegment.scopeOf_legacy_iff (h : GrownSegment s t seg) {time : Datetime}
    (hupto : seg.uptoMessageId = none) (htime : seg.uptoTime = some time) (limit : Nat) :
    scopeOf t seg limit = scopeOf s seg limit <->
      SameWindow time (historyPage s seg.conversationId limit)
        (historyPage t seg.conversationId limit) := by
  constructor
  · intro heq
    by_cases hs : Comparable time (historyPage s seg.conversationId limit)
    · by_cases ht : Comparable time (historyPage t seg.conversationId limit)
      · refine ⟨⟨fun _ => hs, fun _ => ht⟩, ?_⟩
        intro _ m hm hwritten
        rw [scopeOf_legacy_comparable hupto htime hs,
          scopeOf_legacy_comparable hupto htime ht] at heq
        have hkept : m ∈ keptUpto time (historyPage s seg.conversationId limit) :=
          List.mem_filter.mpr ⟨hm, decide_eq_true hwritten⟩
        rw [← Option.some.inj heq] at hkept
        exact (List.mem_filter.mp hkept).left
      · rw [scopeOf_legacy_comparable hupto htime hs,
          scopeOf_legacy_incomparable hupto htime ht] at heq
        cases heq
    · by_cases ht : Comparable time (historyPage t seg.conversationId limit)
      · rw [scopeOf_legacy_incomparable hupto htime hs,
          scopeOf_legacy_comparable hupto htime ht] at heq
        cases heq
      · exact ⟨⟨fun h' => absurd h' ht, fun h' => absurd h' hs⟩,
          fun h' => absurd h' hs⟩
  · intro hwindow
    by_cases hs : Comparable time (historyPage s seg.conversationId limit)
    · have ht := hwindow.comparable.mpr hs
      rw [scopeOf_legacy_comparable hupto htime hs,
        scopeOf_legacy_comparable hupto htime ht]
      congr 1
      apply ClusteredTable.eq_of_mem_iff Message.messageId
      · exact (sorted_historyPage t seg.conversationId limit).filter _
      · exact (sorted_historyPage s seg.conversationId limit).filter _
      · intro m
        unfold keptUpto
        rw [List.mem_filter, List.mem_filter]
        constructor
        · intro hmem
          have hwritten := of_decide_eq_true hmem.right
          exact ⟨h.mem_of_writtenUpto htime hmem.left hwritten, hmem.right⟩
        · intro hmem
          have hwritten := of_decide_eq_true hmem.right
          exact ⟨hwindow.shown hs m hmem.left hwritten, hmem.right⟩
    · have ht : ¬Comparable time (historyPage t seg.conversationId limit) :=
        fun h' => hs (hwindow.comparable.mp h')
      rw [scopeOf_legacy_incomparable hupto htime hs,
        scopeOf_legacy_incomparable hupto htime ht]

end Segment

/-!
# The whole context
-/

/-- The limits of the reads of `inherited_history` and of `context`. -/
def scanLimits : List Nat := [inheritedMaxMessages * 2, scanPerSegment]

/-- Every legacy boundary still has its messages among the newest ones. -/
def SameWindows (cache : Option CacheService) (conv : Conversation) (s t : Store) :
    Prop :=
  forall l, ancestry cache s conv = some l -> forall seg, seg ∈ l.segments ->
    forall time, seg.uptoMessageId = none -> seg.uptoTime = some time ->
      forall limit, limit ∈ scanLimits ->
        SameWindow time (historyPage s seg.conversationId limit)
          (historyPage t seg.conversationId limit)

/-- The answers of the two services to one branch are the same in both stores. -/
structure SameContext (cache : Option CacheService) (conv : Conversation)
    (s t : Store) : Prop where
  event : answerOf (BranchContextService.eventContext cache conv) t =
    answerOf (BranchContextService.eventContext cache conv) s
  shown : answerOf (BranchContextService.context cache conv) t =
    answerOf (BranchContextService.context cache conv) s

/-- Every bounded read of a segment answers alike in both stores. -/
def SameReads (cache : Option CacheService) (conv : Conversation) (s t : Store) : Prop :=
  forall l, ancestry cache s conv = some l -> forall seg, seg ∈ l.segments ->
    forall limit, limit ∈ scanLimits ->
      answerOf (BranchContextService.messagesInScope seg limit) t =
        answerOf (BranchContextService.messagesInScope seg limit) s

/-- What the branch was given behind legacy boundaries is still in the bounded pages. -/
structure NothingLost (l : Lineage) (s t : Store) : Prop where
  inherited : forall seg time, seg ∈ l.segments -> seg.uptoMessageId = none ->
    seg.uptoTime = some time -> forall entry, entry ∈ inheritedOf s l ->
      entry.conversationId = seg.conversationId ->
        exists m, m ∈ historyPage t seg.conversationId (inheritedMaxMessages * 2) ∧
          m.messageId = entry.messageId
  documents : forall seg time, seg ∈ l.segments -> seg.uptoMessageId = none ->
    seg.uptoTime = some time -> forall documents, documentsOf s l = some documents ->
      forall d, d ∈ documents -> d.sourceConversationId = seg.conversationId ->
        exists m, m ∈ historyPage t seg.conversationId scanPerSegment ∧
          m.messageId = d.sourceMessageId

theorem answerOf_messagesInScope_iff {s t : Store} (seg : Segment) (limit : Nat) :
    answerOf (BranchContextService.messagesInScope seg limit) t =
        answerOf (BranchContextService.messagesInScope seg limit) s <->
      scopeOf t seg limit = scopeOf s seg limit := by
  rw [answerOf_messagesInScope, answerOf_messagesInScope]
  constructor
  · intro h
    cases ht : scopeOf t seg limit with
    | none =>
        cases hs : scopeOf s seg limit with
        | none => rfl
        | some rows =>
            rw [ht, hs] at h
            cases h
    | some rows =>
        cases hs : scopeOf s seg limit with
        | none =>
            rw [ht, hs] at h
            cases h
        | some rows' =>
            rw [ht, hs] at h
            exact congrArg some (Except.ok.inj h)
  · intro h
    rw [h]

section Growth

variable {cache : Option CacheService} {conv : Conversation} {s t : Store}

theorem sameReads_iff (h : Grown cache conv s t) :
    SameReads cache conv s t <-> SameWindows cache conv s t := by
  constructor
  · intro hreads l hl seg hseg time hupto htime limit hlimit
    apply ((h.segments l hl seg hseg).scopeOf_legacy_iff hupto htime limit).mp
    exact (answerOf_messagesInScope_iff seg limit).mp (hreads l hl seg hseg limit hlimit)
  · intro hwindows l hl seg hseg limit hlimit
    apply (answerOf_messagesInScope_iff seg limit).mpr
    have hgrown := h.segments l hl seg hseg
    cases hupto : seg.uptoMessageId with
    | some upto => exact hgrown.scopeOf_recorded hupto limit
    | none =>
        rcases hgrown.bounded with hrecorded | hlegacy
        · rw [hupto] at hrecorded
          cases hrecorded
        · rcases Option.isSome_iff_exists.mp hlegacy with ⟨time, htime⟩
          apply (hgrown.scopeOf_legacy_iff hupto htime limit).mpr
          exact hwindows l hl seg hseg time hupto htime limit hlimit

theorem sameContext_of_sameReads (h : Grown cache conv s t)
    (hreads : SameReads cache conv s t) : SameContext cache conv s t := by
  have hscope : forall l, ancestry cache s conv = some l -> forall limit,
      limit ∈ scanLimits -> forall seg, seg ∈ l.segments ->
        scopeOf t seg limit = scopeOf s seg limit := by
    intro l hl limit hlimit seg hseg
    exact (answerOf_messagesInScope_iff seg limit).mp (hreads l hl seg hseg limit hlimit)
  constructor
  · rw [answerOf_eventContext, answerOf_eventContext, h.ancestry]
    cases hl : ancestry cache s conv with
    | none => rfl
    | some l =>
        dsimp only
        rw [inheritedOf_of_scopes (hscope l hl _ (by simp [scanLimits]))]
  · rw [answerOf_context, answerOf_context, h.ancestry]
    cases hl : ancestry cache s conv with
    | none => rfl
    | some l =>
        dsimp only
        rw [documentsOf_of_scopes (hscope l hl _ (by simp [scanLimits]))]

theorem mem_page_of_scope {l : Lineage} (hl : ancestry cache s conv = some l)
    {seg seg' : Segment} (hseg : seg ∈ l.segments) (hseg' : seg' ∈ l.segments)
    (hid : seg'.conversationId = seg.conversationId) {time : Datetime}
    (hupto : seg.uptoMessageId = none) (htime : seg.uptoTime = some time) {limit : Nat}
    {rows : List Message} (hrows : scopeOf t seg' limit = some rows) {m : Message}
    (hm : m ∈ rows) : m ∈ historyPage t seg.conversationId limit := by
  have hsame : seg' = seg := segment_eq_of_ancestry hl hseg' hseg hid
  subst hsame
  by_cases hcomparable : Comparable time (historyPage t seg'.conversationId limit)
  · rw [scopeOf_legacy_comparable hupto htime hcomparable] at hrows
    cases hrows
    exact (List.mem_filter.mp hm).left
  · rw [scopeOf_legacy_incomparable hupto htime hcomparable] at hrows
    cases hrows

theorem nothingLost_of_sameContext (h : Grown cache conv s t)
    (hsame : SameContext cache conv s t) {l : Lineage}
    (hl : ancestry cache s conv = some l) : NothingLost l s t := by
  have hevent := hsame.event
  have hshown := hsame.shown
  rw [answerOf_eventContext, answerOf_eventContext, h.ancestry, hl] at hevent
  rw [answerOf_context, answerOf_context, h.ancestry, hl] at hshown
  dsimp only at hevent hshown
  constructor
  · intro seg time hseg hupto htime entry hentry hid
    have hinherited : inheritedOf t l = inheritedOf s l :=
      (Prod.mk.inj (Except.ok.inj hevent)).left
    rw [← hinherited] at hentry
    rcases mem_inheritedOf hentry with
      ⟨m, ⟨seg', rows, hseg', hrows, hm, _⟩, rfl⟩
    have hconversation : seg'.conversationId = seg.conversationId := by
      rw [← hid, ← (mem_scopeOf hrows hm).conversationId]
      rfl
    exact ⟨m, mem_page_of_scope hl hseg hseg' hconversation hupto htime hrows hm, rfl⟩
  · intro seg time hseg hupto htime documents hdocuments d hd hid
    rw [hdocuments] at hshown
    cases hlater : documentsOf t l with
    | none =>
        rw [hlater] at hshown
        cases hshown
    | some documents' =>
        rw [hlater] at hshown
        have heq : documents' = documents :=
          congrArg BranchContext.documents (Except.ok.inj hshown)
        rw [← heq] at hd
        rcases mem_documentsOf hlater hd with ⟨seg', rows, m, hseg', hrows, hm, hattached⟩
        have hconversation : seg'.conversationId = seg.conversationId := by
          rw [← hid, hattached.conversation]
        refine ⟨m, ?_, hattached.message.symm⟩
        exact mem_page_of_scope hl hseg hseg' hconversation hupto htime hrows hm

end Growth

/--
Growth of the ancestors leaves a branch its context as long as the bounded pages behind
its legacy boundaries show the same messages within them. That is when each of the reads
answers alike, and a branch with an unchanged context has lost nothing from those pages.
-/
theorem growth_noninterference {cache : Option CacheService} {conv : Conversation}
    {s t : Store} (h : Grown cache conv s t) :
    (SameReads cache conv s t <-> SameWindows cache conv s t) ∧
      (SameWindows cache conv s t -> SameContext cache conv s t) ∧
      (SameContext cache conv s t -> forall l, ancestry cache s conv = some l ->
        NothingLost l s t) := by
  refine ⟨sameReads_iff h, ?_, ?_⟩
  · intro hwindows
    exact sameContext_of_sameReads h ((sameReads_iff h).mpr hwindows)
  · intro hsame l hl
    exact nothingLost_of_sameContext h hsame hl

/-!
# A branch that loses its parent

Conversation 2 was branched off conversation 1 without a recorded boundary, when its only
message was message 1. Thirty-two messages later that one is off the page.
-/

def branchRow (parent : Option UUID) (createdAt : Int) : ConversationRow :=
  { userId := some (.ofInt 5)
    title := some []
    createdAt := some ⟨createdAt, false⟩
    updatedAt := some ⟨createdAt, false⟩
    status := some .active
    parentConversationId := parent
    branchMessageId := none }

def promptRow (createdAt : Int) : Row :=
  { sender := some .user
    content := some (text "q")
    createdAt := some ⟨createdAt, false⟩
    status := .sent
    fileIds := []
    citations := none }

def branchedConversations (c : UUID) : Option ConversationRow :=
  if c = .ofInt 1 then some (branchRow none 0)
  else if c = .ofInt 2 then some (branchRow (some (.ofInt 1)) 2000)
  else none

def branchedStore : Store :=
  { Store.blank with
    conversations := branchedConversations }.upsertMessage (.ofInt 1) (.ofInt 1)
      (fun _ => promptRow 1000)

def legacyBranch : Conversation :=
  { conversationId := .ofInt 2
    userId := some (.ofInt 5)
    title := some []
    createdAt := some ⟨2000, false⟩
    updatedAt := some ⟨2000, false⟩
    status := .active
    parentConversationId := some (.ofInt 1)
    branchMessageId := none }

/-- The parent after `n` later messages. -/
def grownStore : Nat -> Store
  | 0 => branchedStore
  | n + 1 =>
      (grownStore n).upsertMessage (.ofInt 1) (.ofInt (n + 2)) (fun _ => promptRow 3000)

def parentSegment : Segment :=
  { conversationId := .ofInt 1
    title := some []
    uptoMessageId := none
    uptoTime := some ⟨2000, false⟩ }

theorem ancestry_legacyBranch :
    ancestry none branchedStore legacyBranch = some ⟨[parentSegment], none⟩ := by
  decide

theorem grown_grownStore : forall n, n ≤ 32 ->
    Grown none legacyBranch branchedStore (grownStore n) := by
  have hfresh : forall n, n < 32 ->
      ((grownStore n).row (.ofInt 1) (.ofInt (n + 2))).isNone = true := by
    decide
  intro n
  induction n with
  | zero =>
      intro _
      refine ⟨rfl, ?_⟩
      intro l hl seg hseg
      rw [ancestry_legacyBranch] at hl
      cases hl
      rw [List.mem_singleton.mp hseg]
      refine ⟨Or.inr rfl, fun _ _ hrow => hrow, ?_⟩
      intro id row hrow hnone
      rw [show grownStore 0 = branchedStore from rfl, hnone] at hrow
      cases hrow
  | succ n ih =>
      intro hn
      have hgrown := ih (Nat.le_of_succ_le hn)
      refine ⟨?_, ?_⟩
      · show (grownStore n).upsertMessage _ _ _ = _
        rw [hgrown.rest]
        rfl
      · intro l hl seg hseg
        apply (hgrown.segments l hl seg hseg).insert
        · exact Option.isNone_iff_eq_none.mp (hfresh n hn)
        · intro _
          rw [ancestry_legacyBranch] at hl
          cases hl
          rw [List.mem_singleton.mp hseg]
          constructor
          · intro upto hupto
            cases hupto
          · intro time htime
            cases htime
            exact ⟨⟨3000, false⟩, rfl, by decide⟩

/-- Thirty-one later messages fill the page, and the branch keeps its context. -/
theorem growth_noninterference_full_page :
    SameContext none legacyBranch branchedStore (grownStore 31) ∧
      NothingLost ⟨[parentSegment], none⟩ branchedStore (grownStore 31) := by
  have hgrown := grown_grownStore 31 (by decide)
  have hreads : SameReads none legacyBranch branchedStore (grownStore 31) := by
    intro l hl seg hseg limit hlimit
    rw [ancestry_legacyBranch] at hl
    cases hl
    rw [List.mem_singleton.mp hseg]
    apply (answerOf_messagesInScope_iff parentSegment limit).mpr
    have hscopes : forall limit, limit ∈ scanLimits ->
        scopeOf (grownStore 31) parentSegment limit =
          scopeOf branchedStore parentSegment limit := by
      decide
    exact hscopes limit hlimit
  have hgrowth := growth_noninterference hgrown
  have hsame := hgrowth.right.left (hgrowth.left.mp hreads)
  exact ⟨hsame, hgrowth.right.right hsame _ ancestry_legacyBranch⟩

/-- One more pushes out the message that the branch had inherited. -/
theorem growth_interference :
    ¬forall (cache : Option CacheService) (conv : Conversation) (s t : Store),
      Grown cache conv s t -> SameContext cache conv s t := by
  intro h
  have hgrown := grown_grownStore 32 (by decide)
  have hevent := (h none legacyBranch branchedStore (grownStore 32) hgrown).event
  rw [answerOf_eventContext, answerOf_eventContext, hgrown.ancestry,
    ancestry_legacyBranch] at hevent
  dsimp only at hevent
  have hbefore : inheritedOf branchedStore ⟨[parentSegment], none⟩ =
      [⟨some .user, text "q", .ofInt 1, .ofInt 1⟩] := by
    decide
  have hafter : inheritedOf (grownStore 32) ⟨[parentSegment], none⟩ = [] := by
    decide
  rw [hbefore, hafter] at hevent
  cases hevent

end ConversationService
