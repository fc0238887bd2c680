import ConversationService.Effects.Answers
import ConversationService.Effects.Pages

/-!
# Where inherited messages and documents come from

Everything that a branch inherits is read from a segment of its lineage, within the
boundary of that segment. Stores in which the segments read alike give a branch the same
context.
-/

namespace ConversationService

open Python Programs

/-!
# The ancestors are distinct
-/

theorem nodup_lineageOf {find : UUID -> Option (Option Conversation)}
    {owner : Option UUID} {depth : Nat} {seen : List UUID} {cur : Conversation}
    {chain : List Segment} {l : Lineage}
    (hl : lineageOf find owner depth seen cur chain = some l)
    (hseen : forall seg, seg ∈ chain -> seg.conversationId ∈ seen)
    (h : (chain.map Segment.conversationId).Nodup) :
    (l.segments.map Segment.conversationId).Nodup := by
  induction depth generalizing seen cur chain with
  | zero =>
      unfold lineageOf at hl
      split at hl
      · cases hl
        exact h
      · cases hl
        exact h
  | succ depth ih =>
      unfold lineageOf at hl
      split at hl
      · cases hl
        exact h
      · rename_i parentId _
        dsimp only at hl
        split at hl
        · cases hl
          exact h
        · rename_i hfresh
          split at hl
          · cases hl
          · cases hl
            exact h
          · split at hl
            · cases hl
              exact h
            · split at hl
              · cases hl
                exact h
              · apply ih hl
                · intro seg hseg
                  rcases List.mem_cons.mp hseg with rfl | hold
                  · exact List.mem_cons_self
                  · exact List.mem_cons_of_mem _ (hseen seg hold)
                · rw [List.map_cons, List.nodup_cons]
                  refine ⟨?_, h⟩
                  intro hmem
                  rcases List.mem_map.mp hmem with ⟨seg, hseg, hid⟩
                  apply hfresh
                  have hin := hseen seg hseg
                  rw [hid] at hin
                  exact hin

/-- No two segments of a lineage are of the same conversation. -/
theorem segment_eq_of_ancestry {cache : Option CacheService} {s : Store}
    {conv : Conversation} {l : Lineage} (hl : ancestry cache s conv = some l)
    {seg seg' : Segment} (hseg : seg ∈ l.segments) (hseg' : seg' ∈ l.segments)
    (h : seg.conversationId = seg'.conversationId) : seg = seg' := by
  have hnodup : (l.segments.map Segment.conversationId).Nodup := by
    apply nodup_lineageOf hl
    · intro seg hmem
      cases hmem
    · exact List.nodup_nil
  exact List.inj_on_of_nodup_map hnodup hseg hseg' h

/-!
# One segment
-/

/-- A legacy boundary keeps the messages that were written in time. -/
def keptUpto (time : Datetime) (page : List Message) : List Message :=
  page.filter (fun m => BranchContextService.writtenUpto time m = some true)

theorem scopeOf_recorded {s : Store} {seg : Segment} {upto : UUID}
    (hupto : seg.uptoMessageId = some upto) (limit : Nat) :
    scopeOf s seg limit = some ((((s.messages seg.conversationId).rows.filter
      (fun (r : UUID × Row) => r.1 ≤ upto)).take limit).filterMap
        (MessageRepository.liveMessage seg.conversationId)) := by
  unfold scopeOf
  rw [hupto]

theorem mapM_writtenUpto (time : Datetime) (page : List Message) :
    (page.mapM (fun m =>
      (BranchContextService.writtenUpto time m).map (fun b => (m, b)))).map
        (fun marked => (marked.filter (fun p => p.2)).map Prod.fst) =
      if page.all (fun m => (BranchContextService.writtenUpto time m).isSome) then
        some (keptUpto time page)
      else none := by
  induction page with
  | nil => rfl
  | cons m rest ih =>
      rw [List.mapM_cons]
      cases hwritten : BranchContextService.writtenUpto time m with
      | none => simp [hwritten]
      | some b =>
          unfold keptUpto at ih ⊢
          cases hrest : rest.mapM (fun m =>
              (BranchContextService.writtenUpto time m).map (fun b => (m, b))) with
          | none =>
              rw [hrest] at ih
              have hall : rest.all (fun m =>
                  (BranchContextService.writtenUpto time m).isSome) = false := by
                by_contra hne
                rw [Bool.not_eq_false] at hne
                rw [hne] at ih
                cases ih
              simp [hwritten, hall]
          | some marked =>
              rw [hrest] at ih
              have hall : rest.all (fun m =>
                  (BranchContextService.writtenUpto time m).isSome) = true := by
                by_contra hne
                rw [Bool.not_eq_true] at hne
                rw [hne] at ih
                cases ih
              rw [hall, if_pos rfl] at ih
              have hkept := Option.some.inj ih
              cases b with
              | true => simpa [hwritten, hall] using hkept
              | false => simpa [hwritten, hall] using hkept

theorem scopeOf_legacy {s : Store} {seg : Segment} {time : Datetime}
    (hupto : seg.uptoMessageId = none) (htime : seg.uptoTime = some time) (limit : Nat) :
    scopeOf s seg limit =
      if (historyPage s seg.conversationId limit).all
          (fun m => (BranchContextService.writtenUpto time m).isSome) then
        some (keptUpto time (historyPage s seg.conversationId limit))
      else none := by
  unfold scopeOf
  rw [hupto, htime]
  exact mapM_writtenUpto time _

theorem boundary_of_parent {cache : Option CacheService} {s : Store} {conv : Conversation}
    {l : Lineage} {p : UUID} (hl : ancestry cache s conv = some l)
    (hparent : conv.parentConversationId = some p) {seg : Segment}
    (hseg : seg ∈ l.segments) (hid : seg.conversationId = p) :
    seg.uptoMessageId = conv.branchMessageId := by
  have hroot : forall {chain : List Segment}, seg ∈ chain -> chain = [] -> False := by
    intro chain hmem hnil
    rw [hnil] at hmem
    cases hmem
  have hwalk := hl
  unfold ancestry maxLineageDepth lineageOf at hwalk
  rw [hparent] at hwalk
  dsimp only at hwalk
  split at hwalk
  · cases hwalk
    exact (hroot hseg rfl).elim
  · split at hwalk
    · cases hwalk
    · cases hwalk
      exact (hroot hseg rfl).elim
    · rename_i parent _
      split at hwalk
      · cases hwalk
        exact (hroot hseg rfl).elim
      · split at hwalk
        · cases hwalk
          exact (hroot hseg rfl).elim
        · have hmem : BranchContextService.segmentOf conv p parent ∈ l.segments :=
            mem_lineageOf_of_mem hwalk (by simp)
          have hsame : seg = BranchContextService.segmentOf conv p parent :=
            segment_eq_of_ancestry hl hseg hmem hid
          rw [hsame]
          rfl

/-- A message in scope is a row of the segment. -/
structure InSegment (s : Store) (seg : Segment) (m : Message) : Prop where
  conversationId : m.conversationId = seg.conversationId
  stored : exists row, s.row seg.conversationId m.messageId = some row ∧
    m.sender = row.sender
  upto : forall upto, seg.uptoMessageId = some upto -> m.messageId ≤ upto

theorem mem_scopeOf {s : Store} {seg : Segment} {limit : Nat} {rows : List Message}
    {m : Message} (hrows : scopeOf s seg limit = some rows) (hm : m ∈ rows) :
    InSegment s seg m := by
  have hpage : m ∈ historyPage s seg.conversationId limit ->
      (forall upto, seg.uptoMessageId = some upto -> m.messageId ≤ upto) ->
      InSegment s seg m := by
    intro hmem hupto
    rcases (row_of_mem_page hmem).right with ⟨row, shown, hrow, _, heq⟩
    refine ⟨?_, ⟨row, hrow, ?_⟩, hupto⟩
    · rw [heq]
      rfl
    · rw [heq]
      rfl
  cases hupto : seg.uptoMessageId with
  | some upto =>
      rw [scopeOf_recorded hupto] at hrows
      cases hrows
      rcases List.mem_filterMap.mp hm with ⟨entry, hentry, hlive⟩
      unfold MessageRepository.liveMessage at hlive
      rcases Option.map_eq_some_iff.mp hlive with ⟨shown, _, rfl⟩
      rcases List.mem_filter.mp (List.mem_of_mem_take hentry) with ⟨hstored, hle⟩
      refine ⟨rfl, ⟨entry.2, row_of_mem_rows hstored, rfl⟩, ?_⟩
      intro upto' hupto'
      rw [hupto] at hupto'
      cases hupto'
      exact of_decide_eq_true hle
  | none =>
      have hnone : forall upto, seg.uptoMessageId = some upto -> m.messageId ≤ upto := by
        intro upto hsome
        rw [hupto] at hsome
        cases hsome
      cases htime : seg.uptoTime with
      | none =>
          unfold scopeOf at hrows
          rw [hupto, htime] at hrows
          cases hrows
          exact hpage hm hnone
      | some time =>
          rw [scopeOf_legacy hupto htime] at hrows
          split at hrows
          · cases hrows
            exact hpage (List.mem_filter.mp hm).left hnone
          · cases hrows

/-!
# The inherited history
-/

theorem mem_pickMessages {p : BranchContextService.Picking} {rows : List Message}
    {m : Message} (h : m ∈ (BranchContextService.pickMessages p rows).picked) :
    m ∈ p.picked ∨ m ∈ rows := by
  induction rows generalizing p with
  | nil => exact Or.inl h
  | cons head rest ih =>
      unfold BranchContextService.pickMessages at h
      dsimp only at h
      split at h
      · cases ih h with
        | inl hbefore => exact Or.inl hbefore
        | inr hrest => exact Or.inr (List.mem_cons_of_mem _ hrest)
      · split at h
        · exact Or.inl h
        · rcases ih h with hbefore | hrest
          · rcases List.mem_append.mp hbefore with hpicked | hhead
            · exact Or.inl hpicked
            · exact Or.inr (by simp [List.mem_singleton.mp hhead])
          · exact Or.inr (List.mem_cons_of_mem _ hrest)

/-- A usable message that one of the segments has in scope. -/
def ReadFrom (s : Store) (segments : List Segment) (limit : Nat) (m : Message) : Prop :=
  exists seg rows, seg ∈ segments ∧ scopeOf s seg limit = some rows ∧ m ∈ rows ∧
    BranchContextService.usable m = true

theorem ReadFrom.cons {s : Store} {segments : List Segment} {limit : Nat} {m : Message}
    (h : ReadFrom s segments limit m) (seg : Segment) :
    ReadFrom s (seg :: segments) limit m := by
  rcases h with ⟨seg', rows, hseg, hrows, hm, husable⟩
  exact ⟨seg', rows, List.mem_cons_of_mem _ hseg, hrows, hm, husable⟩

theorem mem_pickOf {s : Store} {p q : BranchContextService.Picking}
    {segments : List Segment} {m : Message} (hq : pickOf s p segments = some q)
    (h : m ∈ q.picked) :
    m ∈ p.picked ∨ ReadFrom s segments (inheritedMaxMessages * 2) m := by
  induction segments generalizing p with
  | nil =>
      cases hq
      exact Or.inl h
  | cons seg rest ih =>
      unfold pickOf at hq
      rcases Option.bind_eq_some_iff.mp hq with ⟨rows, hrows, hpick⟩
      have hhere : m ∈ (BranchContextService.pickMessages p
            (rows.filter BranchContextService.usable)).picked ->
          m ∈ p.picked ∨ ReadFrom s (seg :: rest) (inheritedMaxMessages * 2) m := by
        intro hpicked
        cases mem_pickMessages hpicked with
        | inl hbefore => exact Or.inl hbefore
        | inr hmem =>
            rcases List.mem_filter.mp hmem with ⟨hm, husable⟩
            exact Or.inr ⟨seg, rows, by simp, hrows, hm, husable⟩
      dsimp only at hpick
      split at hpick
      · cases hpick
        exact hhere h
      · cases ih hpick with
        | inl hpicked => exact hhere hpicked
        | inr hrest => exact Or.inr (hrest.cons seg)

theorem mem_inheritedOf {s : Store} {l : Lineage} {entry : InheritedMessage}
    (h : entry ∈ inheritedOf s l) :
    exists m, ReadFrom s l.segments (inheritedMaxMessages * 2) m ∧
      entry = BranchContextService.inheritedMessage m := by
  unfold inheritedOf at h
  split at h
  · rename_i q hq
    rcases List.mem_map.mp h with ⟨m, hm, rfl⟩
    cases mem_pickOf hq (List.mem_reverse.mp hm) with
    | inl hstart => cases hstart
    | inr hread =>
        rcases hread with ⟨seg, rows, hseg, hrest⟩
        exact ⟨m, ⟨seg, rows, List.mem_reverse.mp hseg, hrest⟩, rfl⟩
  · cases h

/-!
# The documents
-/

/-- A document that a user's message of the segment has attached. -/
structure AttachedTo (seg : Segment) (m : Message) (d : InheritedDocument) : Prop where
  sender : m.sender = some .user
  file : d.documentId ∈ m.fileIds
  conversation : d.sourceConversationId = seg.conversationId
  message : d.sourceMessageId = m.messageId

theorem mem_gatherFiles {l : Lineage} {seg : Segment} {m : Message} {fids : List UUID}
    {g : BranchContextService.Gathering} {d : InheritedDocument}
    (h : d ∈ (fids.foldl (BranchContextService.gatherFile l seg m) g).documents) :
    d ∈ g.documents ∨ (d.documentId ∈ fids ∧
      d.sourceConversationId = seg.conversationId ∧ d.sourceMessageId = m.messageId) := by
  induction fids generalizing g with
  | nil => exact Or.inl h
  | cons fid rest ih =>
      rw [List.foldl_cons] at h
      rcases ih h with hbefore | ⟨hfile, hsource⟩
      · unfold BranchContextService.gatherFile at hbefore
        split at hbefore
        · exact Or.inl hbefore
        · rcases List.mem_append.mp hbefore with hold | hnew
          · exact Or.inl hold
          · rw [List.mem_singleton.mp hnew]
            exact Or.inr ⟨by simp, rfl, rfl⟩
      · exact Or.inr ⟨List.mem_cons_of_mem _ hfile, hsource⟩

theorem mem_gatherMessages {l : Lineage} {seg : Segment} {rows : List Message}
    {g : BranchContextService.Gathering} {d : InheritedDocument}
    (h : d ∈ (rows.foldl (BranchContextService.gatherMessage l seg) g).documents) :
    d ∈ g.documents ∨ exists m, m ∈ rows ∧ AttachedTo seg m d := by
  induction rows generalizing g with
  | nil => exact Or.inl h
  | cons m rest ih =>
      rw [List.foldl_cons] at h
      rcases ih h with hbefore | ⟨m', hm', hattached⟩
      · unfold BranchContextService.gatherMessage at hbefore
        split at hbefore
        · rename_i hsender
          rcases mem_gatherFiles hbefore with hold | ⟨hfile, hconversation, hmessage⟩
          · exact Or.inl hold
          · exact Or.inr ⟨m, by simp, hsender, hfile, hconversation, hmessage⟩
        · exact Or.inl hbefore
      · exact Or.inr ⟨m', List.mem_cons_of_mem _ hm', hattached⟩

theorem mem_gatherOf {s : Store} {l : Lineage} {g g' : BranchContextService.Gathering}
    {segments : List Segment} {d : InheritedDocument}
    (hg : gatherOf s l g segments = some g') (h : d ∈ g'.documents) :
    d ∈ g.documents ∨ exists seg rows m, seg ∈ segments ∧
      scopeOf s seg scanPerSegment = some rows ∧ m ∈ rows ∧ AttachedTo seg m d := by
  induction segments generalizing g with
  | nil =>
      cases hg
      exact Or.inl h
  | cons seg rest ih =>
      unfold gatherOf at hg
      rcases Option.bind_eq_some_iff.mp hg with ⟨rows, hrows, hgather⟩
      rcases ih hgather with hhere | ⟨seg', rows', m, hseg, hother⟩
      · rcases mem_gatherMessages hhere with hbefore | ⟨m, hm, hattached⟩
        · exact Or.inl hbefore
        · have hmem := List.mem_reverse.mp hm
          exact Or.inr ⟨seg, rows, m, by simp, hrows, (List.mem_filter.mp hmem).left,
            hattached⟩
      · exact Or.inr ⟨seg', rows', m, List.mem_cons_of_mem _ hseg, hother⟩

theorem mem_documentsOf {s : Store} {l : Lineage} {documents : List InheritedDocument}
    {d : InheritedDocument} (hdocuments : documentsOf s l = some documents)
    (h : d ∈ documents) :
    exists seg rows m, seg ∈ l.segments ∧ scopeOf s seg scanPerSegment = some rows ∧
      m ∈ rows ∧ AttachedTo seg m d := by
  unfold documentsOf at hdocuments
  rcases Option.map_eq_some_iff.mp hdocuments with ⟨g, hg, rfl⟩
  cases mem_gatherOf hg h with
  | inl hstart => cases hstart
  | inr hfrom => exact hfrom

/-!
# Segments that read alike
-/

theorem pickOf_of_scopes {s t : Store} {segments : List Segment}
    (h : forall seg, seg ∈ segments ->
      scopeOf t seg (inheritedMaxMessages * 2) = scopeOf s seg (inheritedMaxMessages * 2))
    (p : BranchContextService.Picking) : pickOf t p segments = pickOf s p segments := by
  induction segments generalizing p with
  | nil => rfl
  | cons seg rest ih =>
      unfold pickOf
      rw [h seg (by simp)]
      congr
      funext rows
      dsimp only
      rw [ih (fun seg' hseg' => h seg' (List.mem_cons_of_mem _ hseg'))]

theorem inheritedOf_of_scopes {s t : Store} {l : Lineage}
    (h : forall seg, seg ∈ l.segments ->
      scopeOf t seg (inheritedMaxMessages * 2) = scopeOf s seg (inheritedMaxMessages * 2)) :
    inheritedOf t l = inheritedOf s l := by
  unfold inheritedOf
  rw [pickOf_of_scopes (fun seg hseg => h seg (List.mem_reverse.mp hseg))]

theorem gatherOf_of_scopes {s t : Store} {l : Lineage} {segments : List Segment}
    (h : forall seg, seg ∈ segments ->
      scopeOf t seg scanPerSegment = scopeOf s seg scanPerSegment)
    (g : BranchContextService.Gathering) :
    gatherOf t l g segments = gatherOf s l g segments := by
  induction segments generalizing g with
  | nil => rfl
  | cons seg rest ih =>
      unfold gatherOf
      rw [h seg (by simp)]
      congr
      funext rows
      exact ih (fun seg' hseg' => h seg' (List.mem_cons_of_mem _ hseg')) _

theorem documentsOf_of_scopes {s t : Store} {l : Lineage}
    (h : forall seg, seg ∈ l.segments ->
      scopeOf t seg scanPerSegment = scopeOf s seg scanPerSegment) :
    documentsOf t l = documentsOf s l := by
  unfold documentsOf
  rw [gatherOf_of_scopes h]

/-!
# The answers
-/

section Answers

variable (cache : Option CacheService) (conv : Conversation) (s : Store)

theorem answerOf_messagesInScope (seg : Segment) (limit : Nat) :
    answerOf (BranchContextService.messagesInScope seg limit) s =
      match scopeOf s seg limit with
      | some rows => .ok rows
      | none => .error .typeError := by
  apply answerOf_eq_of_wp
  apply wp_messagesInScope
  · intro rows hrows
    rw [hrows]
  · intro hnone
    rw [hnone]

theorem answerOf_inheritedHistoryOf :
    answerOf (BranchContextService.inheritedHistoryOf cache conv) s =
      match ancestry cache s conv with
      | some l => .ok (inheritedOf s l)
      | none => .ok [] := by
  apply answerOf_eq_of_wp
  apply wp_inheritedHistoryOf
  · intro l t hl _
    rw [hl]
  · intro t hnone _
    rw [hnone]

theorem answerOf_eventContext :
    answerOf (BranchContextService.eventContext cache conv) s =
      match ancestry cache s conv with
      | some l => .ok (inheritedOf s l, BranchContextService.ancestorRefs l)
      | none => .ok ([], []) := by
  apply answerOf_eq_of_wp
  apply wp_eventContext
  · intro l t hl _
    rw [hl]
  · intro t hnone _
    rw [hnone]

theorem answerOf_context :
    answerOf (BranchContextService.context cache conv) s =
      match ancestry cache s conv with
      | some l =>
          match documentsOf s l with
          | some documents => .ok (shownContext conv l documents)
          | none => .error .typeError
      | none => .error .valueError := by
  apply answerOf_eq_of_wp
  apply wp_context
  · intro l documents t hl hdocuments _
    rw [hl]
    dsimp only
    rw [hdocuments]
  · intro t hnone _
    rw [hnone]
  · intro l t hl hnone _
    rw [hl]
    dsimp only
    rw [hnone]

end Answers

end ConversationService
