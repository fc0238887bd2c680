import ConversationService.Effects.Inheritance

/-!
# The lineage of a conversation

On any graph of parent pointers `lineage` follows consecutive parents as far as it may:
it stops at a conversation without a parent, or names what is wrong with the next one.
-/

namespace ConversationService

open Python Programs

/-!
# Chains of ancestors
-/

section Chains

variable (graph : UUID -> Option Conversation) (owner : Option UUID)

/-- An existing ancestor of the same owner that is not deleted. -/
structure Admitted (parentId : UUID) (parent : Conversation) : Prop where
  found : graph parentId = some parent
  owner : parent.userId = owner
  live : parent.status ≠ .deleted

/--
The segment of a parent, bounded by what the conversation `cur` directly below it records:
the message it was branched at, or else the time of its creation.
-/
structure BoundedBelow (cur : Conversation) (parentId : UUID) (parent : Conversation)
    (seg : Segment) : Prop where
  conversationId : seg.conversationId = parentId
  title : seg.title = parent.title
  uptoMessageId : seg.uptoMessageId = cur.branchMessageId
  unbounded : cur.branchMessageId.isSome = true -> seg.uptoTime = none
  uptoTime : cur.branchMessageId = none -> seg.uptoTime = cur.createdAt

theorem boundedBelow_segmentOf (cur : Conversation) (parentId : UUID) (parent : Conversation) :
    BoundedBelow cur parentId parent (BranchContextService.segmentOf cur parentId parent) := by
  constructor
  · rfl
  · rfl
  · rfl
  · intro hsome
    exact if_pos hsome
  · intro hnone
    exact if_neg (by simp [hnone])

/--
The segments of consecutive parents, the nearest one first, from a conversation up to
`last`. Each is bounded by the conversation directly below it.
-/
inductive Ancestors : Conversation -> List Segment -> Conversation -> Prop where
  | nil (cur : Conversation) : Ancestors cur [] cur
  | cons {cur parent last : Conversation} {parentId : UUID} {seg : Segment}
      {segments : List Segment} :
      cur.parentConversationId = some parentId -> Admitted graph owner parentId parent ->
        BoundedBelow cur parentId parent seg -> Ancestors parent segments last ->
          Ancestors cur (seg :: segments) last

variable {graph owner}

theorem ancestors_snoc {cur last parent : Conversation} {parentId : UUID}
    {seg : Segment} {segments : List Segment} (h : Ancestors graph owner cur segments last)
    (hparent : last.parentConversationId = some parentId)
    (hadmitted : Admitted graph owner parentId parent)
    (hbound : BoundedBelow last parentId parent seg) :
    Ancestors graph owner cur (segments ++ [seg]) parent := by
  induction h with
  | nil cur => exact .cons hparent hadmitted hbound (.nil parent)
  | cons hcur hnext hbelow _ ih => exact .cons hcur hnext hbelow (ih hparent hbound)

end Chains

def Lineage.ids (l : Lineage) : List UUID :=
  l.segments.map Segment.conversationId

/-- What a truncation says about the first ancestor that was left out. -/
def Truncation.Holds (graph : UUID -> Option Conversation) (conv : Conversation)
    (l : Lineage) (omitted : UUID) : Truncation -> Prop
  | .maxDepth => l.segments.length = maxLineageDepth
  | .cycle => omitted = conv.conversationId ∨ omitted ∈ l.ids
  | .missingAncestor => graph omitted = none
  | .inaccessibleAncestor =>
      exists parent, graph omitted = some parent ∧ parent.userId ≠ conv.userId
  | .deletedAncestor =>
      exists parent, graph omitted = some parent ∧ parent.status = .deleted

structure Dated (graph : UUID -> Option Conversation) (conv : Conversation) : Prop where
  own : conv.createdAt.isSome = true
  others : forall c parent, graph c = some parent -> parent.createdAt.isSome = true

/-- A segment is bounded by a message or by a time, and never by both. -/
structure OneBoundary (graph : UUID -> Option Conversation) (conv : Conversation)
    (seg : Segment) : Prop where
  message : seg.uptoMessageId.isSome = true -> seg.uptoTime = none
  time : Dated graph conv -> seg.uptoMessageId = none -> seg.uptoTime.isSome = true

theorem oneBoundary_segmentOf {graph : UUID -> Option Conversation}
    {conv cur parent : Conversation} {parentId : UUID}
    (hdated : Dated graph conv -> cur.createdAt.isSome = true) :
    OneBoundary graph conv (BranchContextService.segmentOf cur parentId parent) := by
  unfold BranchContextService.segmentOf
  constructor
  · intro hupto
    exact if_pos hupto
  · intro h hnone
    dsimp only at hnone ⊢
    rw [hnone]
    exact hdated h

/-- A lineage is sound, and cut only where it has to be. -/
structure SoundLineage (graph : UUID -> Option Conversation) (conv : Conversation)
    (l : Lineage) : Prop where
  bounded : l.segments.length ≤ 25
  distinct : l.ids.Nodup
  proper : conv.conversationId ∉ l.ids
  boundary : forall seg, seg ∈ l.segments -> OneBoundary graph conv seg
  chain : exists last, Ancestors graph conv.userId conv l.segments.reverse last ∧
    match l.truncated with
    | none => last.parentConversationId = none
    | some reason => exists omitted, last.parentConversationId = some omitted ∧
        reason.Holds graph conv l omitted

section Walk

variable {graph : UUID -> Option Conversation} {conv : Conversation}

/-- What holds between two rounds of the loop. -/
structure Walking (graph : UUID -> Option Conversation) (conv : Conversation)
    (depth : Nat) (seen : List UUID) (cur : Conversation) (chain : List Segment) :
    Prop where
  budget : chain.length + depth = maxLineageDepth
  visited : seen = chain.map Segment.conversationId ++ [conv.conversationId]
  distinct : seen.Nodup
  dated : Dated graph conv -> cur.createdAt.isSome = true
  boundary : forall seg, seg ∈ chain -> OneBoundary graph conv seg
  chain : Ancestors graph conv.userId conv chain.reverse cur

theorem Walking.start (graph : UUID -> Option Conversation) (conv : Conversation) :
    Walking graph conv maxLineageDepth [conv.conversationId] conv [] := by
  constructor
  · rfl
  · rfl
  · simp
  · exact Dated.own
  · intro seg h
    cases h
  · exact .nil conv

theorem Walking.next {depth : Nat} {seen : List UUID} {cur parent : Conversation}
    {chain : List Segment} {parentId : UUID}
    (h : Walking graph conv (depth + 1) seen cur chain)
    (hparent : cur.parentConversationId = some parentId) (hnew : parentId ∉ seen)
    (hadmitted : Admitted graph conv.userId parentId parent) :
    Walking graph conv depth (parentId :: seen) parent
      (BranchContextService.segmentOf cur parentId parent :: chain) := by
  constructor
  · have hbudget := h.budget
    rw [List.length_cons]
    omega
  · rw [h.visited]
    rfl
  · exact List.nodup_cons.mpr ⟨hnew, h.distinct⟩
  · intro hdated
    exact hdated.others parentId parent hadmitted.found
  · intro seg hseg
    rcases List.mem_cons.mp hseg with rfl | hold
    · exact oneBoundary_segmentOf h.dated
    · exact h.boundary seg hold
  · rw [List.reverse_cons]
    exact ancestors_snoc h.chain hparent hadmitted (boundedBelow_segmentOf _ _ _)

/-- The chain of a walk is a sound lineage once the reason for stopping is true. -/
theorem Walking.stop {depth : Nat} {seen : List UUID} {cur : Conversation}
    {chain : List Segment} {truncated : Option Truncation}
    (h : Walking graph conv depth seen cur chain)
    (hstop : match truncated with
      | none => cur.parentConversationId = none
      | some reason => exists omitted, cur.parentConversationId = some omitted ∧
          reason.Holds graph conv ⟨chain, truncated⟩ omitted) :
    SoundLineage graph conv ⟨chain, truncated⟩ := by
  have hdistinct := h.distinct
  rw [h.visited] at hdistinct
  rcases List.nodup_append.mp hdistinct with ⟨hids, _, hapart⟩
  constructor
  · have hbudget := h.budget
    unfold maxLineageDepth at hbudget
    show chain.length ≤ 25
    omega
  · exact hids
  · intro hmem
    exact hapart _ hmem _ (List.mem_singleton.mpr rfl) rfl
  · exact h.boundary
  · exact ⟨cur, h.chain, hstop⟩

theorem sound_lineageOf {find : UUID -> Option (Option Conversation)}
    (hfind : forall c, find c = some (graph c)) {depth : Nat} {seen : List UUID}
    {cur : Conversation} {chain : List Segment}
    (h : Walking graph conv depth seen cur chain) :
    exists l, lineageOf find conv.userId depth seen cur chain = some l ∧
      SoundLineage graph conv l := by
  induction depth generalizing seen cur chain with
  | zero =>
      unfold lineageOf
      cases hparent : cur.parentConversationId with
      | none => exact ⟨_, rfl, h.stop hparent⟩
      | some parentId => exact ⟨_, rfl, h.stop ⟨parentId, hparent, h.budget⟩⟩
  | succ depth ih =>
      unfold lineageOf
      cases hparent : cur.parentConversationId with
      | none => exact ⟨_, rfl, h.stop hparent⟩
      | some parentId =>
          dsimp only
          by_cases hseen : parentId ∈ seen
          · rw [if_pos hseen]
            refine ⟨_, rfl, h.stop ⟨parentId, hparent, ?_⟩⟩
            rw [h.visited] at hseen
            rcases List.mem_append.mp hseen with hchain | hself
            · exact Or.inr hchain
            · exact Or.inl (List.mem_singleton.mp hself)
          · rw [if_neg hseen, hfind]
            cases hgraph : graph parentId with
            | none => exact ⟨_, rfl, h.stop ⟨parentId, hparent, hgraph⟩⟩
            | some parent =>
                dsimp only
                by_cases howner : parent.userId ≠ conv.userId
                · rw [if_pos howner]
                  exact ⟨_, rfl, h.stop ⟨parentId, hparent, parent, hgraph, howner⟩⟩
                · rw [if_neg howner]
                  by_cases hdeleted : parent.status = .deleted
                  · rw [if_pos hdeleted]
                    exact ⟨_, rfl, h.stop ⟨parentId, hparent, parent, hgraph, hdeleted⟩⟩
                  · rw [if_neg hdeleted]
                    exact ih (h.next hparent hseen
                      ⟨hgraph, not_not.mp howner, hdeleted⟩)

end Walk

/--
On every graph of conversations `lineage` ends, and answers the sound lineage of the
conversation that it is given.
-/
theorem lineage_sound {cache : Option CacheService} {s : Store}
    {graph : UUID -> Option Conversation}
    (hgraph : forall c, findConversation cache s c = some (graph c))
    (conv : Conversation) :
    exists l, SoundLineage graph conv l ∧
      (exists t, Prog.Finishes storageMachine noFault
        (BranchContextService.lineage cache conv) s (.ok l) t) ∧
      forall result t, Prog.Finishes storageMachine noFault
        (BranchContextService.lineage cache conv) s result t -> result = .ok l := by
  rcases sound_lineageOf hgraph (Walking.start graph conv) with ⟨l, hl, hsound⟩
  have hwp : Prog.wp storageMachine noFault (BranchContextService.lineage cache conv)
      (fun l' _ => l' = l) (fun _ _ => False) s := by
    apply wp_lineageFrom
    · intro l' t hl' _
      rw [hl] at hl'
      exact (Option.some.inj hl').symm
    · intro t hnone _
      rw [hl] at hnone
      cases hnone
  have hall : forall result t, Prog.Finishes storageMachine noFault
      (BranchContextService.lineage cache conv) s result t -> result = .ok l := by
    intro result t hfin
    have hend := Prog.wp_finishes hwp hfin
    cases result with
    | ok l' => exact congrArg Except.ok hend
    | error e => exact hend.elim
  rcases exists_finishes_noFault (BranchContextService.lineage cache conv) s with
    ⟨result, t, hfin⟩
  refine ⟨l, hsound, ⟨t, ?_⟩, hall⟩
  rw [hall result t hfin] at hfin
  exact hfin

def cyclicStore : Store :=
  { Store.blank with
    conversations := fun c =>
      if c = .ofInt 1 ∨ c = .ofInt 2 then
        some
          { userId := some (.ofInt 5)
            title := some []
            createdAt := some ⟨0, false⟩
            updatedAt := some ⟨0, false⟩
            status := some .active
            parentConversationId := if c = .ofInt 1 then some (.ofInt 2) else some (.ofInt 1)
            branchMessageId := none }
      else none }

def cyclicGraph (c : UUID) : Option Conversation :=
  (cyclicStore.conversations c).bind (ConversationRepository.conversationOfRow? c)

theorem findConversation_cyclicStore (c : UUID) :
    findConversation none cyclicStore c = some (cyclicGraph c) := by
  unfold findConversation cachedConversation storedConversation cyclicGraph cyclicStore
  dsimp only
  split
  · rename_i hnone
    rw [hnone]
    rfl
  · rename_i row hrow
    rw [hrow]
    split at hrow
    · cases hrow
      rfl
    · cases hrow

theorem lineage_sound_cycle : exists conv, cyclicGraph (.ofInt 1) = some conv ∧
    exists l, SoundLineage cyclicGraph conv l ∧
      (exists t, Prog.Finishes storageMachine noFault
        (BranchContextService.lineage none conv) cyclicStore (.ok l) t) ∧
      forall result t, Prog.Finishes storageMachine noFault
        (BranchContextService.lineage none conv) cyclicStore result t ->
          result = .ok l := by
  have hfound : (cyclicGraph (.ofInt 1)).isSome = true := by decide
  rcases Option.isSome_iff_exists.mp hfound with ⟨conv, hconv⟩
  exact ⟨conv, hconv, lineage_sound findConversation_cyclicStore conv⟩

end ConversationService
