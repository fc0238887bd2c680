import ConversationService.Effects.BranchScope
import ConversationService.Effects.Tables

/-!
# The boundary of a legacy branch

A branch without a recorded branch point inherits what its parent said no later than its
own creation. The creation time comes from Cassandra, in milliseconds and without a time
zone, or from a cache entry that its creation has left, in microseconds and with one. The
two stand for the same boundary as long as instants are compared, but Python refuses to
compare them with the times of the messages alike. This module compares what the code
answers with what the instants say.
-/

namespace ConversationService

open Python Programs

/-!
# Comparing instants
-/

/-- The message was written no later than this instant. -/
def writtenByInstant (time : Datetime) (m : Message) : Bool :=
  m.createdAt.any (fun t => decide (t.micros ≤ time.micros))

/-- The messages of a segment, with a legacy boundary read as an instant. -/
def instantScope (s : Store) (seg : Segment) (limit : Nat) : List Message :=
  match seg.uptoMessageId with
  | some upto =>
      (((s.messages seg.conversationId).rows.filter
        (fun (r : UUID × Row) => r.1 ≤ upto)).take limit).filterMap
          (MessageRepository.liveMessage seg.conversationId)
  | none =>
      match seg.uptoTime with
      | none => historyPage s seg.conversationId limit
      | some time => (historyPage s seg.conversationId limit).filter (writtenByInstant time)

/-- What `inherited_history` picks from such scopes. -/
def instantPick (s : Store) (p : BranchContextService.Picking) :
    List Segment -> BranchContextService.Picking
  | [] => p
  | seg :: rest =>
      let p := BranchContextService.pickMessages p
        ((instantScope s seg (inheritedMaxMessages * 2)).filter BranchContextService.usable)
      if p.full then p else instantPick s p rest

def instantInherited (s : Store) (l : Lineage) : List InheritedMessage :=
  (instantPick s .start l.segments.reverse).picked.reverse.map
    BranchContextService.inheritedMessage

/-- What `context` gathers from such scopes. -/
def instantGather (s : Store) (l : Lineage) (g : BranchContextService.Gathering)
    (segments : List Segment) : BranchContextService.Gathering :=
  segments.foldl (fun g seg =>
    ((instantScope s seg scanPerSegment).filter BranchContextService.usable).reverse.foldl
      (BranchContextService.gatherMessage l seg) g) g

def instantDocuments (s : Store) (l : Lineage) : List InheritedDocument :=
  (instantGather s l ⟨[], []⟩ l.segments).documents

/-- A `timestamp` column is read in milliseconds and without a time zone. -/
def Store.TimesStored (s : Store) : Prop :=
  forall c m row t, s.row c m = some row -> row.createdAt = some t -> t = t.stored

/-- What the cache holds of a conversation that is stored in this way. -/
inductive ChildEntry (stored : Conversation) : Option Conversation -> Prop where
  | absent : ChildEntry stored none
  | read : ChildEntry stored (some stored)
  | created (now : Datetime) : now.aware = true -> stored.createdAt = some now.stored ->
      ChildEntry stored (some { stored with createdAt := some now, updatedAt := some now })

/-- The answers for a child are those that its stored row and the instants give. -/
structure FollowsInstants (cache : Option CacheService) (s : Store)
    (stored conv : Conversation) : Prop where
  inherited : answerOf (BranchContextService.inheritedHistoryOf cache conv) s =
    match ancestry cache s stored with
    | some l => .ok (instantInherited s l)
    | none => .ok []
  event : answerOf (BranchContextService.eventContext cache conv) s =
    match ancestry cache s stored with
    | some l => .ok (instantInherited s l, BranchContextService.ancestorRefs l)
    | none => .ok ([], [])
  context : answerOf (BranchContextService.context cache conv) s =
    match ancestry cache s stored with
    | some l => .ok (shownContext stored l (instantDocuments s l))
    | none => .error .valueError

/--
No live message that `context` looks at meets a time that Python does not compare with
its own.
-/
def TimesComparable (cache : Option CacheService) (s : Store) (conv : Conversation) : Prop :=
  forall l, ancestry cache s conv = some l -> forall seg, seg ∈ l.segments ->
    seg.uptoMessageId = none -> forall time, seg.uptoTime = some time ->
      forall m, m ∈ historyPage s seg.conversationId scanPerSegment ->
        time.aware = false ∧ m.createdAt.isSome = true

/-!
# Cutting off microseconds
-/

/-- The segment with its time as a column keeps it. -/
def Segment.cut (seg : Segment) : Segment :=
  { seg with uptoTime := seg.uptoTime.map Datetime.stored }

def Lineage.cut (l : Lineage) : Lineage :=
  { l with segments := l.segments.map Segment.cut }

/-- Cutting off the microseconds of a boundary does not move it past a stored time. -/
theorem micros_le_stored {t : Datetime} (ht : t = t.stored) (now : Datetime) :
    t.micros ≤ now.stored.micros <-> t.micros ≤ now.micros := by
  have hmicros : t.micros = t.micros / 1000 * 1000 := congrArg Datetime.micros ht
  show t.micros ≤ now.micros / 1000 * 1000 <-> t.micros ≤ now.micros
  omega

section Cut

variable {s : Store}

theorem time_of_page (htimes : s.TimesStored) {c : UUID} {limit : Nat} {m : Message}
    (hm : m ∈ historyPage s c limit) {t : Datetime} (ht : m.createdAt = some t) :
    t = t.stored := by
  rcases (row_of_mem_page hm).right with ⟨row, shown, hrow, _, heq⟩
  rw [heq] at ht
  exact htimes _ _ row t hrow ht

theorem instantScope_cut (htimes : s.TimesStored) (seg : Segment) (limit : Nat) :
    instantScope s seg.cut limit = instantScope s seg limit := by
  unfold instantScope Segment.cut
  cases seg.uptoMessageId with
  | some upto => rfl
  | none =>
      cases seg.uptoTime with
      | none => rfl
      | some time =>
          apply List.filter_congr
          intro m hm
          unfold writtenByInstant
          cases ht : m.createdAt with
          | none => rfl
          | some t => simp only [Option.any_some, micros_le_stored (time_of_page htimes hm ht)]

theorem instantPick_cut (htimes : s.TimesStored) (p : BranchContextService.Picking)
    (segments : List Segment) :
    instantPick s p (segments.map Segment.cut) = instantPick s p segments := by
  induction segments generalizing p with
  | nil => rfl
  | cons seg rest ih =>
      rw [List.map_cons]
      unfold instantPick
      rw [instantScope_cut htimes]
      dsimp only
      rw [ih]

theorem instantInherited_cut (htimes : s.TimesStored) (l : Lineage) :
    instantInherited s l.cut = instantInherited s l := by
  unfold instantInherited Lineage.cut
  rw [← List.map_reverse, instantPick_cut htimes]

theorem titleOf_cut (l : Lineage) :
    BranchContextService.titleOf l.cut = BranchContextService.titleOf l := by
  funext c
  unfold BranchContextService.titleOf Lineage.cut
  rw [← List.map_reverse, List.find?_map]
  have hfind : (fun seg : Segment => decide (seg.conversationId = c)) ∘ Segment.cut =
      fun seg => decide (seg.conversationId = c) := rfl
  rw [hfind]
  cases l.segments.reverse.find? (fun seg => decide (seg.conversationId = c)) with
  | none => rfl
  | some seg => rfl

theorem gatherMessage_cut (l : Lineage) (seg : Segment) :
    BranchContextService.gatherMessage l.cut seg.cut =
      BranchContextService.gatherMessage l seg := by
  have hfile : BranchContextService.gatherFile l.cut seg.cut =
      BranchContextService.gatherFile l seg := by
    funext m g fid
    unfold BranchContextService.gatherFile
    rw [titleOf_cut]
    rfl
  funext g m
  unfold BranchContextService.gatherMessage
  rw [hfile]

theorem instantDocuments_cut (htimes : s.TimesStored) (l : Lineage) :
    instantDocuments s l.cut = instantDocuments s l := by
  have hgather : forall g, instantGather s l.cut g l.cut.segments =
      instantGather s l g l.segments := by
    intro g
    unfold instantGather
    show List.foldl _ g (l.segments.map Segment.cut) = _
    rw [List.foldl_map]
    congr
    funext g seg
    rw [instantScope_cut htimes, gatherMessage_cut]
  unfold instantDocuments
  rw [hgather]

end Cut

theorem ancestorRefs_cut (l : Lineage) :
    BranchContextService.ancestorRefs l.cut = BranchContextService.ancestorRefs l := by
  unfold BranchContextService.ancestorRefs Lineage.cut
  rw [List.filterMap_map]
  rfl

theorem shownContext_cut (conv : Conversation) (l : Lineage)
    (documents : List InheritedDocument) :
    shownContext conv l.cut documents = shownContext conv l documents := by
  unfold shownContext Lineage.cut
  rw [List.map_map]
  rfl

theorem lineageOf_cut {find : UUID -> Option (Option Conversation)} {owner : Option UUID}
    {depth : Nat} {seen : List UUID} {cur cur' : Conversation} {chain chain' : List Segment}
    (hparent : cur.parentConversationId = cur'.parentConversationId)
    (hboundary : forall p parent, (BranchContextService.segmentOf cur p parent).cut =
      (BranchContextService.segmentOf cur' p parent).cut)
    (hchain : chain.map Segment.cut = chain'.map Segment.cut) :
    (lineageOf find owner depth seen cur chain).map Lineage.cut =
      (lineageOf find owner depth seen cur' chain').map Lineage.cut := by
  have hend : forall truncated,
      Lineage.cut ⟨chain, truncated⟩ = Lineage.cut ⟨chain', truncated⟩ := by
    intro truncated
    unfold Lineage.cut
    dsimp only
    rw [hchain]
  induction depth generalizing seen cur cur' chain chain' with
  | zero =>
      unfold lineageOf
      rw [hparent]
      cases cur'.parentConversationId with
      | none => exact congrArg some (hend _)
      | some p => exact congrArg some (hend _)
  | succ depth ih =>
      unfold lineageOf
      rw [hparent]
      cases cur'.parentConversationId with
      | none => exact congrArg some (hend _)
      | some p =>
          dsimp only
          split
          · exact congrArg some (hend _)
          · split
            · rfl
            · exact congrArg some (hend _)
            · rename_i parent _
              split
              · exact congrArg some (hend _)
              · split
                · exact congrArg some (hend _)
                · have hlonger : (BranchContextService.segmentOf cur p parent :: chain).map
                      Segment.cut =
                      (BranchContextService.segmentOf cur' p parent :: chain').map
                        Segment.cut := by
                    rw [List.map_cons, List.map_cons, hboundary, hchain]
                  apply ih rfl (fun _ _ => rfl) hlonger
                  intro truncated
                  unfold Lineage.cut
                  dsimp only
                  rw [hlonger]

/-!
# The code's answers
-/

theorem page_mono {s : Store} {c : UUID} {n limit : Nat} (h : n ≤ limit) {m : Message}
    (hm : m ∈ historyPage s c n) : m ∈ historyPage s c limit := by
  rcases List.mem_filterMap.mp hm with ⟨entry, hentry, hlive⟩
  exact List.mem_filterMap.mpr ⟨entry, (List.take_subset_take_left _ h) hentry, hlive⟩

theorem scopeOf_instant {s : Store} (htimes : s.TimesStored) {seg : Segment} {limit : Nat}
    (h : seg.uptoMessageId = none -> forall time, seg.uptoTime = some time ->
      forall m, m ∈ historyPage s seg.conversationId limit ->
        time.aware = false ∧ m.createdAt.isSome = true) :
    scopeOf s seg limit = some (instantScope s seg limit) := by
  cases hupto : seg.uptoMessageId with
  | some upto =>
      unfold instantScope
      rw [scopeOf_recorded hupto, hupto]
  | none =>
      cases htime : seg.uptoTime with
      | none =>
          unfold scopeOf instantScope
          rw [hupto, htime]
      | some time =>
          have hwritten : forall m, m ∈ historyPage s seg.conversationId limit ->
              BranchContextService.writtenUpto time m = some (writtenByInstant time m) := by
            intro m hm
            have hcomparable := h hupto time htime m hm
            rcases Option.isSome_iff_exists.mp hcomparable.right with ⟨t, ht⟩
            have hstored := time_of_page htimes hm ht
            unfold BranchContextService.writtenUpto writtenByInstant Datetime.le?
            rw [ht, Option.bind_some, Option.any_some, hcomparable.left, hstored]
            exact if_pos rfl
          rw [scopeOf_legacy hupto htime, if_pos]
          · unfold instantScope keptUpto
            rw [hupto, htime]
            congr 1
            apply List.filter_congr
            intro m hm
            rw [hwritten m hm]
            cases writtenByInstant time m with
            | true => rfl
            | false => rfl
          · apply List.all_eq_true.mpr
            intro m hm
            rw [hwritten m hm]
            rfl

/-- A time that is not compared with some message leaves the segment without an answer. -/
theorem scopeOf_none {s : Store} (htimes : s.TimesStored) {seg : Segment} {limit : Nat}
    {time : Datetime} (hupto : seg.uptoMessageId = none) (htime : seg.uptoTime = some time)
    {m : Message} (hm : m ∈ historyPage s seg.conversationId limit)
    (h : ¬(time.aware = false ∧ m.createdAt.isSome = true)) :
    scopeOf s seg limit = none := by
  rw [scopeOf_legacy hupto htime, if_neg]
  intro hall
  have hwritten := List.all_eq_true.mp hall m hm
  unfold BranchContextService.writtenUpto Datetime.le? at hwritten
  cases ht : m.createdAt with
  | none =>
      rw [ht] at hwritten
      cases hwritten
  | some t =>
      have hstored := time_of_page htimes hm ht
      have haware : t.aware = false := by rw [hstored]; rfl
      rw [ht] at hwritten h
      cases htimeAware : time.aware with
      | false => exact h ⟨htimeAware, rfl⟩
      | true =>
          rw [Option.bind_some, haware, htimeAware] at hwritten
          cases hwritten

theorem pickOf_instant {s : Store} {segments : List Segment}
    (h : forall seg, seg ∈ segments -> scopeOf s seg (inheritedMaxMessages * 2) =
      some (instantScope s seg (inheritedMaxMessages * 2)))
    (p : BranchContextService.Picking) :
    pickOf s p segments = some (instantPick s p segments) := by
  induction segments generalizing p with
  | nil => rfl
  | cons seg rest ih =>
      unfold pickOf instantPick
      rw [h seg List.mem_cons_self, Option.bind_some]
      dsimp only
      rw [ih (fun seg' hseg' => h seg' (List.mem_cons_of_mem _ hseg'))]
      split
      · rfl
      · rfl

theorem gatherOf_instant {s : Store} {l : Lineage} {segments : List Segment}
    (h : forall seg, seg ∈ segments -> scopeOf s seg scanPerSegment =
      some (instantScope s seg scanPerSegment))
    (g : BranchContextService.Gathering) :
    gatherOf s l g segments = some (instantGather s l g segments) := by
  induction segments generalizing g with
  | nil => rfl
  | cons seg rest ih =>
      unfold gatherOf instantGather
      rw [h seg List.mem_cons_self, Option.bind_some, List.foldl_cons]
      exact ih (fun seg' hseg' => h seg' (List.mem_cons_of_mem _ hseg')) _

theorem gatherOf_none {s : Store} {l : Lineage} {segments : List Segment} {seg : Segment}
    (hseg : seg ∈ segments) (hnone : scopeOf s seg scanPerSegment = none)
    (g : BranchContextService.Gathering) : gatherOf s l g segments = none := by
  induction segments generalizing g with
  | nil => cases hseg
  | cons head rest ih =>
      unfold gatherOf
      rcases List.mem_cons.mp hseg with rfl | hrest
      · rw [hnone]
        rfl
      · cases scopeOf s head scanPerSegment with
        | none => rfl
        | some rows => exact ih hrest _

/-!
# Any child
-/

section Child

variable {cache : Option CacheService} {s : Store} {c : UUID} {stored conv : Conversation}

theorem ancestry_cut (hstored : storedConversation s c = some (some stored))
    (hentry : ChildEntry stored (cachedConversation cache s c))
    (hfound : findConversation cache s c = some (some conv)) :
    (ancestry cache s conv).map Lineage.cut = (ancestry cache s stored).map Lineage.cut ∧
      forall l documents, shownContext conv l documents = shownContext stored l documents := by
  unfold findConversation at hfound
  generalize cachedConversation cache s c = entry at hentry hfound
  cases hentry with
  | absent =>
      cases hstored.symm.trans hfound
      exact ⟨rfl, fun _ _ => rfl⟩
  | read =>
      cases hfound
      exact ⟨rfl, fun _ _ => rfl⟩
  | created now _ htime =>
      cases hfound
      refine ⟨?_, fun _ _ => rfl⟩
      unfold ancestry
      refine lineageOf_cut ?_ ?_ ?_
      · rfl
      · intro p parent
        unfold BranchContextService.segmentOf Segment.cut
        dsimp only
        rw [htime]
        cases stored.branchMessageId with
        | some upto => rfl
        | none =>
            show Segment.mk _ _ _ (some now.stored) = Segment.mk _ _ _ (some now.stored.stored)
            rw [stored_stored]
      · rfl

/--
Every entry of the child in the cache leads to what the instants say exactly where no
live message meets a time that it is not compared with.
-/
theorem legacy_boundary_iff (hstored : storedConversation s c = some (some stored))
    (hentry : ChildEntry stored (cachedConversation cache s c))
    (hfound : findConversation cache s c = some (some conv)) (htimes : s.TimesStored) :
    FollowsInstants cache s stored conv <-> TimesComparable cache s conv := by
  rcases ancestry_cut hstored hentry hfound with ⟨hcut, hshown⟩
  constructor
  · intro hfollows l hl seg hseg hupto time htime m hm
    by_contra h
    have hcontext := hfollows.context
    have hdocuments : documentsOf s l = none := by
      unfold documentsOf
      rw [gatherOf_none hseg (scopeOf_none htimes hupto htime hm h)]
      rfl
    rw [answerOf_context, hl] at hcontext
    dsimp only at hcontext
    rw [hdocuments] at hcontext
    cases hstoredLineage : ancestry cache s stored with
    | none =>
        rw [hl, hstoredLineage] at hcut
        cases hcut
    | some l' =>
        rw [hstoredLineage] at hcontext
        cases hcontext
  · intro hcomparable
    cases hl : ancestry cache s conv with
    | none =>
        have hnone : ancestry cache s stored = none := by
          rw [hl] at hcut
          exact Option.map_eq_none_iff.mp hcut.symm
        refine ⟨?_, ?_, ?_⟩
        · rw [answerOf_inheritedHistoryOf, hl, hnone]
        · rw [answerOf_eventContext, hl, hnone]
        · rw [answerOf_context, hl, hnone]
    | some l =>
        rw [hl] at hcut
        rcases Option.map_eq_some_iff.mp hcut.symm with ⟨l', hl', hsame⟩
        have hscope : forall seg, seg ∈ l.segments -> forall limit, limit ≤ scanPerSegment ->
            scopeOf s seg limit = some (instantScope s seg limit) := by
          intro seg hseg limit hlimit
          apply scopeOf_instant htimes
          intro hupto time htime m hm
          exact hcomparable l hl seg hseg hupto time htime m (page_mono hlimit hm)
        have hinherited : inheritedOf s l = instantInherited s l' := by
          rw [← instantInherited_cut htimes l', hsame, instantInherited_cut htimes]
          unfold inheritedOf instantInherited
          rw [pickOf_instant (fun seg hseg =>
            hscope seg (List.mem_reverse.mp hseg) _ (by decide))]
        have hrefs : BranchContextService.ancestorRefs l =
            BranchContextService.ancestorRefs l' := by
          rw [← ancestorRefs_cut l', hsame, ancestorRefs_cut]
        have hdocuments : documentsOf s l = some (instantDocuments s l') := by
          rw [← instantDocuments_cut htimes l', hsame, instantDocuments_cut htimes]
          unfold documentsOf instantDocuments
          rw [gatherOf_instant (fun seg hseg => hscope seg hseg _ (Nat.le_refl _))]
          rfl
        refine ⟨?_, ?_, ?_⟩
        · rw [answerOf_inheritedHistoryOf, hl, hl']
          dsimp only
          rw [hinherited]
        · rw [answerOf_eventContext, hl, hl']
          dsimp only
          rw [hinherited, hrefs]
        · rw [answerOf_context, hl, hl']
          dsimp only
          rw [hdocuments]
          dsimp only
          rw [hshown, ← shownContext_cut stored l', hsame, shownContext_cut]

end Child

/-!
# A child that was created a moment ago
-/

def legacyOwner : UUID := .ofInt 1

def legacyParent : UUID := .ofInt 2

def legacyChildId : UUID := .ofInt 3

def legacyRow (parent : Option UUID) (createdAt : Datetime) : ConversationRow :=
  { userId := some legacyOwner
    title := some []
    createdAt := some createdAt.stored
    updatedAt := some createdAt.stored
    status := some .active
    parentConversationId := parent
    branchMessageId := none }

def childCreatedAt : Datetime := ⟨5000123, true⟩

def legacyChild : Conversation :=
  { conversationId := legacyChildId
    userId := some legacyOwner
    title := some []
    createdAt := some childCreatedAt.stored
    updatedAt := some childCreatedAt.stored
    status := .active
    parentConversationId := some legacyParent
    branchMessageId := none }

/-- The child as `create` returns and caches it. -/
def createdChild : Conversation :=
  { legacyChild with createdAt := some childCreatedAt, updatedAt := some childCreatedAt }

/-- The parent has said something before the child was made. -/
def legacyStore (entry : Option Conversation) : Store :=
  (((Store.blank.upsertMessage legacyParent (.ofInt 4)
    (Row.inserted .user (text "q") ⟨4000000, true⟩ .sent none)).setConversationRow legacyParent
      (some (legacyRow none ⟨3000000, true⟩))).setConversationRow legacyChildId
        (some (legacyRow (some legacyParent) childCreatedAt))).setConversationCache legacyChildId
          entry

theorem timesStored_legacy (entry : Option Conversation) :
    (legacyStore entry).TimesStored := by
  intro c m row t hrow ht
  have hrow' : (Store.blank.upsertMessage legacyParent (.ofInt 4)
      (Row.inserted .user (text "q") ⟨4000000, true⟩ .sent none)).row c m = some row := hrow
  rw [Store.row_upsertMessage] at hrow'
  split at hrow'
  · cases hrow'
    cases ht
    rfl
  · cases hrow'

/-- The child does not see what its parent has said, and its context cannot be shown. -/
theorem created_child_cut_off :
    ChildEntry legacyChild (cachedConversation (some ⟨true⟩) (legacyStore (some createdChild))
        legacyChildId) ∧
      instantInherited (legacyStore (some createdChild))
          ⟨[⟨legacyParent, some [], none, some childCreatedAt.stored⟩], none⟩ =
        [⟨some .user, text "q", legacyParent, .ofInt 4⟩] ∧
      answerOf (BranchContextService.inheritedHistoryOf (some ⟨true⟩) createdChild)
        (legacyStore (some createdChild)) = .ok [] ∧
      answerOf (BranchContextService.context (some ⟨true⟩) createdChild)
        (legacyStore (some createdChild)) = .error .typeError ∧
      ¬forall (cache : Option CacheService) (s : Store) (c : UUID) (stored conv : Conversation),
        storedConversation s c = some (some stored) -> stored.branchMessageId = none ->
        ChildEntry stored (cachedConversation cache s c) ->
        findConversation cache s c = some (some conv) -> s.TimesStored ->
        FollowsInstants cache s stored conv := by
  have hentry : ChildEntry legacyChild (cachedConversation (some ⟨true⟩)
      (legacyStore (some createdChild)) legacyChildId) := .created childCreatedAt rfl rfl
  have hcontext : answerOf (BranchContextService.context (some ⟨true⟩) createdChild)
      (legacyStore (some createdChild)) = .error .typeError := by
    rfl
  refine ⟨hentry, by decide, by rfl, hcontext, ?_⟩
  intro h
  have hfollows := h (some ⟨true⟩) (legacyStore (some createdChild)) legacyChildId legacyChild
    createdChild rfl rfl hentry rfl (timesStored_legacy _)
  have hlineage : ancestry (some ⟨true⟩) (legacyStore (some createdChild)) legacyChild =
      some ⟨[⟨legacyParent, some [], none, some childCreatedAt.stored⟩], none⟩ := by
    rfl
  have hshown := hfollows.context
  rw [hcontext, hlineage] at hshown
  cases hshown

/-- The child as a read has cached it inherits what its parent has said. -/
theorem read_child_follows :
    FollowsInstants (some ⟨true⟩) (legacyStore (some legacyChild)) legacyChild
      legacyChild := by
  refine (legacy_boundary_iff (c := legacyChildId) rfl .read rfl (timesStored_legacy _)).mpr ?_
  intro l hl seg hseg _ time htime m hm
  have hlineage : ancestry (some ⟨true⟩) (legacyStore (some legacyChild)) legacyChild =
      some ⟨[⟨legacyParent, some [], none, some childCreatedAt.stored⟩], none⟩ := by
    rfl
  cases hlineage.symm.trans hl
  rw [List.mem_singleton.mp hseg] at htime hm
  cases htime
  have hpage : historyPage (legacyStore (some legacyChild)) legacyParent scanPerSegment =
      [MessageRepository.rowMessage legacyParent (.ofInt 4) .sent
        (Row.inserted .user (text "q") ⟨4000000, true⟩ .sent none none)] := by
    rfl
  rw [show historyPage (legacyStore (some legacyChild)) _ scanPerSegment = _ from hpage] at hm
  rw [List.mem_singleton.mp hm]
  exact ⟨rfl, rfl⟩

end ConversationService
