import ConversationService.Library.ParentLinks
import ConversationService.Model.HierarchyService

/-!
# Families of conversations

The scope of a conversation in a hierarchy is the whole family that is connected to it by
listed parents, whatever the parents are: a parent may be missing, be the conversation
itself, or close a cycle.
-/

namespace ConversationService

open Python ParentLinks

def Listed (conversations : List Conversation) (id : UUID) : Prop :=
  exists c, c ∈ conversations ∧ c.conversationId = id

/-- Repeated rows of a conversation name one parent. -/
def SameParents (conversations : List Conversation) : Prop :=
  forall c c', c ∈ conversations -> c' ∈ conversations ->
    c.conversationId = c'.conversationId -> c.parentConversationId = c'.parentConversationId

/-- A listed conversation and its listed parent. -/
def LinkedTo (conversations : List Conversation) (id parent : UUID) : Prop :=
  (exists c, c ∈ conversations ∧ c.conversationId = id ∧
    c.parentConversationId = some parent) ∧ Listed conversations parent

/-- The listed parent of a conversation. -/
def Hierarchy.listedParent (h : Hierarchy) (id : UUID) : Option UUID :=
  (h.parentOf id).filter h.has

/-- A row of one conversation is older than all rows of another one. -/
def OlderThan (conversations : List Conversation) (y z : UUID) : Prop :=
  exists c, c ∈ conversations ∧ c.conversationId = y ∧
    forall d, d ∈ conversations -> d.conversationId = z -> siblingKey c < siblingKey d

/-- The ids are the family of a conversation, below the root. -/
structure IsFamily (conversations : List Conversation) (h : Hierarchy) (x root : UUID)
    (ids : List UUID) : Prop where
  nodup : ids.Nodup
  members : forall y, y ∈ ids <->
    Listed conversations y ∧ Relation.EqvGen (LinkedTo conversations) x y
  parentsFirst : forall y, y ∈ ids -> y ≠ root ->
    exists p, LinkedTo conversations y p ∧ Precedes ids p y
  oldestFirst : forall y z p, y ∈ ids -> z ∈ ids -> y ≠ root -> z ≠ root ->
    LinkedTo conversations y p -> LinkedTo conversations z p ->
    OlderThan conversations y z -> Precedes ids y z
  depth : forall y, y ∈ ids -> Distance h.listedParent root y (h.depthOf y root)

/-- The walks have come to their ends: with more steps they would give the same. -/
structure WalksEnd (h : Hierarchy) : Prop where
  root : forall x steps, h.has x = true -> h.conversations.length ≤ steps ->
    h.rootFrom steps [] x = h.rootOf x
  subtree : forall root steps, h.edges.length + 1 ≤ steps ->
    h.subtreeFrom steps [root] [] = h.subtree root
  depth : forall y root steps, h.has y = true -> h.conversations.length ≤ steps ->
    h.depthFrom root steps [] y = h.depthOf y root

/-!
# Nodes and edges
-/

namespace Hierarchy

variable {h : Hierarchy} {conversations : List Conversation}

theorem has_iff (id : UUID) : h.has id = true <-> Listed h.conversations id := by
  unfold has node? Listed
  rw [List.find?_isSome]
  constructor
  · intro hfind
    rcases hfind with ⟨c, hc, hid⟩
    exact ⟨c, List.mem_reverse.mp hc, by simpa using hid⟩
  · intro hlisted
    rcases hlisted with ⟨c, hc, hid⟩
    exact ⟨c, List.mem_reverse.mpr hc, by simpa using hid⟩

theorem parentOf_iff (hsame : SameParents h.conversations) (id parent : UUID) :
    h.parentOf id = some parent <->
      exists c, c ∈ h.conversations ∧ c.conversationId = id ∧
        c.parentConversationId = some parent := by
  unfold parentOf
  rw [Option.bind_eq_some_iff]
  constructor
  · intro hnode
    rcases hnode with ⟨c, hc, hparent⟩
    have hmem := List.mem_reverse.mp (List.mem_of_find?_eq_some hc)
    have hid := List.find?_some hc
    exact ⟨c, hmem, by simpa using hid, hparent⟩
  · intro hrow
    rcases hrow with ⟨c, hc, hid, hparent⟩
    have hhas : h.has id = true := (has_iff id).mpr ⟨c, hc, hid⟩
    rcases Option.isSome_iff_exists.mp hhas with ⟨c', hc'⟩
    refine ⟨c', hc', ?_⟩
    have hmem := List.mem_reverse.mp (List.mem_of_find?_eq_some hc')
    have hid' : c'.conversationId = id := by simpa using List.find?_some hc'
    rw [hsame c' c hmem hc (hid'.trans hid.symm), hparent]

theorem listedParent_iff (hsame : SameParents h.conversations) (id parent : UUID) :
    h.listedParent id = some parent <-> LinkedTo h.conversations id parent := by
  unfold listedParent LinkedTo
  rw [Option.filter_eq_some_iff, parentOf_iff hsame, has_iff]

theorem has_of_listedParent {id parent : UUID} (hup : h.listedParent id = some parent) :
    h.has id = true ∧ h.has parent = true := by
  unfold listedParent at hup
  rcases Option.filter_eq_some_iff.mp hup with ⟨hparent, hhas⟩
  unfold parentOf at hparent
  rcases Option.bind_eq_some_iff.mp hparent with ⟨c, hc, _⟩
  exact ⟨by unfold has; rw [hc]; rfl, hhas⟩

theorem length_le {ids : List UUID} (hnodup : ids.Nodup)
    (hhas : forall id, id ∈ ids -> h.has id = true) : ids.length ≤ h.conversations.length := by
  have hsub : ids ⊆ h.conversations.map Conversation.conversationId := by
    intro id hid
    rcases (has_iff id).mp (hhas id hid) with ⟨c, hc, hcid⟩
    exact List.mem_map.mpr ⟨c, hc, hcid⟩
  have hle := (List.subperm_of_subset hnodup hsub).length_le
  rw [List.length_map] at hle
  exact hle

/-!
# The climb to the root
-/

/-- What a walk up has met: different nodes, which leave enough steps to go on. -/
structure Met (h : Hierarchy) (steps : Nat) (seen : List UUID) (current : UUID) : Prop where
  nodup : (current :: seen).Nodup
  nodes : forall id, id ∈ current :: seen -> h.has id = true
  enough : h.conversations.length ≤ seen.length + steps

theorem met_pos {steps : Nat} {seen : List UUID} {current : UUID}
    (hmet : Met h steps seen current) : 0 < steps := by
  have hle := length_le hmet.nodup hmet.nodes
  have henough := hmet.enough
  rw [List.length_cons] at hle
  omega

theorem met_next {steps : Nat} {seen : List UUID} {current parent : UUID}
    (hmet : Met h (steps + 1) seen current) (hnew : parent ∉ current :: seen)
    (hhas : h.has parent = true) : Met h steps (current :: seen) parent := by
  refine ⟨List.nodup_cons.mpr ⟨hnew, hmet.nodup⟩, ?_, ?_⟩
  · intro id hid
    rcases List.mem_cons.mp hid with rfl | hold
    · exact hhas
    · exact hmet.nodes id hold
  · have henough := hmet.enough
    rw [List.length_cons]
    omega

theorem met_start {x : UUID} {steps : Nat} (hx : h.has x = true)
    (hsteps : h.conversations.length ≤ steps) : Met h steps [] x := by
  refine ⟨List.nodup_singleton x, ?_, ?_⟩
  · intro id hid
    rw [List.mem_singleton.mp hid]
    exact hx
  · rw [List.length_nil]
    omega

theorem rootFrom_eq (steps : Nat) (seen : List UUID) (current : UUID) :
    h.rootFrom (steps + 1) seen current =
      match h.listedParent current with
      | none => (current, h.parentOf current)
      | some parent =>
          if parent ∈ current :: seen then (current, some parent)
          else h.rootFrom steps (current :: seen) parent := by
  rw [rootFrom]
  unfold listedParent
  cases hparent : h.parentOf current with
  | none => rfl
  | some parent =>
      rw [Option.filter_some]
      cases hhas : h.has parent with
      | false =>
          dsimp only
          rw [hhas]
          rfl
      | true =>
          dsimp only
          rw [hhas]
          by_cases hmem : parent ∈ current :: seen
          · have hcontains := List.contains_iff_mem.mpr hmem
            rw [hcontains]
            exact (if_pos hmem).symm
          · have hcontains : (current :: seen).contains parent = false := by
              rw [← Bool.not_eq_true, List.contains_iff_mem]
              exact hmem
            rw [hcontains]
            exact (if_neg hmem).symm

theorem climbs_rootFrom {steps : Nat} {seen : List UUID} {current : UUID}
    (hmet : Met h steps seen current) :
    Climbs h.listedParent seen current (h.rootFrom steps seen current).1 := by
  induction steps generalizing seen current with
  | zero => exact absurd (met_pos hmet) (Nat.lt_irrefl 0)
  | succ steps ih =>
      rw [rootFrom_eq]
      cases hup : h.listedParent current with
      | none => exact .root hup
      | some parent =>
          dsimp only
          split
          · rename_i hmem
            exact .closed hup hmem
          · rename_i hnew
            exact .step hup hnew (ih (met_next hmet hnew (has_of_listedParent hup).right))

theorem rootFrom_more {steps : Nat} {seen : List UUID} {current : UUID}
    (hmet : Met h steps seen current) :
    h.rootFrom (steps + 1) seen current = h.rootFrom steps seen current := by
  induction steps generalizing seen current with
  | zero => exact absurd (met_pos hmet) (Nat.lt_irrefl 0)
  | succ steps ih =>
      rw [rootFrom_eq, rootFrom_eq]
      cases hup : h.listedParent current with
      | none => rfl
      | some parent =>
          dsimp only
          split
          · rfl
          · rename_i hnew
            exact ih (met_next hmet hnew (has_of_listedParent hup).right)

/-!
# The depth
-/

theorem depthFrom_eq (root : UUID) (steps : Nat) (seen : List UUID) (current : UUID) :
    h.depthFrom root (steps + 1) seen current =
      if current = root ∨ current ∈ seen then 0
      else
        match h.listedParent current with
        | none => 0
        | some parent => h.depthFrom root steps (current :: seen) parent + 1 := by
  rw [depthFrom]
  have hcondition : (decide (current = root) || seen.contains current) = true <->
      current = root ∨ current ∈ seen := by
    simp
  simp only [hcondition]
  split
  · rfl
  · unfold listedParent
    cases hparent : h.parentOf current with
    | none => rfl
    | some parent =>
        rw [Option.filter_some]
        cases hhas : h.has parent with
        | false => simp [hhas]
        | true => simp [hhas]

theorem depthFrom_of_distance {root : UUID} {steps : Nat} {seen : List UUID}
    {current : UUID} {n : Nat} (hmet : Met h steps seen current)
    (hdistance : Distance h.listedParent root current n)
    (hfar : forall id, id ∈ seen -> exists m, n < m ∧ Distance h.listedParent root id m) :
    h.depthFrom root steps seen current = n := by
  induction steps generalizing seen current n with
  | zero => exact absurd (met_pos hmet) (Nat.lt_irrefl 0)
  | succ steps ih =>
      rw [depthFrom_eq]
      have hnew : current ∉ seen := (List.nodup_cons.mp hmet.nodup).left
      cases hdistance with
      | here => rw [if_pos (Or.inl rfl)]
      | @step _ parent n hne hup hrest =>
          rw [if_neg (by simp [hne, hnew]), hup]
          dsimp only
          have hcurrent : Distance h.listedParent root current (n + 1) := .step hne hup hrest
          have hfar' : forall id, id ∈ current :: seen ->
              exists m, n < m ∧ Distance h.listedParent root id m := by
            intro id hid
            rcases List.mem_cons.mp hid with rfl | hold
            · exact ⟨n + 1, Nat.lt_succ_self n, hcurrent⟩
            · rcases hfar id hold with ⟨m, hm, hd⟩
              exact ⟨m, Nat.lt_of_succ_lt hm, hd⟩
          have hparent : parent ∉ current :: seen := by
            intro hmem
            rcases hfar' parent hmem with ⟨m, hm, hd⟩
            exact absurd (distance_unique hrest hd) (Nat.ne_of_lt hm)
          rw [ih (met_next hmet hparent (has_of_listedParent hup).right) hrest hfar']

theorem depthFrom_more {root : UUID} {steps : Nat} {seen : List UUID} {current : UUID}
    (hmet : current ∈ seen ∨ Met h steps seen current) :
    h.depthFrom root (steps + 1) seen current = h.depthFrom root steps seen current := by
  induction steps generalizing seen current with
  | zero =>
      rcases hmet with hmem | hmet
      · rw [depthFrom_eq, if_pos (Or.inr hmem)]
        rfl
      · exact absurd (met_pos hmet) (Nat.lt_irrefl 0)
  | succ steps ih =>
      rw [depthFrom_eq, depthFrom_eq]
      split
      · rfl
      · rename_i hgo
        rw [not_or] at hgo
        cases hup : h.listedParent current with
        | none => rfl
        | some parent =>
            dsimp only
            rw [ih]
            by_cases hmem : parent ∈ current :: seen
            · exact Or.inl hmem
            · exact Or.inr (met_next (hmet.resolve_left hgo.right) hmem
                (has_of_listedParent hup).right)

/-!
# The walk down
-/

/-- The edges from nodes that have not been visited. -/
def openEdges (h : Hierarchy) (seen : List UUID) : List (UUID × UUID) :=
  h.edges.filter (fun e => !seen.contains e.1)

theorem openEdges_cons {id : UUID} {seen : List UUID} (hnew : id ∉ seen) :
    (h.childrenOf id).length + (h.openEdges (id :: seen)).length =
      (h.openEdges seen).length := by
  unfold childrenOf openEdges
  rw [List.length_map]
  induction h.edges with
  | nil => rfl
  | cons e rest ih =>
      by_cases hid : e.1 = id
      · rw [List.filter_cons_of_pos (by simpa using hid),
          List.filter_cons_of_neg (by simp [hid]), List.filter_cons_of_pos (by simp [hid, hnew])]
        simp only [List.length_cons]
        omega
      · rw [List.filter_cons_of_neg (by simpa using hid)]
        have hsame : (id :: seen).contains e.1 = seen.contains e.1 := by
          simp [hid]
        rw [List.filter_cons, List.filter_cons, hsame]
        split
        · simp only [List.length_cons]
          omega
        · exact ih

theorem visits_subtreeFrom {steps : Nat} {stack seen : List UUID}
    (henough : stack.length + (h.openEdges seen).length ≤ steps) :
    Visits (fun id => h.has id = true) h.childrenOf stack seen
      (h.subtreeFrom steps stack seen) := by
  induction steps generalizing stack seen with
  | zero =>
      have hempty : stack = [] := List.eq_nil_of_length_eq_zero (by omega)
      rw [hempty]
      exact .nil
  | succ steps ih =>
      cases stack with
      | nil => exact .nil
      | cons id stack =>
          rw [List.length_cons] at henough
          rw [subtreeFrom]
          split
          · rename_i hskip
            refine .skip ?_ (ih (by omega))
            simpa using hskip
          · rename_i hvisit
            have hgo : id ∉ seen ∧ h.has id = true := by simpa using hvisit
            refine .visit hgo.left hgo.right (ih ?_)
            have hedges := openEdges_cons (h := h) hgo.left
            rw [List.length_append]
            omega

/-!
# The hierarchy that is built
-/

theorem built (hbuild : buildHierarchy conversations = some h) :
    h.conversations = conversations ∧
      exists sorted : List Conversation, sorted.Perm conversations ∧
        sorted.Pairwise (fun a b => siblingKey a ≤ siblingKey b) ∧
        h.edges = sorted.filterMap (edgeTo conversations) := by
  unfold buildHierarchy sortedSiblings? at hbuild
  split at hbuild
  · cases hbuild
    refine ⟨rfl, _, List.perm_insertionSort _ _, ?_, rfl⟩
    have htotal : Std.Total (fun a b : Conversation => siblingKey a ≤ siblingKey b) :=
      ⟨fun a b => le_total (siblingKey a) (siblingKey b)⟩
    have htrans : IsTrans Conversation (fun a b => siblingKey a ≤ siblingKey b) :=
      ⟨fun a b c hab hbc => le_trans hab hbc⟩
    exact List.pairwise_insertionSort _ _
  · cases hbuild

theorem edgeTo_eq_some_iff {c : Conversation} {e : UUID × UUID} :
    edgeTo conversations c = some e <->
      c.parentConversationId = some e.1 ∧ c.conversationId = e.2 ∧
        Listed conversations e.1 ∧ e.1 ≠ e.2 := by
  rcases e with ⟨parent, id⟩
  unfold edgeTo Listed
  cases hparent : c.parentConversationId with
  | none => simp
  | some p =>
      dsimp only
      constructor
      · intro h
        split at h
        · rename_i hcondition
          cases h
          rcases Bool.and_eq_true_iff.mp hcondition with ⟨hany, hne⟩
          rcases List.any_eq_true.mp hany with ⟨n, hn, hid⟩
          exact ⟨rfl, rfl, ⟨n, hn, of_decide_eq_true hid⟩, of_decide_eq_true hne⟩
        · cases h
      · intro h
        rcases h with ⟨hp, hid, ⟨n, hn, hnid⟩, hne⟩
        cases hp
        rw [hid, if_pos]
        apply Bool.and_eq_true_iff.mpr
        exact ⟨List.any_eq_true.mpr ⟨n, hn, decide_eq_true hnid⟩, decide_eq_true hne⟩

theorem family_built (hbuild : buildHierarchy conversations = some h)
    (hsame : SameParents conversations) :
    Family h.listedParent (fun id => h.has id = true) h.childrenOf := by
  rcases built hbuild with ⟨hconversations, sorted, hperm, _, hedges⟩
  constructor
  · intro a b
    rw [listedParent_iff (hconversations ▸ hsame), hconversations]
    unfold childrenOf LinkedTo
    rw [hedges, List.mem_map]
    constructor
    · intro hmem
      rcases hmem with ⟨e, he, rfl⟩
      rcases List.mem_filter.mp he with ⟨hedge, ha⟩
      rcases List.mem_filterMap.mp hedge with ⟨c, hc, hcedge⟩
      rcases edgeTo_eq_some_iff.mp hcedge with ⟨hparent, hid, hlisted, hne⟩
      rw [of_decide_eq_true ha] at hparent hlisted hne
      exact ⟨⟨⟨c, hperm.mem_iff.mp hc, hid, hparent⟩, hlisted⟩, hne.symm⟩
    · intro hlink
      rcases hlink with ⟨⟨⟨c, hc, hid, hparent⟩, hlisted⟩, hne⟩
      refine ⟨(a, b), List.mem_filter.mpr ⟨?_, by simp⟩, rfl⟩
      exact List.mem_filterMap.mpr ⟨c, hperm.mem_iff.mpr hc,
        edgeTo_eq_some_iff.mpr ⟨hparent, hid, hlisted, hne.symm⟩⟩
  · intro a b hup
    exact (has_of_listedParent hup).left

theorem childrenOf_split (hbuild : buildHierarchy conversations = some h) {y z p : UUID}
    (hy : LinkedTo conversations y p) (hne : p ≠ y) (hsame : SameParents conversations)
    (holder : OlderThan conversations y z) :
    exists before after, h.childrenOf p = before ++ y :: after ∧ z ∉ before := by
  rcases built hbuild with ⟨hconversations, sorted, hperm, hsorted, hedges⟩
  rcases holder with ⟨c, hc, hid, hz⟩
  rcases hy with ⟨⟨c', hc', hid', hparent'⟩, hlisted⟩
  have hparent : c.parentConversationId = some p := by
    rw [hsame c c' hc hc' (hid.trans hid'.symm)]
    exact hparent'
  have hedge : edgeTo conversations c = some (p, y) :=
    edgeTo_eq_some_iff.mpr ⟨hparent, hid, hlisted, hne⟩
  rcases List.append_of_mem (hperm.mem_iff.mpr hc) with ⟨front, back, hsplit⟩
  let children := fun rows : List Conversation =>
    ((rows.filterMap (edgeTo conversations)).filter (fun e => e.1 = p)).map Prod.snd
  refine ⟨children front, children back, ?_, ?_⟩
  · unfold childrenOf
    rw [hedges, hsplit, List.filterMap_append, List.filterMap_cons_some hedge,
      List.filter_append, List.filter_cons_of_pos (by simp), List.map_append, List.map_cons]
  · intro hmem
    rcases List.mem_map.mp hmem with ⟨e, he, rfl⟩
    rcases List.mem_filterMap.mp (List.mem_filter.mp he).left with ⟨d, hd, hdedge⟩
    have hdid := (edgeTo_eq_some_iff.mp hdedge).right.left
    have hdmem : d ∈ conversations := by
      apply hperm.mem_iff.mp
      rw [hsplit]
      exact List.mem_append_left _ hd
    rw [hsplit] at hsorted
    have hle := (List.pairwise_append.mp hsorted).right.right d hd c List.mem_cons_self
    exact absurd (hz d hdmem hdid) (not_lt_of_ge hle)

end Hierarchy

/-!
# Families
-/

section Families

variable {conversations : List Conversation} {h : Hierarchy}

theorem walksEnd (h : Hierarchy) : WalksEnd h where
  root := by
    intro x steps hx hsteps
    unfold Hierarchy.rootOf
    induction steps, hsteps using Nat.le_induction with
    | base => rfl
    | succ steps hsteps ih => rw [Hierarchy.rootFrom_more (Hierarchy.met_start hx hsteps), ih]
  subtree := by
    intro root steps hsteps
    unfold Hierarchy.subtree
    have hopen : h.openEdges [] = h.edges := by
      unfold Hierarchy.openEdges
      exact List.filter_eq_self.mpr (fun e _ => rfl)
    apply visits_unique (Hierarchy.visits_subtreeFrom ?_) (Hierarchy.visits_subtreeFrom ?_)
    · rw [hopen, List.length_singleton]
      omega
    · rw [hopen, List.length_singleton]
      omega
  depth := by
    intro y root steps hy hsteps
    unfold Hierarchy.depthOf
    induction steps, hsteps using Nat.le_induction with
    | base => rfl
    | succ steps hsteps ih =>
        rw [Hierarchy.depthFrom_more (Or.inr (Hierarchy.met_start hy hsteps)), ih]

theorem scopeIds_hierarchy {x : UUID} (hx : h.has x = true) :
    HierarchyService.scopeIds h x .hierarchy = h.subtree (h.rootOf x).1 := by
  unfold HierarchyService.scopeIds
  rw [if_pos hx]
  rfl

theorem isFamily_subtree (hbuild : buildHierarchy conversations = some h)
    (hsame : SameParents conversations) {x : UUID} (hx : Listed conversations x) :
    IsFamily conversations h x (h.rootOf x).1 (h.subtree (h.rootOf x).1) := by
  have hconversations := (Hierarchy.built hbuild).left
  have hfamily := Hierarchy.family_built hbuild hsame
  have hhas : h.has x = true := (Hierarchy.has_iff x).mpr (hconversations ▸ hx)
  have hlinked : forall a b, h.listedParent a = some b <-> LinkedTo conversations a b := by
    intro a b
    rw [Hierarchy.listedParent_iff (hconversations ▸ hsame), hconversations]
  have hup : Up h.listedParent = LinkedTo conversations := by
    funext a b
    exact propext (hlinked a b)
  have hclimb : Climbs h.listedParent [] x (h.rootOf x).1 :=
    Hierarchy.climbs_rootFrom (Hierarchy.met_start hhas (Nat.le_refl _))
  have hrelated := fun y => related_iff_reaches (y := y) hclimb
  rw [hup] at hrelated
  generalize (h.rootOf x).1 = root at *
  have hroot : h.has root = true := by
    rcases Relation.ReflTransGen.cases_tail (climbs_reaches hclimb) with heq | ⟨a, _, hlast⟩
    · rw [heq]
      exact hhas
    · exact (Hierarchy.has_of_listedParent hlast).right
  have hvisits : Visits (fun id => h.has id = true) h.childrenOf [root] []
      (h.subtree root) := by
    apply Hierarchy.visits_subtreeFrom
    have hle : (h.openEdges []).length ≤ h.edges.length := List.length_filter_le _ _
    rw [List.length_singleton]
    omega
  have hmem := mem_tree_iff hfamily hroot hvisits
  have hparent : forall {y}, y ∈ h.subtree root -> y ≠ root ->
      exists p, h.listedParent y = some p ∧ Precedes (h.subtree root) p y :=
    fun hy hne => parent_precedes hfamily hvisits hy hne
  refine ⟨visits_nodup hvisits, ?_, ?_, ?_, ?_⟩
  · intro y
    rw [hmem, hrelated]
    constructor
    · intro hy
      refine ⟨?_, hy⟩
      rcases Relation.ReflTransGen.cases_head hy with heq | ⟨b, hstep, _⟩
      · rw [heq, ← hconversations, ← Hierarchy.has_iff]
        exact hroot
      · rw [← hconversations, ← Hierarchy.has_iff]
        exact (Hierarchy.has_of_listedParent hstep).left
    · intro hy
      exact hy.right
  · intro y hy hne
    rcases hparent hy hne with ⟨p, hp, hprecedes⟩
    exact ⟨p, (hlinked y p).mp hp, hprecedes⟩
  · intro y z p hy hz hyr hzr hyp hzp holder
    have hpy : p ≠ y := by
      rcases hparent hy hyr with ⟨p', hp', hprecedes⟩
      have hpp : p' = p := Option.some.inj (hp'.symm.trans ((hlinked y p).mpr hyp))
      rw [hpp] at hprecedes
      exact precedes_ne (visits_nodup hvisits) hprecedes
    rcases Hierarchy.childrenOf_split hbuild hyp hpy hsame holder with
      ⟨before, after, hsplit, hbefore⟩
    have hne : z ≠ y := by
      intro heq
      rcases holder with ⟨c, hc, hid, hall⟩
      exact absurd (hall c hc (hid.trans heq.symm)) (lt_irrefl _)
    exact siblings_precede hfamily hvisits hy hz hyr hzr ((hlinked z p).mpr hzp) hsplit hbefore
      hne
  · intro y hy
    have hreach := (hmem y).mp hy
    rcases exists_distance hreach with ⟨n, hn⟩
    have hyhas : h.has y = true := (visits_fresh hvisits hy).right
    have hdepth : h.depthOf y root = n :=
      Hierarchy.depthFrom_of_distance (Hierarchy.met_start hyhas (Nat.le_refl _)) hn
        (fun id hid => by cases hid)
    rw [hdepth]
    exact hn

end Families

/--
The walks in a hierarchy end, and the scope of a listed conversation is its family. All
members of a family have the same scope.
-/
theorem hierarchy_family {conversations : List Conversation} {h : Hierarchy}
    (hbuild : buildHierarchy conversations = some h) (hsame : SameParents conversations)
    {x : UUID} (hx : Listed conversations x) :
    WalksEnd h ∧
      IsFamily conversations h x (h.rootOf x).1
        (HierarchyService.scopeIds h x .hierarchy) ∧
      forall y, y ∈ HierarchyService.scopeIds h x .hierarchy ->
        forall z, z ∈ HierarchyService.scopeIds h y .hierarchy <->
          z ∈ HierarchyService.scopeIds h x .hierarchy := by
  have hscope : forall {y}, Listed conversations y ->
      HierarchyService.scopeIds h y .hierarchy = h.subtree (h.rootOf y).1 := by
    intro y hy
    apply scopeIds_hierarchy
    rw [Hierarchy.has_iff, (Hierarchy.built hbuild).left]
    exact hy
  have hfamily := isFamily_subtree hbuild hsame hx
  rw [hscope hx]
  refine ⟨walksEnd h, hfamily, ?_⟩
  intro y hy z
  rcases (hfamily.members y).mp hy with ⟨hlisted, hxy⟩
  rw [hscope hlisted, (isFamily_subtree hbuild hsame hlisted).members, hfamily.members]
  constructor
  · intro hz
    exact ⟨hz.left, Relation.EqvGen.trans _ _ _ hxy hz.right⟩
  · intro hz
    exact ⟨hz.left, Relation.EqvGen.trans _ _ _ (Relation.EqvGen.symm _ _ hxy) hz.right⟩

def familyMember (id parent created : Nat) : Conversation :=
  { conversationId := .ofInt id
    userId := some (.ofInt 9)
    title := none
    createdAt := some ⟨created, false⟩
    updatedAt := none
    status := .active
    parentConversationId := some (.ofInt parent)
    branchMessageId := none }

/-- A cycle with a branch, and a conversation whose parent is missing. -/
def cycleWithBranch : List Conversation :=
  [familyMember 1 2 10, familyMember 2 1 20, familyMember 3 1 30, familyMember 4 8 40]

def cycleHierarchy : Hierarchy :=
  (buildHierarchy cycleWithBranch).getD ⟨[], []⟩

theorem cycleWithBranch_family :
    (cycleHierarchy.rootOf (.ofInt 3)).1 = .ofInt 2 ∧
      HierarchyService.scopeIds cycleHierarchy (.ofInt 3) .hierarchy =
        [.ofInt 2, .ofInt 1, .ofInt 3] ∧
      WalksEnd cycleHierarchy ∧
      IsFamily cycleWithBranch cycleHierarchy (.ofInt 3)
        (cycleHierarchy.rootOf (.ofInt 3)).1
        (HierarchyService.scopeIds cycleHierarchy (.ofInt 3) .hierarchy) ∧
      forall y, y ∈ HierarchyService.scopeIds cycleHierarchy (.ofInt 3) .hierarchy ->
        forall z, z ∈ HierarchyService.scopeIds cycleHierarchy y .hierarchy <->
          z ∈ HierarchyService.scopeIds cycleHierarchy (.ofInt 3) .hierarchy := by
  have hbuild : buildHierarchy cycleWithBranch = some cycleHierarchy := by decide
  have hparents : forall c, c ∈ cycleWithBranch -> forall c', c' ∈ cycleWithBranch ->
      c.conversationId = c'.conversationId ->
        c.parentConversationId = c'.parentConversationId := by
    decide
  have hsame : SameParents cycleWithBranch := fun c c' hc hc' => hparents c hc c' hc'
  have hlisted : Listed cycleWithBranch (.ofInt 3) := ⟨familyMember 3 1 30, by decide, rfl⟩
  exact ⟨by decide, by decide, hierarchy_family hbuild hsame hlisted⟩

end ConversationService
