import ConversationService.Library.Programs
import ConversationService.Model.ExportBundles
import ConversationService.Properties.ArchiveNames
import ConversationService.Properties.Families

/-!
# Trees of bundles

What the collector takes over from a hierarchy into a bundle, and in which order and under
what the conversations of a bundle are placed then.
-/

namespace ConversationService
namespace ExportArchive

open Python Programs ParentLinks ExportCollector

/-!
# Answers
-/

/--
The cache holds a conversation under its own id, as it was written. Nothing else is known
of the answers, so that the stores may be written to between any two of them.
-/
def KeyedAnswer : (o : bundleStorage.Op) -> Option (bundleStorage.Res o) -> Prop
  | .exports (.source (.hgetConversation id)), answer =>
      forall conv : Conversation, answer = some (some conv) -> conv.conversationId = id
  | _, _ => True

/-- The same for the operations on the conversations. -/
def KeyedRead : (o : storage.Op) -> Option (storage.Res o) -> Prop
  | .hgetConversation id, answer =>
      forall conv : Conversation, answer = some (some conv) -> conv.conversationId = id
  | _, _ => True

theorem keyed_get {cache : Option CacheService} {id : UUID} {conv : Conversation}
    (h : Prog.CanReturn KeyedRead (ConversationReads.get cache id) (some conv)) :
    conv.conversationId = id := by
  have hcached : forall {found}, Prog.CanReturn KeyedRead (ConversationReads.getCached cache id)
      (some found) -> found.conversationId = id := by
    intro found hfound
    unfold ConversationReads.getCached at hfound
    cases cache with
    | none => cases hfound
    | some cache =>
        dsimp only at hfound
        unfold CacheService.getConversation at hfound
        split at hfound
        · rcases Prog.canReturn_tryCatch hfound with hread | ⟨e, hread⟩
          · rcases Prog.canReturn_bind hread with ⟨answer, hanswer, hread⟩
            have hkeyed := Prog.canReturn_perform hanswer
            cases answer with
            | none => cases hread
            | some stored =>
                dsimp only at hread
                split at hread
                · cases hread
                  exact hkeyed found rfl
                · exact hread.elim
          · cases hread
        · cases hfound
  have hstored : forall {found}, Prog.CanReturn KeyedRead (ConversationRepository.get id)
      (some found) -> found.conversationId = id := by
    intro found hfound
    unfold ConversationRepository.get at hfound
    rcases Prog.canReturn_bind hfound with ⟨row, _, hrow⟩
    cases row with
    | none => cases hrow
    | some row =>
        dsimp only at hrow
        split at hrow
        · rename_i conv' hconv'
          cases hrow
          rcases Option.map_eq_some_iff.mp hconv' with ⟨status, _, rfl⟩
          rfl
        · exact hrow.elim
  unfold ConversationReads.get at h
  rcases Prog.canReturn_bind h with ⟨cached, hread, hrest⟩
  cases cached with
  | some found =>
      cases hrest
      exact hcached hread
  | none =>
      rcases Prog.canReturn_bind hrest with ⟨stored, hget, hend⟩
      split at hend
      · rename_i found cache'
        rcases Prog.canReturn_bind hend with ⟨_, _, heq⟩
        cases heq
        exact hstored hget
      · cases hend
        exact hstored hget

theorem keyed_fromExports {cache : Option CacheService} {id : UUID} {conv : Conversation}
    (h : Prog.CanReturn KeyedAnswer
      (fromExports (fromSources (ConversationReads.get cache id))) (some conv)) :
    conv.conversationId = id := by
  have hexports : Prog.CanReturn
      (fun (o : exportStorage.Op) answer => KeyedAnswer (.exports o) answer)
      (fromSources (ConversationReads.get cache id)) (some conv) := by
    apply Prog.canReturn_mapOps ?_ h
    intro o answer hanswer
    cases answer with
    | none => exact hanswer
    | some r => exact hanswer
  have hsources := Prog.canReturn_mapExc hexports
  apply @keyed_get cache
  apply Prog.canReturn_mapOps ?_ hsources
  intro o answer hanswer
  cases o with
  | hgetConversation id' =>
      cases answer with
      | none => exact fun conv hconv => by cases hconv
      | some r => exact hanswer
  | _ => trivial

/-!
# Bundles
-/

/-- A conversation of a bundle as the collector makes it from the hierarchy. -/
structure MadeFrom (h : Hierarchy) (inScope : List UUID) (id : UUID)
    (ec : ExportConversation) : Prop where
  key : ec.conversation.conversationId = id
  parent : ec.parentId = h.listedParent id
  children : ec.children = (h.childrenOf id).filter inScope.contains

theorem madeFrom_exportConversation {h : Hierarchy} {inScope : List UUID} {id rootId : UUID}
    {node : Conversation} (hnode : h.node? id = some node) {full : Option Conversation}
    (hfull : forall conv, full = some conv -> conv.conversationId = id)
    (messages : List Message) :
    MadeFrom h inScope id (exportConversation h rootId inScope id node full messages) := by
  refine ⟨?_, ?_, rfl⟩
  · cases full with
    | some conv => exact hfull conv rfl
    | none =>
        have hid := List.find?_some hnode
        exact of_decide_eq_true hid
  · show node.parentConversationId.filter h.has = (h.parentOf id).filter h.has
    unfold Hierarchy.parentOf
    rw [hnode]
    rfl

theorem collectWanted_made {loads : Text -> Except PyExc Json} {nfc : Text -> Text}
    {svc : ExportService} {owner rootId : UUID} {h : Hierarchy} {inScope : List UUID}
    {snapshot : Snapshot} {progress : Nat -> Nat -> ExportProg Unit} {ids : List UUID}
    {convs : List ExportConversation} {wanted : List Text}
    {collected : List ExportConversation × List Text}
    (hreturn : Prog.CanReturn KeyedAnswer
      (collectWanted loads nfc svc owner h rootId inScope snapshot progress ids convs wanted)
      collected) :
    exists kept more, kept.Sublist ids ∧ collected.1 = convs ++ more ∧
      List.Forall₂ (MadeFrom h inScope) kept more := by
  induction ids generalizing convs wanted with
  | nil =>
      cases hreturn
      exact ⟨[], [], List.Sublist.refl [], (List.append_nil convs).symm, .nil⟩
  | cons id rest ih =>
      unfold collectWanted at hreturn
      rcases Prog.canReturn_bind hreturn with ⟨full, hfull, hgo⟩
      have hkeyed : forall conv, full = some conv -> conv.conversationId = id := by
        rintro conv rfl
        exact keyed_fromExports hfull
      split at hgo
      · rcases ih hgo with ⟨kept, more, hkept, hconvs, hmade⟩
        exact ⟨kept, more, hkept.cons id, hconvs, hmade⟩
      · rcases Prog.canReturn_bind hgo with ⟨msgs, _, hgo⟩
        rcases Prog.canReturn_bind hgo with ⟨_, _, hgo⟩
        split at hgo
        · rename_i node _ hnode _
          rcases ih hgo with ⟨kept, more, hkept, hconvs, hmade⟩
          refine ⟨id :: kept, exportConversation h rootId inScope id node full msgs :: more,
            hkept.cons_cons id, ?_, ?_⟩
          · rw [hconvs, List.append_assoc]
            rfl
          · exact .cons (madeFrom_exportConversation hnode hkeyed msgs) hmade
        · exact hgo.elim
        · rcases ih hgo with ⟨kept, more, hkept, hconvs, hmade⟩
          exact ⟨kept, more, hkept.cons id, hconvs, hmade⟩

/--
A bundle that is collected for a conversation of a hierarchy from the ids of its tree, all of
them or those that `keep` leaves in.
-/
structure IsBuilt (conversations : List Conversation) (h : Hierarchy)
    (bundle : CollectedBundle) : Prop where
  build : buildHierarchy conversations = some h
  parents : SameParents conversations
  collected : exists loads nfc svc owner selected keep snapshot rendererVersion quality progress,
    Prog.CanReturn KeyedAnswer
      (collectBundle loads nfc svc owner h selected
        ((h.subtree (h.rootOf selected).1).filter keep) snapshot rendererVersion quality progress)
      bundle

def parentIn (h : Hierarchy) (bundle : CollectedBundle) : UUID -> Option UUID :=
  upWithin h.listedParent (nodes bundle.conversations)

/-- Going on to the parents in the bundle comes back to the conversation. -/
def OnCycle (h : Hierarchy) (bundle : CollectedBundle) (id : UUID) : Prop :=
  Relation.TransGen (Up (parentIn h bundle)) id id

section Tree

variable {h : Hierarchy} {inScope kept : List UUID} {convs : List ExportConversation}

theorem nodes_made (hmade : List.Forall₂ (MadeFrom h inScope) kept convs) :
    nodes convs = kept := by
  induction hmade with
  | nil => rfl
  | cons hfirst _ ih =>
      unfold nodes at ih ⊢
      rw [List.map_cons, hfirst.key, ih]

theorem made_byId (hmade : List.Forall₂ (MadeFrom h inScope) kept convs) {id : UUID}
    (hid : id ∈ nodes convs) : exists ec, byId convs id = some ec ∧ MadeFrom h inScope id ec := by
  rcases Option.isSome_iff_exists.mp ((byId_isSome convs id).mpr hid) with ⟨ec, hec⟩
  refine ⟨ec, hec, ?_⟩
  have hmem := List.mem_reverse.mp (List.mem_of_find?_eq_some hec)
  have hkey : ec.conversation.conversationId = id := by
    unfold byId at hec
    simpa using List.find?_some hec
  clear hec hid
  induction hmade with
  | nil => cases hmem
  | @cons id' ec' _ _ hfirst _ ih =>
      rcases List.mem_cons.mp hmem with rfl | hrest
      · rw [hfirst.key] at hkey
        rw [← hkey]
        exact hfirst
      · exact ih hrest

theorem mem_roots_iff (hmade : List.Forall₂ (MadeFrom h inScope) kept convs) (id : UUID) :
    id ∈ roots convs <-> IsTopOf h.listedParent (nodes convs) id := by
  have htop : forall ec, ec ∈ convs ->
      ((ec.parentId.all (fun parent => (byId convs parent).isNone)) = true <->
        upWithin h.listedParent (nodes convs) ec.conversation.conversationId = none) := by
    intro ec hec
    have hparent : ec.parentId = h.listedParent ec.conversation.conversationId := by
      have hfrom : forall {kept : List UUID} {convs : List ExportConversation},
          List.Forall₂ (MadeFrom h inScope) kept convs -> ec ∈ convs ->
            ec.parentId = h.listedParent ec.conversation.conversationId := by
        intro kept convs hmade hec
        induction hmade with
        | nil => cases hec
        | cons hfirst _ ih =>
            rcases List.mem_cons.mp hec with rfl | hrest
            · rw [hfirst.parent, hfirst.key]
            · exact ih hrest
      exact hfrom hmade hec
    rw [hparent]
    unfold upWithin
    cases h.listedParent ec.conversation.conversationId with
    | none => exact ⟨fun _ => rfl, fun _ => rfl⟩
    | some parent =>
        rw [Option.all_some, Option.isNone_iff_eq_none, Option.filter_some,
          ← Option.not_isSome_iff_eq_none, byId_isSome]
        by_cases hmem : parent ∈ nodes convs
        · simp [hmem]
        · simp [hmem]
  unfold roots IsTopOf
  rw [List.mem_map]
  constructor
  · rintro ⟨ec, hec, rfl⟩
    rcases List.mem_filter.mp hec with ⟨hmem, hroot⟩
    exact ⟨List.mem_map_of_mem hmem, (htop ec hmem).mp hroot⟩
  · rintro ⟨hid, hnone⟩
    rcases List.mem_map.mp hid with ⟨ec, hec, rfl⟩
    exact ⟨ec, List.mem_filter.mpr ⟨hec, (htop ec hec).mpr hnone⟩, rfl⟩

theorem visits_head {h : Hierarchy} {root : UUID} (hroot : h.has root = true) {out : List UUID}
    (hvisits : Visits (fun id => h.has id = true) h.childrenOf [root] [] out) :
    exists rest, out = root :: rest := by
  cases hvisits with
  | skip hskip _ => exact absurd hskip (by simp [hroot])
  | visit _ _ _ => exact ⟨_, rfl⟩

theorem below_of_made {conversations : List Conversation}
    (hbuild : buildHierarchy conversations = some h) (hsame : SameParents conversations)
    {selected : UUID} (hselected : h.has selected = true) {keep : UUID -> Bool}
    (hmade : List.Forall₂ (MadeFrom h
      (((h.subtree (h.rootOf selected).1).filter keep).filter h.has)) kept convs)
    (hkept : kept.Sublist (((h.subtree (h.rootOf selected).1).filter keep).filter h.has)) :
    Below h.listedParent (childrenOf convs) (h.rootOf selected).1 (nodes convs) := by
  have hfamily := Hierarchy.family_built hbuild hsame
  have hclimb : Climbs h.listedParent [] selected (h.rootOf selected).1 :=
    Hierarchy.climbs_rootFrom (Hierarchy.met_start hselected (Nat.le_refl _))
  generalize (h.rootOf selected).1 = root at *
  have hroot : h.has root = true := by
    rcases Relation.ReflTransGen.cases_tail (climbs_reaches hclimb) with heq | ⟨a, _, hlast⟩
    · rw [heq]
      exact hselected
    · exact (Hierarchy.has_of_listedParent hlast).right
  have hvisits : Visits (fun id => h.has id = true) h.childrenOf [root] []
      (h.subtree root) := by
    apply Hierarchy.visits_subtreeFrom
    have hle : (h.openEdges []).length ≤ h.edges.length := List.length_filter_le _ _
    rw [List.length_singleton]
    omega
  have hnodes := nodes_made hmade
  have hsub : (nodes convs).Sublist (h.subtree root) := by
    rw [hnodes]
    exact hkept.trans (List.filter_sublist.trans List.filter_sublist)
  have hnodup : (nodes convs).Nodup := hsub.nodup (visits_nodup hvisits)
  refine ⟨hnodup, ?_, ?_, ?_⟩
  · intro a ha
    exact (mem_tree_iff hfamily hroot hvisits a).mp (hsub.subset ha)
  · intro hmem
    rcases visits_head hroot hvisits with ⟨rest, hrest⟩
    rw [hrest] at hsub
    have hfresh : root ∉ rest := by
      have hall := visits_nodup hvisits
      rw [hrest] at hall
      exact (List.nodup_cons.mp hall).left
    generalize nodes convs = ids at *
    cases hsub with
    | cons _ hlater => exact absurd (hlater.subset hmem) hfresh
    | cons_cons _ _ => rfl
  · intro a b ha hb
    rcases made_byId hmade ha with ⟨ec, hec, hfrom⟩
    unfold childrenOf
    rw [hec, Option.map_some, Option.getD_some, hfrom.children, List.mem_filter,
      hfamily.children a b, List.contains_iff_mem]
    have hscope : b ∈ ((h.subtree root).filter keep).filter h.has := by
      rw [hnodes] at hb
      exact hkept.subset hb
    exact and_iff_left hscope

end Tree

/-!
# The order of the places
-/

/-- The conversations of a bundle with what they are placed under, and the plan that this gives. -/
structure IsPlan (nfkd : Text -> Text) (h : Hierarchy) (bundle : CollectedBundle)
    (placed : List (UUID × Option UUID)) : Prop where
  tree : Placed h.listedParent (nodes bundle.conversations) bundle.rootId placed
  nodup : (nodes bundle.conversations).Nodup
  planned : Planned nfkd bundle.conversations placed
    (planDirs nfkd bundle.conversations bundle.conversations.length)

theorem exists_plan (nfkd : Text -> Text) {conversations : List Conversation} {h : Hierarchy}
    {bundle : CollectedBundle} (hbuilt : IsBuilt conversations h bundle) :
    exists placed, IsPlan nfkd h bundle placed := by
  rcases hbuilt.collected with ⟨loads, nfc, svc, owner, selected, keep, snapshot, rendererVersion,
    quality, progress, hreturn⟩
  unfold collectBundle at hreturn
  split at hreturn
  · rename_i hselected
    rcases Prog.canReturn_bind hreturn with ⟨collected, hcollected, hrest⟩
    rcases Prog.canReturn_bind hrest with ⟨found, _, hend⟩
    cases hend
    rcases collectWanted_made hcollected with ⟨kept, more, hkept, hconvs, hmade⟩
    rw [List.nil_append] at hconvs
    rw [← hconvs] at hmade
    have hbelow := below_of_made hbuilt.build hbuilt.parents hselected hmade hkept
    rcases planDirs_places nfkd (Nat.le_refl collected.1.length) with ⟨out, hwalk, hplan⟩
    have hplaced := placed_of_places hbelow (mem_roots_iff hmade) hwalk
    refine ⟨out, hplaced, hbelow.nodup, ?_⟩
    dsimp only
    rw [hplan]
    apply planned_walk hplaced.nodup
    intro before a p after hout
    apply places_before hwalk hout
    intro hstack
    rcases List.mem_append.mp hstack with hmem | hmem
    · rcases List.mem_map.mp hmem with ⟨_, _, heq⟩
      cases heq
    · rcases List.mem_map.mp hmem with ⟨_, _, heq⟩
      cases heq
  · exact hreturn.elim

end ExportArchive
end ConversationService
