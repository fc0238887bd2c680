import ConversationService.Properties.ArchiveTrees

/-!
# Paths in archives

The paths of a bundle are an image of its tree. A name that gets longer than 120 characters
by the `x` behind it is refused, and then there is no archive at all.
-/

namespace ConversationService
namespace ExportArchive

open Python Naming ParentLinks

/-!
# What is expected of the paths
-/

/-- A conversation lies directly in the branches of another one. -/
def LiesUnder (paths : List (UUID × Text)) (a p : UUID) : Prop :=
  exists dir name, (0x2F : CodePoint) ∉ name ∧ (p, dir ++ text "/conversation.md") ∈ paths ∧
    (a, dir ++ text "/branches/" ++ name ++ text "/conversation.md") ∈ paths

/-- The paths of the conversations are a faithful image of their tree. -/
structure MirrorsTree (nfkd : Text -> Text) (h : Hierarchy) (bundle : CollectedBundle) : Prop where
  ends : forall depth, bundle.conversations.length ≤ depth ->
    planDirs nfkd bundle.conversations depth =
      planDirs nfkd bundle.conversations bundle.conversations.length
  members : forall id, id ∈ (planPaths nfkd bundle.conversations).map Prod.fst <->
    id ∈ nodes bundle.conversations
  once : ((planPaths nfkd bundle.conversations).map Prod.fst).Nodup
  differ : ((planPaths nfkd bundle.conversations).map Prod.snd).Nodup
  under : forall a p, a ∈ nodes bundle.conversations -> parentIn h bundle a = some p ->
    LiesUnder (planPaths nfkd bundle.conversations) a p ∨
      (OnCycle h bundle a ∧
        forall b q, b ∈ nodes bundle.conversations -> b ≠ a -> parentIn h bundle b = some q ->
          LiesUnder (planPaths nfkd bundle.conversations) b q)
  cut : forall a, a ∈ nodes bundle.conversations -> OnCycle h bundle a ->
    exists b p, Reaches (parentIn h bundle) a b ∧ parentIn h bundle b = some p ∧
      ¬LiesUnder (planPaths nfkd bundle.conversations) b p

/-!
# What conversations hang on
-/

/-- The root of a bundle is cut off from its parent if it lies on a cycle. -/
def IsCut (h : Hierarchy) (bundle : CollectedBundle) (id : UUID) : Prop :=
  id = bundle.rootId ∧ OnCycle h bundle id

/-- A conversation hangs on its parent in the bundle, if it has one and is not cut off. -/
def HangsOn (h : Hierarchy) (bundle : CollectedBundle) (id : UUID) (q : Option UUID) : Prop :=
  id ∈ nodes bundle.conversations ∧
    ((IsCut h bundle id ∧ q = none) ∨ (¬IsCut h bundle id ∧ q = parentIn h bundle id))

/--
So many others hang where a conversation hangs and have the name of its directory that this
name gets too long with an `x` for each of them.
-/
def IsCrowded (nfkd : Text -> Text) (h : Hierarchy) (bundle : CollectedBundle) : Prop :=
  exists a q others, (a :: others).Nodup ∧
    (forall b, b ∈ a :: others -> HangsOn h bundle b q ∧
      dirName nfkd bundle.conversations b = dirName nfkd bundle.conversations a) ∧
    120 < (dirName nfkd bundle.conversations a).length + others.length

section Hanging

variable {nfkd : Text -> Text} {h : Hierarchy} {bundle : CollectedBundle}
  {placed : List (UUID × Option UUID)}

theorem mem_nodes_of_parentIn {a p : UUID} (hup : parentIn h bundle a = some p) :
    p ∈ nodes bundle.conversations :=
  (upWithin_eq_some.mp hup).right

theorem place_unique (hplan : IsPlan nfkd h bundle placed) {a : UUID} {q q' : Option UUID}
    (hq : (a, q) ∈ placed) (hq' : (a, q') ∈ placed) : q = q' :=
  (Prod.mk.inj (List.inj_on_of_nodup_map hplan.tree.nodup hq hq' rfl)).right

theorem exists_mem_placed (hplan : IsPlan nfkd h bundle placed) {a : UUID}
    (ha : a ∈ nodes bundle.conversations) : exists q, (a, q) ∈ placed := by
  rcases List.mem_map.mp ((hplan.tree.members a).mpr ha) with ⟨⟨a', q⟩, hmem, rfl⟩
  exact ⟨q, hmem⟩

/-- On a cycle of the bundle the root is placed alone: not all can lie under their parents. -/
theorem root_alone (hplan : IsPlan nfkd h bundle placed)
    (hroot : bundle.rootId ∈ nodes bundle.conversations)
    (hcycle : OnCycle h bundle bundle.rootId) : (bundle.rootId, none) ∈ placed := by
  by_contra hnot
  have hstep : forall {a p}, a ∈ nodes bundle.conversations -> parentIn h bundle a = some p ->
      ((planDirs nfkd bundle.conversations bundle.conversations.length).dir p).length <
        ((planDirs nfkd bundle.conversations bundle.conversations.length).dir a).length := by
    intro a p ha hup
    rcases exists_mem_placed hplan ha with ⟨q, hmem⟩
    cases q with
    | none =>
        rcases hplan.tree.alone a hmem with hnone | ⟨rfl, _⟩
        · exact absurd (hup.symm.trans hnone) (Option.some_ne_none p)
        · exact absurd hmem hnot
    | some p' =>
        have hp' : p' = p :=
          Option.some.inj ((hplan.tree.under a p' hmem).left.symm.trans hup)
        rw [hp'] at hmem
        rcases List.append_of_mem hmem with ⟨before, after, hplaced⟩
        exact dir_shorter hplan.planned hplaced
  have hdown : forall {b}, Relation.TransGen (Up (parentIn h bundle)) bundle.rootId b ->
      b ∈ nodes bundle.conversations ∧
        ((planDirs nfkd bundle.conversations bundle.conversations.length).dir b).length <
          ((planDirs nfkd bundle.conversations bundle.conversations.length).dir
            bundle.rootId).length := by
    intro b hb
    induction hb with
    | single hup => exact ⟨mem_nodes_of_parentIn hup, hstep hroot hup⟩
    | tail _ hup ih => exact ⟨mem_nodes_of_parentIn hup, (hstep ih.left hup).trans ih.right⟩
  exact Nat.lt_irrefl _ (hdown hcycle).right

theorem hangsOn_iff (hplan : IsPlan nfkd h bundle placed) (a : UUID) (q : Option UUID) :
    HangsOn h bundle a q <-> (a, q) ∈ placed := by
  have hplaced : forall {q}, (a, q) ∈ placed -> HangsOn h bundle a q := by
    intro q hmem
    have hnode := (hplan.tree.members a).mp (List.mem_map_of_mem hmem)
    refine ⟨hnode, ?_⟩
    by_cases hcut : IsCut h bundle a
    · refine Or.inl ⟨hcut, ?_⟩
      have halone := root_alone hplan (hcut.left ▸ hnode) (hcut.left ▸ hcut.right)
      rw [← hcut.left] at halone
      exact place_unique hplan hmem halone
    · refine Or.inr ⟨hcut, ?_⟩
      cases q with
      | none =>
          rcases hplan.tree.alone a hmem with hnone | hcycle
          · exact hnone.symm
          · exact absurd hcycle hcut
      | some p => exact (hplan.tree.under a p hmem).left.symm
  constructor
  · rintro ⟨hnode, hangs⟩
    rcases exists_mem_placed hplan hnode with ⟨q', hmem⟩
    have hqq : q' = q := by
      rcases (hplaced hmem).right with ⟨hcut, rfl⟩ | ⟨hcut, rfl⟩
      · rcases hangs with ⟨_, rfl⟩ | ⟨hnot, _⟩
        · rfl
        · exact absurd hcut hnot
      · rcases hangs with ⟨hnot, _⟩ | ⟨_, rfl⟩
        · exact absurd hnot hcut
        · rfl
    exact hqq ▸ hmem
  · exact hplaced

theorem isCrowded_iff (hplan : IsPlan nfkd h bundle placed) :
    IsCrowded nfkd h bundle <->
      exists before a q after, placed = before ++ (a, q) :: after ∧
        120 < (dirName nfkd bundle.conversations a).length +
          sameName nfkd bundle.conversations before q (dirName nfkd bundle.conversations a) := by
  constructor
  · rintro ⟨a, q, others, hnodup, hsame, hlong⟩
    have hcount : others.length < sameName nfkd bundle.conversations placed q
        (dirName nfkd bundle.conversations a) := by
      have hsub : (a :: others).map (fun b => (b, q)) ⊆ placed.filter (fun e =>
          decide (e.2 = q ∧ dirName nfkd bundle.conversations e.1 =
            dirName nfkd bundle.conversations a)) := by
        intro e he
        rcases List.mem_map.mp he with ⟨b, hb, rfl⟩
        rcases hsame b hb with ⟨hangs, hname⟩
        rw [List.mem_filter]
        exact ⟨(hangsOn_iff hplan b q).mp hangs, by simp [hname]⟩
      have hdistinct : ((a :: others).map (fun b => (b, q))).Nodup :=
        hnodup.map (fun b c hbc => (Prod.mk.inj hbc).left)
      have hle := (List.subperm_of_subset hdistinct hsub).length_le
      rw [List.length_map, List.length_cons] at hle
      exact Nat.lt_of_succ_le hle
    rcases exists_nth hcount with ⟨before, a', after, hplaced, hname, hbefore⟩
    exact ⟨before, a', q, after, hplaced, by rw [hname, hbefore]; exact hlong⟩
  · rintro ⟨before, a, q, after, hplaced, hlong⟩
    have hnodup := hplan.tree.nodup
    rw [hplaced, List.map_append, List.map_cons, List.nodup_middle, List.nodup_cons] at hnodup
    refine ⟨a, q, (before.filter (fun e => decide (e.2 = q ∧
      dirName nfkd bundle.conversations e.1 = dirName nfkd bundle.conversations a))).map Prod.fst,
      ?_, ?_, ?_⟩
    · have hsub : ((before.filter (fun e => decide (e.2 = q ∧
          dirName nfkd bundle.conversations e.1 =
            dirName nfkd bundle.conversations a))).map Prod.fst).Sublist
              (before.map Prod.fst ++ after.map Prod.fst) :=
        (List.filter_sublist.map Prod.fst).trans (List.sublist_append_left _ _)
      rw [List.nodup_cons]
      exact ⟨fun hmem => hnodup.left (hsub.subset hmem), hsub.nodup hnodup.right⟩
    · intro b hb
      rw [hangsOn_iff hplan, hplaced]
      rcases List.mem_cons.mp hb with rfl | hother
      · exact ⟨by simp, rfl⟩
      · rcases List.mem_map.mp hother with ⟨⟨b', q'⟩, he, rfl⟩
        rcases List.mem_filter.mp he with ⟨hmem, hsame⟩
        rcases of_decide_eq_true hsame with ⟨rfl, hname⟩
        exact ⟨List.mem_append_left _ hmem, hname⟩
    · rw [List.length_map]
      exact hlong

end Hanging

/-!
# Safe paths
-/

theorem isSafe_not {c bad : CodePoint} (hc : isSafe c = true) (hbad : isSafe bad = false) :
    c ≠ bad := by
  rintro rfl
  rw [hbad] at hc
  cases hc

theorem isSafeArchivePath_inDir (base : Text) {name : Text}
    (hname : forall c, c ∈ name -> isSafe c = true) :
    isSafeArchivePath (inDir base name) = true <->
      isSafeArchivePath base = true ∧ isSafePart name = true := by
  have hnot : forall bad, isSafe bad = false -> bad ≠ 0x2F ->
      (inDir base name).contains bad = base.contains bad := by
    intro bad hbad hslash
    have hmem : bad ∉ text "/" ++ name := by
      intro h
      rcases List.mem_append.mp h with h | h
      · exact hslash (List.mem_singleton.mp h)
      · exact isSafe_not (hname bad h) hbad rfl
    rw [Bool.eq_iff_iff, List.contains_iff_mem, List.contains_iff_mem]
    unfold inDir
    rw [List.append_assoc, List.mem_append]
    exact or_iff_left hmem
  have hparts : (inDir base name).splitOn 0x2F = base.splitOn 0x2F ++ [name] := by
    have hslash : (0x2F : CodePoint) ∉ name :=
      fun hmem => isSafe_not (hname _ hmem) (by decide) rfl
    have hjoin : inDir base name = base ++ 0x2F :: name := List.append_assoc _ _ _
    rw [hjoin, List.splitOn_append_cons_self, List.splitOn_eq_singleton hslash]
  unfold isSafeArchivePath
  rw [hnot 0x5C (by decide) (by decide), hnot 0 (by decide) (by decide),
    hnot 0x3A (by decide) (by decide), hparts, List.all_append]
  cases base with
  | nil =>
      have hhead : (inDir [] name).head? = some 0x2F := rfl
      simp [hhead]
  | cons c base =>
      have hhead : (inDir (c :: base) name).head? = some c := rfl
      have hempty : (inDir (c :: base) name).isEmpty = false := rfl
      rw [hhead, hempty, List.head?_cons, List.isEmpty_cons]
      simp only [Bool.and_eq_true, List.all_cons, List.all_nil, and_true, and_assoc]

theorem isSafePart_iff {part : Text} (hpart : forall c, c ∈ part -> isSafe c = true)
    (hlong : 8 < part.length) : isSafePart part = true <-> part.length ≤ 120 := by
  have hshort : forall other : Text, other.length ≤ 8 -> part ≠ other := by
    rintro other hother rfl
    omega
  have hcontrol : part.any (fun c => decide (c.val < 32)) = false := by
    rw [List.any_eq_false]
    intro c hc
    have hsafe := hpart c hc
    unfold isSafe at hsafe
    simp only [Bool.or_eq_true, Bool.and_eq_true, decide_eq_true_eq] at hsafe ⊢
    rcases hsafe with (((h | h) | rfl) | rfl) | rfl
    · omega
    · omega
    · decide
    · decide
    · decide
  have hempty : part.isEmpty = false := by
    rw [List.isEmpty_eq_false_iff]
    exact hshort [] (Nat.zero_le 8)
  unfold isSafePart
  rw [hcontrol, hempty, decide_eq_false (hshort (text ".") (by decide)),
    decide_eq_false (hshort (text "..") (by decide))]
  simp

theorem isSafe_of_dirName {name : Text} (hname : DirName name) (n : Nat) :
    forall c, c ∈ name ++ exes n -> isSafe c = true := by
  intro c hc
  rcases List.mem_append.mp hc with h | h
  · exact hname.safe c h
  · rw [List.eq_of_mem_replicate h]
    rfl

theorem isSafePart_dirName {name : Text} (hname : DirName name) (n : Nat) :
    isSafePart (name ++ exes n) = true <-> name.length + n ≤ 120 := by
  have hlength : (name ++ exes n).length = name.length + n := by
    unfold exes
    rw [List.length_append, List.length_replicate]
  have hlong := hname.long
  rw [isSafePart_iff (isSafe_of_dirName hname n) (by omega), hlength]

theorem isSafeArchivePath_conversation (dir : Text) :
    isSafeArchivePath (dir ++ text "/conversation.md") = isSafeArchivePath dir := by
  have hjoin : dir ++ text "/conversation.md" = inDir dir (text "conversation.md") :=
    (List.append_assoc dir (text "/") (text "conversation.md")).symm
  rw [hjoin, Bool.eq_iff_iff,
    isSafeArchivePath_inDir dir (List.all_eq_true.mp (by decide))]
  exact and_iff_left (by decide)

theorem isSafeArchivePath_branches (dir : Text) :
    isSafeArchivePath (dir ++ text "/branches") = isSafeArchivePath dir := by
  have hjoin : dir ++ text "/branches" = inDir dir (text "branches") :=
    (List.append_assoc dir (text "/") (text "branches")).symm
  rw [hjoin, Bool.eq_iff_iff,
    isSafeArchivePath_inDir dir (List.all_eq_true.mp (by decide))]
  exact and_iff_left (by decide)

section Safety

variable {nfkd : Text -> Text} {conversations : List ExportConversation}
  {placed : List (UUID × Option UUID)} {plan : Plan}

theorem safe_dir_iff (hplanned : Planned nfkd conversations placed plan)
    {before after : List (UUID × Option UUID)} {a : UUID} {q : Option UUID}
    (hplaced : placed = before ++ (a, q) :: after) :
    isSafeArchivePath (plan.dir a) = true <->
      isSafeArchivePath (baseOf plan q) = true ∧
        (dirName nfkd conversations a).length +
          sameName nfkd conversations before q (dirName nfkd conversations a) ≤ 120 := by
  have hname := dirName_isName nfkd conversations a
  rw [hplanned.path before a q after hplaced,
    isSafeArchivePath_inDir _ (isSafe_of_dirName hname _), isSafePart_dirName hname]

theorem safe_dirs (hplanned : Planned nfkd conversations placed plan)
    (hshort : forall before a q after, placed = before ++ (a, q) :: after ->
      (dirName nfkd conversations a).length +
        sameName nfkd conversations before q (dirName nfkd conversations a) ≤ 120) {a : UUID}
    (ha : a ∈ placed.map Prod.fst) : isSafeArchivePath (plan.dir a) = true := by
  rcases exists_place ha with ⟨q, before, after, hplaced⟩
  rw [safe_dir_iff hplanned hplaced]
  refine ⟨?_, hshort before a q after hplaced⟩
  cases q with
  | none =>
      show isSafeArchivePath (text "conversations") = true
      decide
  | some p =>
      show isSafeArchivePath (plan.dir p ++ text "/branches") = true
      rw [isSafeArchivePath_branches]
      have hlt := dir_shorter hplanned hplaced
      apply safe_dirs hplanned hshort
      rw [hplaced, List.map_append]
      exact List.mem_append_left _ (hplanned.closed before a p after hplaced)
termination_by (plan.dir a).length

end Safety

/-!
# The plan
-/

theorem Plan.dirs_eq {plan : Plan} (hnodup : plan.keys.Nodup) :
    plan.dirs = plan.keys.map (fun id => (id, plan.dir id)) := by
  rcases plan with ⟨dirs, used⟩
  induction dirs with
  | nil => rfl
  | cons e rest ih =>
      rcases List.nodup_cons.mp hnodup with ⟨hnew, hrest⟩
      have hself : Plan.dir ⟨e :: rest, used⟩ e.1 = e.2 := Plan.dir_add_self ⟨rest, used⟩ e.1 e.2
      have hother : forall id, id ∈ Plan.keys ⟨rest, used⟩ ->
          Plan.dir ⟨e :: rest, used⟩ id = Plan.dir ⟨rest, used⟩ id := by
        intro id hid
        apply @Plan.dir_add_of_ne ⟨rest, used⟩
        rintro rfl
        exact hnew hid
      show e :: rest = (e.1, _) :: (Plan.keys ⟨rest, used⟩).map _
      rw [hself, List.map_congr_left (fun id hid => by rw [hother id hid])]
      exact congrArg (List.cons e) (ih hrest)

section Mirror

variable {nfkd : Text -> Text} {h : Hierarchy} {bundle : CollectedBundle}
  {placed : List (UUID × Option UUID)}

def pathOf (nfkd : Text -> Text) (conversations : List ExportConversation) (id : UUID) : Text :=
  (planDirs nfkd conversations conversations.length).dir id ++ text "/conversation.md"

theorem planPaths_eq (hplan : IsPlan nfkd h bundle placed) :
    planPaths nfkd bundle.conversations = (placed.map Prod.fst).reverse.map (fun id =>
      (id, pathOf nfkd bundle.conversations id)) := by
  have hkeys := hplan.planned.keys
  have hnodup := List.nodup_reverse.mpr hplan.tree.nodup
  unfold planPaths
  rw [Plan.dirs_eq (by rw [hkeys]; exact hnodup), hkeys, List.map_map]
  rfl

theorem mem_planPaths (hplan : IsPlan nfkd h bundle placed) {id : UUID}
    (hid : id ∈ nodes bundle.conversations) :
    (id, pathOf nfkd bundle.conversations id) ∈ planPaths nfkd bundle.conversations := by
  rw [planPaths_eq hplan]
  apply List.mem_map_of_mem (f := fun id => (id, pathOf nfkd bundle.conversations id))
  exact List.mem_reverse.mpr ((hplan.tree.members id).mpr hid)

theorem pathOf_injective (hplan : IsPlan nfkd h bundle placed) {a b : UUID}
    (ha : a ∈ placed.map Prod.fst) (hb : b ∈ placed.map Prod.fst)
    (heq : pathOf nfkd bundle.conversations a = pathOf nfkd bundle.conversations b) : a = b :=
  dir_injective hplan.planned ha hb (List.append_cancel_right heq)

theorem liesUnder_of_placed (hplan : IsPlan nfkd h bundle placed) {a p : UUID}
    (hmem : (a, some p) ∈ placed) : LiesUnder (planPaths nfkd bundle.conversations) a p := by
  have hnode := (hplan.tree.members a).mp (List.mem_map_of_mem hmem)
  have hpnode := mem_nodes_of_parentIn (hplan.tree.under a p hmem).left
  rcases List.append_of_mem hmem with ⟨before, after, hplaced⟩
  have hpath := hplan.planned.path before a (some p) after hplaced
  have hslash := no_slash (dirName_isName nfkd bundle.conversations a)
    (sameName nfkd bundle.conversations before (some p) (dirName nfkd bundle.conversations a))
  refine ⟨_, _, hslash, mem_planPaths hplan hpnode, ?_⟩
  have ha := mem_planPaths hplan hnode
  unfold pathOf at ha
  rw [hpath] at ha
  have hjoin : baseOf (planDirs nfkd bundle.conversations bundle.conversations.length) (some p) ++
      text "/" = (planDirs nfkd bundle.conversations bundle.conversations.length).dir p ++
        text "/branches/" := List.append_assoc _ _ _
  unfold inDir at ha
  rw [hjoin] at ha
  exact ha

theorem longer_of_liesUnder (hplan : IsPlan nfkd h bundle placed) {a p : UUID}
    (hunder : LiesUnder (planPaths nfkd bundle.conversations) a p) :
    (pathOf nfkd bundle.conversations p).length <
      (pathOf nfkd bundle.conversations a).length := by
  rcases hunder with ⟨dir, name, _, hp, ha⟩
  rw [planPaths_eq hplan] at hp ha
  rcases List.mem_map.mp hp with ⟨_, _, heq⟩
  rcases Prod.mk.inj heq with ⟨rfl, hppath⟩
  rcases List.mem_map.mp ha with ⟨_, _, heq⟩
  rcases Prod.mk.inj heq with ⟨rfl, hapath⟩
  have hbranches : (text "/branches/").length = 10 := rfl
  rw [hppath, hapath]
  simp only [List.length_append, hbranches]
  omega

theorem exists_cut (hplan : IsPlan nfkd h bundle placed) {a : UUID}
    (hcycle : OnCycle h bundle a) :
    exists b p, Reaches (parentIn h bundle) a b ∧ parentIn h bundle b = some p ∧
      ¬LiesUnder (planPaths nfkd bundle.conversations) b p := by
  by_contra hnone
  have hstep : forall {b p}, Reaches (parentIn h bundle) a b -> parentIn h bundle b = some p ->
      (pathOf nfkd bundle.conversations p).length <
        (pathOf nfkd bundle.conversations b).length := by
    intro b p hreach hup
    apply longer_of_liesUnder hplan
    by_contra hnot
    exact hnone ⟨b, p, hreach, hup, hnot⟩
  have hdown : forall {b}, Relation.TransGen (Up (parentIn h bundle)) a b ->
      (pathOf nfkd bundle.conversations b).length <
        (pathOf nfkd bundle.conversations a).length := by
    intro b hb
    induction hb with
    | single hup => exact hstep Relation.ReflTransGen.refl hup
    | tail hpath hup ih => exact (hstep hpath.to_reflTransGen hup).trans ih
  exact Nat.lt_irrefl _ (hdown hcycle)

theorem mirrorsTree (hplan : IsPlan nfkd h bundle placed) : MirrorsTree nfkd h bundle := by
  have hkeys : (planPaths nfkd bundle.conversations).map Prod.fst =
      (placed.map Prod.fst).reverse := by
    rw [planPaths_eq hplan, List.map_map]
    exact List.map_id _
  have hunder : forall {a p}, a ∈ nodes bundle.conversations -> parentIn h bundle a = some p ->
      ¬IsCut h bundle a -> LiesUnder (planPaths nfkd bundle.conversations) a p := by
    intro a p ha hup hcut
    apply liesUnder_of_placed hplan
    exact (hangsOn_iff hplan a (some p)).mp ⟨ha, Or.inr ⟨hcut, hup.symm⟩⟩
  refine ⟨fun depth hdepth => planDirs_more nfkd hdepth, ?_, ?_, ?_, ?_,
    fun a _ hcycle => exists_cut hplan hcycle⟩
  · intro id
    rw [hkeys, List.mem_reverse]
    exact hplan.tree.members id
  · rw [hkeys]
    exact List.nodup_reverse.mpr hplan.tree.nodup
  · rw [planPaths_eq hplan, List.map_map]
    apply List.Nodup.map_on _ (List.nodup_reverse.mpr hplan.tree.nodup)
    intro a ha b hb heq
    exact pathOf_injective hplan (List.mem_reverse.mp ha) (List.mem_reverse.mp hb) heq
  · intro a p ha hup
    by_cases hcut : IsCut h bundle a
    · refine Or.inr ⟨hcut.right, ?_⟩
      intro b q hb hne hup'
      exact hunder hb hup' (fun hcut' => hne (hcut'.left.trans hcut.left.symm))
    · exact Or.inl (hunder ha hup hcut)

end Mirror

end ExportArchive
end ConversationService
