import ConversationService.Library.ParentLinks

/-!
# Walks that place what they visit

A walk down from a stack, as in `ParentLinks`, which also says of every element from which
other one it was reached: from none for those that were on the stack by themselves.

When every element has at most one parent among the nodes and all of them are below the first
one, a walk from the tops and then from all nodes places everything under its parent, but for
one element: the first node, when it lies on a cycle.
-/

namespace ConversationService
namespace ParentLinks

variable {κ : Type} {node : κ -> Prop} {children : κ -> List κ}

/-- The elements that a walk takes, in order, with the places where they are put. -/
inductive Places (node : κ -> Prop) (children : κ -> List κ) :
    List (κ × Option κ) -> List κ -> List (κ × Option κ) -> Prop where
  | nil {seen : List κ} : Places node children [] seen []
  | skip {a : κ} {q : Option κ} {stack : List (κ × Option κ)} {seen : List κ}
      {out : List (κ × Option κ)} : a ∈ seen ∨ ¬node a ->
      Places node children stack seen out -> Places node children ((a, q) :: stack) seen out
  | visit {a : κ} {q : Option κ} {stack : List (κ × Option κ)} {seen : List κ}
      {out : List (κ × Option κ)} : a ∉ seen -> node a ->
      Places node children ((children a).map (fun b => (b, some a)) ++ stack) (a :: seen) out ->
      Places node children ((a, q) :: stack) seen ((a, q) :: out)

variable {stack : List (κ × Option κ)} {seen : List κ} {out : List (κ × Option κ)}

theorem visits_of_places (h : Places node children stack seen out) :
    Visits node children (stack.map Prod.fst) seen (out.map Prod.fst) := by
  induction h with
  | nil => exact .nil
  | skip hskip _ ih => exact .skip hskip ih
  | @visit a q stack seen out hnew hnode _ ih =>
      refine .visit hnew hnode ?_
      rw [List.map_append, List.map_map] at ih
      have hsame : (children a).map (Prod.fst ∘ fun b => (b, some a)) = children a :=
        List.map_id _
      rw [hsame] at ih
      exact ih

theorem places_unique {out' : List (κ × Option κ)} (h : Places node children stack seen out)
    (h' : Places node children stack seen out') : out = out' := by
  induction h generalizing out' with
  | nil =>
      cases h'
      rfl
  | skip hskip _ ih =>
      cases h' with
      | skip _ hrest => exact ih hrest
      | visit hnew hnode _ => exact absurd hskip (by simp [hnew, hnode])
  | visit hnew hnode _ ih =>
      cases h' with
      | skip hskip _ => exact absurd hskip (by simp [hnew, hnode])
      | visit _ _ hrest => rw [ih hrest]

theorem places_source (h : Places node children stack seen out) {a : κ} {q : Option κ}
    (ha : (a, q) ∈ out) :
    (a, q) ∈ stack ∨ exists p, q = some p ∧ a ∈ children p ∧ p ∈ out.map Prod.fst := by
  induction h with
  | nil => cases ha
  | skip _ _ ih =>
      rcases ih ha with hstack | hchild
      · exact Or.inl (List.mem_cons_of_mem _ hstack)
      · exact Or.inr hchild
  | @visit b q' stack seen out _ _ _ ih =>
      rcases List.mem_cons.mp ha with heq | hrest
      · exact Or.inl (heq ▸ List.mem_cons_self)
      · rcases ih hrest with hstack | ⟨p, hq, hchild, hp⟩
        · rcases List.mem_append.mp hstack with hnew | hold
          · rcases List.mem_map.mp hnew with ⟨c, hc, heq⟩
            cases heq
            exact Or.inr ⟨b, rfl, hc, List.mem_cons_self⟩
          · exact Or.inl (List.mem_cons_of_mem _ hold)
        · exact Or.inr ⟨p, hq, hchild, List.mem_cons_of_mem b hp⟩

theorem places_before (h : Places node children stack seen out)
    {before after : List (κ × Option κ)} {a p : κ} (hout : out = before ++ (a, some p) :: after)
    (hstack : (a, some p) ∉ stack) : p ∈ before.map Prod.fst := by
  induction h generalizing before with
  | nil => exact absurd hout.symm (List.append_ne_nil_of_right_ne_nil _ (List.cons_ne_nil _ _))
  | skip _ _ ih => exact ih hout (fun hm => hstack (List.mem_cons_of_mem _ hm))
  | @visit b q stack seen out _ _ htail ih =>
      cases before with
      | nil =>
          rw [List.nil_append] at hout
          exact absurd (List.mem_cons.mpr (Or.inl (List.cons.inj hout).left.symm)) hstack
      | cons first before =>
          rw [List.cons_append] at hout
          rcases List.cons.inj hout with ⟨rfl, hrest⟩
          by_cases hchild : (a, some p) ∈ (children b).map (fun c => (c, some b)) ++ stack
          · rcases List.mem_append.mp hchild with hnew | hold
            · rcases List.mem_map.mp hnew with ⟨c, _, heq⟩
              cases heq
              exact List.mem_cons_self
            · exact absurd (List.mem_cons_of_mem _ hold) hstack
          · exact List.mem_cons_of_mem b (ih hrest hchild)

theorem places_append {rest : List (κ × Option κ)} {out' : List (κ × Option κ)}
    (h : Places node children stack seen out)
    (h' : Places node children rest ((out.map Prod.fst).reverse ++ seen) out') :
    Places node children (stack ++ rest) seen (out ++ out') := by
  induction h with
  | nil => exact h'
  | skip hskip _ ih => exact .skip hskip (ih h')
  | @visit a q stack seen out hnew hnode _ ih =>
      refine .visit hnew hnode ?_
      rw [List.map_cons, List.reverse_cons, List.append_assoc, List.singleton_append] at h'
      have htail := ih h'
      rw [List.append_assoc] at htail
      exact htail

theorem places_split {front rest : List (κ × Option κ)}
    (h : Places node children (front ++ rest) seen out) :
    exists first second, out = first ++ second ∧ Places node children front seen first ∧
      Places node children rest ((first.map Prod.fst).reverse ++ seen) second := by
  generalize hstack : front ++ rest = stack at h
  induction h generalizing front with
  | nil =>
      rcases List.append_eq_nil_iff.mp hstack with ⟨rfl, rfl⟩
      exact ⟨[], [], rfl, .nil, .nil⟩
  | @skip a q stack seen out hskip htail ih =>
      cases front with
      | nil =>
          rw [List.nil_append] at hstack
          rw [hstack]
          exact ⟨[], out, rfl, .nil, .skip hskip htail⟩
      | cons b front =>
          rcases List.cons.inj hstack with ⟨rfl, hrest⟩
          rcases ih hrest with ⟨first, second, hout, hfirst, hsecond⟩
          exact ⟨first, second, hout, .skip hskip hfirst, hsecond⟩
  | @visit a q stack seen out hnew hnode htail ih =>
      cases front with
      | nil =>
          rw [List.nil_append] at hstack
          rw [hstack]
          exact ⟨[], (a, q) :: out, rfl, .nil, .visit hnew hnode htail⟩
      | cons b front =>
          rcases List.cons.inj hstack with ⟨rfl, rfl⟩
          rcases ih (List.append_assoc _ _ _) with ⟨first, second, hout, hfirst, hsecond⟩
          refine ⟨(a, q) :: first, second, by rw [hout]; rfl, .visit hnew hnode hfirst, ?_⟩
          rw [List.map_cons, List.reverse_cons, List.append_assoc, List.singleton_append]
          exact hsecond

/-!
# Families with a top
-/

section Family

variable [DecidableEq κ] {up : κ -> Option κ} {nodes : List κ} {r : κ}

/-- The parent of an element, if it is one of the nodes. -/
def upWithin (up : κ -> Option κ) (nodes : List κ) (a : κ) : Option κ :=
  (up a).filter (fun p => p ∈ nodes)

/-- The nodes are all below one element, which is the first of them if it is one. -/
structure Below (up : κ -> Option κ) (children : κ -> List κ) (r : κ) (nodes : List κ) : Prop where
  nodup : nodes.Nodup
  reaches : forall a, a ∈ nodes -> Reaches up a r
  first : r ∈ nodes -> nodes.head? = some r
  children : forall a b, a ∈ nodes -> b ∈ nodes -> (b ∈ children a <-> up b = some a ∧ b ≠ a)

/-- The nodes without a parent among the nodes. -/
def IsTopOf (up : κ -> Option κ) (nodes : List κ) (a : κ) : Prop :=
  a ∈ nodes ∧ upWithin up nodes a = none

/-- Everything is placed under its parent, but for the tops and at most the first element. -/
structure Placed (up : κ -> Option κ) (nodes : List κ) (r : κ) (out : List (κ × Option κ)) :
    Prop where
  nodup : (out.map Prod.fst).Nodup
  members : forall a, a ∈ out.map Prod.fst <-> a ∈ nodes
  under : forall a p, (a, some p) ∈ out -> upWithin up nodes a = some p ∧ a ≠ p
  alone : forall a, (a, none) ∈ out -> upWithin up nodes a = none ∨
    (a = r ∧ Relation.TransGen (Up (upWithin up nodes)) a a)

theorem upWithin_eq_some {a p : κ} :
    upWithin up nodes a = some p <-> up a = some p ∧ p ∈ nodes := by
  unfold upWithin
  rw [Option.filter_eq_some_iff, decide_eq_true_eq]

theorem taken_of_parent (hbelow : Below up children r nodes)
    (h : Visits (fun a => a ∈ nodes) children (stack.map Prod.fst) seen (out.map Prod.fst))
    {a p : κ} (ha : a ∈ nodes) (hup : up a = some p) (hp : p ∈ out.map Prod.fst) :
    a ∈ seen ∨ a ∈ out.map Prod.fst := by
  by_cases hap : a = p
  · exact Or.inr (hap ▸ hp)
  · have hpnode := (visits_fresh h hp).right
    exact visits_closed h hp ((hbelow.children p a hpnode ha).mpr ⟨hup, hap⟩) ha

theorem all_nodes (hbelow : Below up children r nodes) {P : κ -> Prop}
    (htops : forall a, IsTopOf up nodes a -> P a) (hr : r ∈ nodes -> P r)
    (hstep : forall a p, a ∈ nodes -> up a = some p -> P p -> P a) :
    forall a, a ∈ nodes -> P a := by
  intro a ha
  have hreach := hbelow.reaches a ha
  induction hreach using Relation.ReflTransGen.head_induction_on with
  | refl => exact hr ha
  | @head a p hup _ ih =>
      by_cases hp : p ∈ nodes
      · exact hstep a p ha hup (ih hp)
      · apply htops a
        refine ⟨ha, ?_⟩
        have hnone : (up a).filter (fun p => p ∈ nodes) = none := by
          rw [show up a = some p from hup, Option.filter_some, decide_eq_false hp]
          rfl
        exact hnone

/-- What the walk from the tops leaves out hangs on a cycle. -/
theorem cyclic_of_left {first : List (κ × Option κ)} (hbelow : Below up children r nodes)
    (hvisits : Visits (fun a => a ∈ nodes) children (stack.map Prod.fst) []
      (first.map Prod.fst))
    (htops : forall a, IsTopOf up nodes a -> a ∈ first.map Prod.fst)
    (hr : r ∈ nodes) (hleft : r ∉ first.map Prod.fst) :
    Relation.TransGen (Up (upWithin up nodes)) r r := by
  have hnext : forall a, a ∈ nodes -> a ∉ first.map Prod.fst ->
      exists p, upWithin up nodes a = some p ∧ p ∈ nodes ∧ p ∉ first.map Prod.fst := by
    intro a ha hnot
    cases hup : upWithin up nodes a with
    | none => exact absurd (htops a ⟨ha, hup⟩) hnot
    | some p =>
        rcases upWithin_eq_some.mp hup with ⟨hp, hpnode⟩
        refine ⟨p, rfl, hpnode, ?_⟩
        intro htaken
        exact hnot ((taken_of_parent hbelow hvisits ha hp htaken).resolve_left List.not_mem_nil)
  have hback : forall a, Reaches up a r -> a ∈ nodes -> a ∉ first.map Prod.fst ->
      Reaches (upWithin up nodes) a r := by
    intro a hreach
    induction hreach using Relation.ReflTransGen.head_induction_on with
    | refl => exact fun _ _ => Relation.ReflTransGen.refl
    | @head a b hup _ ih =>
        intro ha hnot
        rcases hnext a ha hnot with ⟨p, hp, hpnode, hpnot⟩
        have hpb : p = b :=
          Option.some.inj ((upWithin_eq_some.mp hp).left.symm.trans hup)
        rw [hpb] at hp hpnode hpnot
        exact Relation.ReflTransGen.head hp (ih hpnode hpnot)
  rcases hnext r hr hleft with ⟨p, hp, hpnode, hpnot⟩
  exact Relation.TransGen.head' hp (hback p (hbelow.reaches p hpnode) hpnode hpnot)

theorem alone_second {first second : List (κ × Option κ)}
    (hbelow : Below up children r nodes)
    (hvisits : Visits (fun a => a ∈ nodes) children (stack.map Prod.fst) []
      (first.map Prod.fst))
    (htops : forall a, IsTopOf up nodes a -> a ∈ first.map Prod.fst)
    (hsecond : Places (fun a => a ∈ nodes) children (nodes.map (fun a => (a, none)))
      (first.map Prod.fst).reverse second) {a : κ} (ha : (a, none) ∈ second) :
    a = r ∧ r ∈ nodes ∧ r ∉ first.map Prod.fst := by
  have hmem : a ∈ second.map Prod.fst := List.mem_map_of_mem ha
  rcases visits_fresh (visits_of_places hsecond) hmem with ⟨hfresh, hnode⟩
  rw [List.mem_reverse] at hfresh
  have hstep : forall {a p}, a ∈ nodes -> up a = some p -> p ∈ first.map Prod.fst ->
      a ∈ first.map Prod.fst := fun ha hup hp =>
    (taken_of_parent hbelow hvisits ha hup hp).resolve_left List.not_mem_nil
  by_cases hr : r ∈ nodes
  · rcases List.head?_eq_some_iff.mp (hbelow.first hr) with ⟨others, hnodes⟩
    have hstack : nodes.map (fun a => (a, (none : Option κ))) =
        [(r, none)] ++ others.map (fun a => (a, none)) := by
      rw [hnodes]
      rfl
    rw [hstack] at hsecond
    rcases places_split hsecond with ⟨s, t, rfl, hs, ht⟩
    have hvs := visits_of_places hs
    have hcover := all_nodes hbelow
      (P := fun a => a ∈ first.map Prod.fst ∨ a ∈ s.map Prod.fst)
      (fun a htop => Or.inl (htops a htop))
      (fun _ => by
        have htaken := visits_stack hvs (List.mem_singleton_self r) hr
        rw [List.mem_reverse] at htaken
        exact htaken)
      (fun a p ha hup hp => by
        rcases hp with hp | hp
        · exact Or.inl (hstep ha hup hp)
        · have htaken := taken_of_parent hbelow hvs ha hup hp
          rw [List.mem_reverse] at htaken
          exact htaken)
    rcases List.mem_append.mp ha with hin | hlate
    · rcases places_source hs hin with hstart | ⟨p, hp, _⟩
      · rw [List.mem_singleton] at hstart
        cases hstart
        exact ⟨rfl, hr, hfresh⟩
      · cases hp
    · have hlate' : a ∈ t.map Prod.fst := List.mem_map_of_mem hlate
      have hnot := (visits_fresh (visits_of_places ht) hlate').left
      rw [List.mem_append, List.mem_reverse, List.mem_reverse] at hnot
      exact absurd (hcover a hnode).symm hnot
  · have hcover := all_nodes hbelow (P := fun a => a ∈ first.map Prod.fst) htops
      (fun hmem => absurd hmem hr) (fun a p ha hup hp => hstep ha hup hp)
    exact absurd (hcover a hnode) hfresh

theorem placed_of_places (hbelow : Below up children r nodes) {tops : List κ}
    (htops : forall a, a ∈ tops <-> IsTopOf up nodes a)
    (h : Places (fun a => a ∈ nodes) children
      (tops.map (fun a => (a, none)) ++ nodes.map (fun a => (a, none))) [] out) :
    Placed up nodes r out := by
  have hvisits := visits_of_places h
  rcases places_split h with ⟨first, second, hout, hfirst, hsecond⟩
  have hvfirst := visits_of_places hfirst
  rw [List.append_nil] at hsecond
  have htop : forall a, IsTopOf up nodes a -> a ∈ first.map Prod.fst := by
    intro a ha
    have hstack : a ∈ (tops.map (fun a => (a, (none : Option κ)))).map Prod.fst := by
      simpa using (htops a).mpr ha
    exact (visits_stack hvfirst hstack ha.left).resolve_left List.not_mem_nil
  refine ⟨visits_nodup hvisits, ?_, ?_, ?_⟩
  · intro a
    constructor
    · intro ha
      exact (visits_fresh hvisits ha).right
    · intro ha
      have hstack : a ∈ ((tops.map (fun a => (a, (none : Option κ)))) ++
          nodes.map (fun a => (a, none))).map Prod.fst := by
        simpa using Or.inr ha
      exact (visits_stack hvisits hstack ha).resolve_left List.not_mem_nil
  · intro a p ha
    have hanode := (visits_fresh hvisits (List.mem_map_of_mem ha)).right
    rcases places_source h ha with hstack | ⟨q, hq, hchild, hq'⟩
    · simp at hstack
    · cases hq
      have hpnode := (visits_fresh hvisits hq').right
      rcases (hbelow.children p a hpnode hanode).mp hchild with ⟨hup, hne⟩
      exact ⟨upWithin_eq_some.mpr ⟨hup, hpnode⟩, hne⟩
  · intro a ha
    rw [hout] at ha
    rcases List.mem_append.mp ha with hin | hlate
    · rcases places_source hfirst hin with hstart | ⟨p, hp, _⟩
      · have htop' : a ∈ tops := by simpa using hstart
        exact Or.inl ((htops a).mp htop').right
      · cases hp
    · rcases alone_second hbelow hvfirst htop hsecond hlate with ⟨rfl, hr, hleft⟩
      exact Or.inr ⟨rfl, cyclic_of_left hbelow hvfirst htop hr hleft⟩

end Family

end ParentLinks
end ConversationService
