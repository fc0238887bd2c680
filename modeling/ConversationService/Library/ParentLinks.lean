import Mathlib.Logic.Relation
import Mathlib.Data.List.Basic

/-!
# Walks along parent links

Every element has at most one parent, and nothing else is known of the links: chains may
end, run into a cycle or start on one. There are three walks. A climb goes up until there
is no parent or the parent was met before. A visit goes down from a stack of elements and
takes each one once. A distance is the number of steps up to an element. This module says
how they fit together.
-/

namespace ConversationService
namespace ParentLinks

variable {κ : Type} {up : κ -> Option κ}

/-- One step to the parent. -/
def Up (up : κ -> Option κ) (a b : κ) : Prop :=
  up a = some b

/-- Any number of steps to the parent. -/
def Reaches (up : κ -> Option κ) : κ -> κ -> Prop :=
  Relation.ReflTransGen (Up up)

theorem up_rightUnique : Relator.RightUnique (Up up) := by
  intro a b c hb hc
  exact Option.some.inj (hb.symm.trans hc)

theorem reaches_total {a b c : κ} (hb : Reaches up a b) (hc : Reaches up a c) :
    Reaches up b c ∨ Reaches up c b :=
  Relation.ReflTransGen.total_of_right_unique up_rightUnique hb hc

theorem related_iff_join {a b : κ} :
    Relation.EqvGen (Up up) a b <-> exists c, Reaches up a c ∧ Reaches up b c := by
  have hjoin : Equivalence (Relation.Join (Reaches up)) := by
    apply Relation.equivalence_join_reflTransGen
    intro a b c hb hc
    rw [up_rightUnique hb hc]
    exact ⟨c, Relation.ReflGen.refl, Relation.ReflTransGen.refl⟩
  constructor
  · intro h
    induction h with
    | rel a b h => exact ⟨b, Relation.ReflTransGen.single h, Relation.ReflTransGen.refl⟩
    | refl a => exact hjoin.refl a
    | symm a b _ ih => exact hjoin.symm ih
    | trans a b c _ _ ih ih' => exact hjoin.trans ih ih'
  · intro h
    rcases h with ⟨c, ha, hb⟩
    have hgen : forall {x y : κ}, Reaches up x y -> Relation.EqvGen (Up up) x y := by
      intro x y h
      induction h with
      | refl => exact Relation.EqvGen.refl x
      | tail _ hstep ih => exact Relation.EqvGen.trans _ _ _ ih (Relation.EqvGen.rel _ _ hstep)
    exact Relation.EqvGen.trans _ _ _ (hgen ha) (Relation.EqvGen.symm _ _ (hgen hb))

/-!
# Climbs
-/

/-- A climb from an element ends at another one, with the elements that were met before. -/
inductive Climbs (up : κ -> Option κ) : List κ -> κ -> κ -> Prop where
  | root {seen : List κ} {a : κ} : up a = none -> Climbs up seen a a
  | closed {seen : List κ} {a b : κ} : up a = some b -> b ∈ a :: seen -> Climbs up seen a a
  | step {seen : List κ} {a b r : κ} : up a = some b -> b ∉ a :: seen ->
      Climbs up (a :: seen) b r -> Climbs up seen a r

/-- At the end of a climb there is no parent, or the climb has come from it. -/
def IsTop (up : κ -> Option κ) (r : κ) : Prop :=
  forall b, up r = some b -> Reaches up b r

theorem climbs_reaches {seen : List κ} {a r : κ} (h : Climbs up seen a r) :
    Reaches up a r := by
  induction h with
  | root _ => exact Relation.ReflTransGen.refl
  | closed _ _ => exact Relation.ReflTransGen.refl
  | step hup _ _ ih => exact Relation.ReflTransGen.head hup ih

theorem climbs_top {seen : List κ} {a r : κ} (h : Climbs up seen a r)
    (hseen : forall s, s ∈ seen -> Reaches up s a) : IsTop up r := by
  induction h with
  | root hup =>
      intro b hb
      rw [hup] at hb
      cases hb
  | closed hup hmem =>
      intro b hb
      rw [hup] at hb
      cases hb
      rcases List.mem_cons.mp hmem with rfl | hold
      · exact Relation.ReflTransGen.refl
      · exact hseen _ hold
  | step hup _ _ ih =>
      apply ih
      intro s hs
      rcases List.mem_cons.mp hs with rfl | hold
      · exact Relation.ReflTransGen.single hup
      · exact Relation.ReflTransGen.tail (hseen s hold) hup

theorem reaches_top {r c : κ} (htop : IsTop up r) (h : Reaches up r c) : Reaches up c r := by
  induction h with
  | refl => exact Relation.ReflTransGen.refl
  | tail _ hstep ih =>
      rcases Relation.ReflTransGen.cases_head ih with heq | ⟨d, hd, hrest⟩
      · exact htop _ (heq ▸ hstep)
      · rw [up_rightUnique hstep hd]
        exact hrest

theorem related_iff_reaches {a r y : κ} (h : Climbs up [] a r) :
    Relation.EqvGen (Up up) a y <-> Reaches up y r := by
  have htop := climbs_top h (fun s hs => by cases hs)
  rw [related_iff_join]
  constructor
  · intro hjoin
    rcases hjoin with ⟨c, ha, hy⟩
    rcases reaches_total ha (climbs_reaches h) with hcr | hrc
    · exact Relation.ReflTransGen.trans hy hcr
    · exact Relation.ReflTransGen.trans hy (reaches_top htop hrc)
  · intro hy
    exact ⟨r, climbs_reaches h, hy⟩

/-!
# Visits
-/

/--
The elements that a walk down from a stack takes, in order, when some have been taken
before.
-/
inductive Visits (node : κ -> Prop) (children : κ -> List κ) :
    List κ -> List κ -> List κ -> Prop where
  | nil {seen : List κ} : Visits node children [] seen []
  | skip {a : κ} {stack seen out : List κ} : a ∈ seen ∨ ¬node a ->
      Visits node children stack seen out -> Visits node children (a :: stack) seen out
  | visit {a : κ} {stack seen out : List κ} : a ∉ seen -> node a ->
      Visits node children (children a ++ stack) (a :: seen) out ->
      Visits node children (a :: stack) seen (a :: out)

/-- One element stands before another one. -/
def Precedes (out : List κ) (y z : κ) : Prop :=
  exists front back, out = front ++ back ∧ y ∈ front ∧ z ∈ back

theorem precedes_cons {out : List κ} {a y z : κ} (h : Precedes out y z) :
    Precedes (a :: out) y z := by
  rcases h with ⟨front, back, rfl, hy, hz⟩
  exact ⟨a :: front, back, rfl, List.mem_cons_of_mem _ hy, hz⟩

theorem precedes_ne {out : List κ} {y z : κ} (hnodup : out.Nodup) (h : Precedes out y z) :
    y ≠ z := by
  rcases h with ⟨front, back, rfl, hy, hz⟩
  exact (List.nodup_append.mp hnodup).right.right y hy z hz

section Visits

variable {node : κ -> Prop} {children : κ -> List κ} {stack seen out : List κ}

theorem visits_unique {out' : List κ} (h : Visits node children stack seen out)
    (h' : Visits node children stack seen out') : out = out' := by
  induction h generalizing out' with
  | nil =>
      cases h'
      rfl
  | skip hskip _ ih =>
      cases h' with
      | skip _ hrest => exact ih hrest
      | visit hnew hnode _ => exact absurd hskip (by simp [hnew, hnode])
  | visit hnew hnode _ ih =>
      cases h' with
      | skip hskip _ => exact absurd hskip (by simp [hnew, hnode])
      | visit _ _ hrest => rw [ih hrest]

theorem visits_fresh (h : Visits node children stack seen out) {y : κ} (hy : y ∈ out) :
    y ∉ seen ∧ node y := by
  induction h with
  | nil => cases hy
  | skip _ _ ih => exact ih hy
  | visit hnew hnode _ ih =>
      rcases List.mem_cons.mp hy with rfl | hrest
      · exact ⟨hnew, hnode⟩
      · rcases ih hrest with ⟨hfresh, hynode⟩
        exact ⟨fun hmem => hfresh (List.mem_cons_of_mem _ hmem), hynode⟩

theorem visits_nodup (h : Visits node children stack seen out) : out.Nodup := by
  induction h with
  | nil => exact List.nodup_nil
  | skip _ _ ih => exact ih
  | visit _ _ hrest ih =>
      refine List.nodup_cons.mpr ⟨?_, ih⟩
      intro hmem
      exact (visits_fresh hrest hmem).left List.mem_cons_self

theorem visits_stack (h : Visits node children stack seen out) {y : κ} (hy : y ∈ stack)
    (hnode : node y) : y ∈ seen ∨ y ∈ out := by
  induction h with
  | nil => cases hy
  | skip hskip _ ih =>
      rcases List.mem_cons.mp hy with rfl | hrest
      · exact Or.inl (hskip.resolve_right (fun hnot => hnot hnode))
      · exact ih hrest
  | visit _ _ _ ih =>
      rcases List.mem_cons.mp hy with rfl | hrest
      · exact Or.inr List.mem_cons_self
      · rcases ih (List.mem_append_right _ hrest) with hseen | hout
        · rcases List.mem_cons.mp hseen with rfl | hold
          · exact Or.inr List.mem_cons_self
          · exact Or.inl hold
        · exact Or.inr (List.mem_cons_of_mem _ hout)

theorem visits_closed (h : Visits node children stack seen out) {p y : κ} (hp : p ∈ out)
    (hy : y ∈ children p) (hnode : node y) : y ∈ seen ∨ y ∈ out := by
  induction h with
  | nil => cases hp
  | skip _ _ ih => exact ih hp
  | @visit a stack seen out _ _ hrest ih =>
      have hnext : y ∈ a :: seen ∨ y ∈ out := by
        rcases List.mem_cons.mp hp with rfl | hlater
        · exact visits_stack hrest (List.mem_append_left _ hy) hnode
        · exact ih hlater
      rcases hnext with hseen | hout
      · rcases List.mem_cons.mp hseen with rfl | hold
        · exact Or.inr List.mem_cons_self
        · exact Or.inl hold
      · exact Or.inr (List.mem_cons_of_mem _ hout)

/-- What holds of the stack and passes on to children holds of everything taken. -/
theorem visits_all {P : κ -> Prop} (h : Visits node children stack seen out)
    (hstack : forall a, a ∈ stack -> P a)
    (hchildren : forall a b, P a -> b ∈ children a -> P b) : forall y, y ∈ out -> P y := by
  induction h with
  | nil => exact fun y hy => by cases hy
  | skip _ _ ih => exact ih (fun a ha => hstack a (List.mem_cons_of_mem _ ha))
  | @visit a stack seen out _ _ _ ih =>
      intro y hy
      rcases List.mem_cons.mp hy with rfl | hrest
      · exact hstack _ List.mem_cons_self
      · refine ih ?_ y hrest
        intro b hb
        rcases List.mem_append.mp hb with hchild | hold
        · exact hchildren a b (hstack a List.mem_cons_self) hchild
        · exact hstack b (List.mem_cons_of_mem _ hold)

theorem visits_source (h : Visits node children stack seen out) {y : κ} (hy : y ∈ out) :
    y ∈ stack ∨ exists p, y ∈ children p ∧ Precedes out p y := by
  induction h with
  | nil => cases hy
  | skip _ _ ih =>
      rcases ih hy with hstack | hchild
      · exact Or.inl (List.mem_cons_of_mem _ hstack)
      · exact Or.inr hchild
  | @visit a stack seen out _ _ _ ih =>
      rcases List.mem_cons.mp hy with rfl | hrest
      · exact Or.inl List.mem_cons_self
      · rcases ih hrest with hstack | ⟨p, hp, hprecedes⟩
        · rcases List.mem_append.mp hstack with hchild | hold
          · exact Or.inr ⟨a, hchild, [a], out, rfl, List.mem_singleton_self a, hrest⟩
          · exact Or.inl (List.mem_cons_of_mem _ hold)
        · exact Or.inr ⟨p, hp, precedes_cons hprecedes⟩

theorem visits_append {front rest : List κ}
    (h : Visits node children (front ++ rest) seen out) :
    exists first second, out = first ++ second ∧ Visits node children front seen first ∧
      Visits node children rest (first.reverse ++ seen) second := by
  generalize hstack : front ++ rest = stack at h
  induction h generalizing front with
  | nil =>
      rcases List.append_eq_nil_iff.mp hstack with ⟨rfl, rfl⟩
      exact ⟨[], [], rfl, .nil, .nil⟩
  | @skip a stack seen out hskip htail ih =>
      cases front with
      | nil =>
          rw [List.nil_append] at hstack
          rw [hstack]
          exact ⟨[], out, rfl, .nil, .skip hskip htail⟩
      | cons b front =>
          rcases List.cons.inj hstack with ⟨rfl, hrest⟩
          rcases ih hrest with ⟨first, second, hout, hfirst, hsecond⟩
          exact ⟨first, second, hout, .skip hskip hfirst, hsecond⟩
  | @visit a stack seen out hnew hnode htail ih =>
      cases front with
      | nil =>
          rw [List.nil_append] at hstack
          rw [hstack]
          exact ⟨[], a :: out, rfl, .nil, .visit hnew hnode htail⟩
      | cons b front =>
          rcases List.cons.inj hstack with ⟨rfl, hrest⟩
          have hrest' : (children b ++ front) ++ rest = children b ++ stack := by
            rw [List.append_assoc]
            exact congrArg (children b ++ ·) hrest
          rcases ih hrest' with ⟨first, second, hout, hfirst, hsecond⟩
          refine ⟨b :: first, second, by rw [hout]; rfl, .visit hnew hnode hfirst, ?_⟩
          rw [List.reverse_cons, List.append_assoc, List.singleton_append]
          exact hsecond

theorem visits_siblings (h : Visits node children stack seen out) {p y z : κ}
    {before after : List κ} (hp : p ∈ out) (hz : z ∈ out)
    (hchildren : children p = before ++ y :: after) (hbefore : z ∉ before) (hne : z ≠ y)
    (hynode : node y)
    (honly : forall q, y ∈ children q ∨ z ∈ children q -> q = p)
    (hstack : y ∉ stack ∧ z ∉ stack) (hseen : y ∉ seen) : Precedes out y z := by
  induction h with
  | nil => cases hp
  | skip _ _ ih =>
      exact ih hp hz ⟨fun hm => hstack.left (List.mem_cons_of_mem _ hm),
        fun hm => hstack.right (List.mem_cons_of_mem _ hm)⟩ hseen
  | @visit a stack seen out _ _ htail ih =>
      have hya : y ≠ a := fun heq => hstack.left (heq ▸ List.mem_cons_self)
      have hza : z ≠ a := fun heq => hstack.right (heq ▸ List.mem_cons_self)
      have hzout := (List.mem_cons.mp hz).resolve_left hza
      have hseen' : y ∉ a :: seen := by
        intro hm
        rcases List.mem_cons.mp hm with heq | hold
        · exact hya heq
        · exact hseen hold
      by_cases hpa : p = a
      · subst hpa
        have hfront : Visits node children ((before ++ [y]) ++ (after ++ stack)) (p :: seen)
            out := by
          rw [hchildren] at htail
          simpa using htail
        rcases visits_append hfront with ⟨first, second, hout, hfirst, _⟩
        have hy : y ∈ first :=
          (visits_stack hfirst (by simp) hynode).resolve_left hseen'
        have hnot : z ∉ first := by
          intro hm
          rcases visits_source hfirst hm with hold | ⟨q, hq, front, back, hsplit, hqf, _⟩
          · rcases List.mem_append.mp hold with hb | heq
            · exact hbefore hb
            · exact hne (List.mem_singleton.mp heq)
          · have hqp : q = p := honly q (Or.inr hq)
            have hmem : q ∈ first := hsplit ▸ List.mem_append_left _ hqf
            exact (visits_fresh hfirst hmem).left (hqp ▸ List.mem_cons_self)
        have hz' : z ∈ second := by
          rw [hout] at hzout
          exact (List.mem_append.mp hzout).resolve_left hnot
        exact precedes_cons ⟨first, second, hout, hy, hz'⟩
      · have hpout := (List.mem_cons.mp hp).resolve_left hpa
        apply precedes_cons
        refine ih hpout hzout ⟨?_, ?_⟩ hseen'
        · intro hm
          rcases List.mem_append.mp hm with hchild | hold
          · exact hpa (honly a (Or.inl hchild)).symm
          · exact hstack.left (List.mem_cons_of_mem _ hold)
        · intro hm
          rcases List.mem_append.mp hm with hchild | hold
          · exact hpa (honly a (Or.inr hchild)).symm
          · exact hstack.right (List.mem_cons_of_mem _ hold)

end Visits

/-!
# Trees

The children of an element are the others that have it as their parent.
-/

section Trees

variable {node : κ -> Prop} {children : κ -> List κ} {r : κ} {out : List κ}

/-- How children, parents and nodes belong together. -/
structure Family (up : κ -> Option κ) (node : κ -> Prop) (children : κ -> List κ) : Prop where
  children : forall a b, b ∈ children a <-> up b = some a ∧ b ≠ a
  lower : forall a b, up a = some b -> node a

theorem mem_tree_iff (hfamily : Family up node children) (hr : node r)
    (h : Visits node children [r] [] out) (y : κ) : y ∈ out <-> Reaches up y r := by
  constructor
  · intro hy
    refine visits_all (P := fun y => Reaches up y r) h ?_ ?_ y hy
    · intro a ha
      rw [List.mem_singleton.mp ha]
      exact Relation.ReflTransGen.refl
    · intro a b ha hb
      exact Relation.ReflTransGen.head ((hfamily.children a b).mp hb).left ha
  · intro hy
    induction hy using Relation.ReflTransGen.head_induction_on with
    | refl =>
        exact (visits_stack h (List.mem_singleton_self r) hr).resolve_left (by simp)
    | @head a b hup _ ih =>
        by_cases hab : a = b
        · rw [hab]
          exact ih
        · have hchild := (hfamily.children b a).mpr ⟨hup, hab⟩
          exact (visits_closed h ih hchild (hfamily.lower a b hup)).resolve_left (by simp)

/-- Everything but the start of a visit comes after its parent. -/
theorem parent_precedes (hfamily : Family up node children)
    (h : Visits node children [r] [] out) {y : κ} (hy : y ∈ out) (hne : y ≠ r) :
    exists p, up y = some p ∧ Precedes out p y := by
  rcases visits_source h hy with hstack | ⟨p, hp, hprecedes⟩
  · exact absurd (List.mem_singleton.mp hstack) hne
  · exact ⟨p, ((hfamily.children p y).mp hp).left, hprecedes⟩

theorem siblings_precede (hfamily : Family up node children)
    (h : Visits node children [r] [] out) {p y z : κ} {before after : List κ}
    (hy : y ∈ out) (hz : z ∈ out) (hyr : y ≠ r) (hzr : z ≠ r) (hzp : up z = some p)
    (hchildren : children p = before ++ y :: after) (hbefore : z ∉ before) (hne : z ≠ y) :
    Precedes out y z := by
  have hyp : up y = some p := ((hfamily.children p y).mp (by rw [hchildren]; simp)).left
  have hp : p ∈ out := by
    rcases visits_source h hy with hstack | ⟨q, hq, front, back, hout, hqf, _⟩
    · exact absurd (List.mem_singleton.mp hstack) hyr
    · have hyq := ((hfamily.children q y).mp hq).left
      rw [up_rightUnique hyp hyq, hout]
      exact List.mem_append_left _ hqf
  refine visits_siblings h hp hz hchildren hbefore hne (visits_fresh h hy).right ?_
    ⟨by simpa using hyr, by simpa using hzr⟩ (by simp)
  intro q hq
  rcases hq with hq | hq
  · exact up_rightUnique ((hfamily.children q y).mp hq).left hyp
  · exact up_rightUnique ((hfamily.children q z).mp hq).left hzp

end Trees

/-!
# Distances
-/

/-- The number of steps up to the first time that an element is met. -/
inductive Distance (up : κ -> Option κ) (r : κ) : κ -> Nat -> Prop where
  | here : Distance up r r 0
  | step {a b : κ} {n : Nat} : a ≠ r -> up a = some b -> Distance up r b n ->
      Distance up r a (n + 1)

theorem distance_unique {r a : κ} {n m : Nat} (h : Distance up r a n)
    (h' : Distance up r a m) : n = m := by
  induction h generalizing m with
  | here =>
      cases h' with
      | here => rfl
      | step hne _ _ => exact absurd rfl hne
  | step hne hup _ ih =>
      cases h' with
      | here => exact absurd rfl hne
      | step _ hup' hrest =>
          rw [up_rightUnique hup' hup] at hrest
          rw [ih hrest]

theorem exists_distance {r a : κ} (h : Reaches up a r) : exists n, Distance up r a n := by
  induction h using Relation.ReflTransGen.head_induction_on with
  | refl => exact ⟨0, .here⟩
  | @head a b hup _ ih =>
      by_cases har : a = r
      · rw [har]
        exact ⟨0, .here⟩
      · rcases ih with ⟨n, hn⟩
        exact ⟨n + 1, .step har hup hn⟩

end ParentLinks
end ConversationService
