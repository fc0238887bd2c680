import Mathlib.Data.List.Infix

/-!
# Longest fitting prefixes

A list is taken element by element for as long as what has been taken fits. Where whatever
fits does so without its last element, too, this gives the longest prefix that fits.
-/

namespace ConversationService
namespace FittingPrefixes

variable {α : Type}

/-- What fits also fits without its last element. -/
def IsClosed (Fits : List α -> Prop) : Prop :=
  forall xs a, Fits (xs ++ [a]) -> Fits xs

theorem fits_of_append {Fits : List α -> Prop} (hclosed : IsClosed Fits) {xs ys : List α}
    (h : Fits (xs ++ ys)) : Fits xs := by
  induction ys using List.reverseRecOn with
  | nil => rwa [List.append_nil] at h
  | append_singleton ys a ih =>
      rw [← List.append_assoc] at h
      exact ih (hclosed _ _ h)

/-- A fitting prefix that is as long as any other. -/
structure IsLongest (Fits : List α -> Prop) (taken xs : List α) : Prop where
  isPrefix : taken <+: xs
  fits : Fits taken
  maximal : forall other, other <+: xs -> Fits other -> other.length ≤ taken.length

variable (Fits : List α -> Prop) [DecidablePred Fits]

def growFrom : List α -> List α -> List α
  | taken, [] => taken
  | taken, a :: rest =>
      if Fits (taken ++ [a]) then growFrom (taken ++ [a]) rest else taken

def longest (xs : List α) : List α :=
  growFrom Fits [] xs

variable {Fits}

theorem prefix_growFrom (taken xs : List α) : taken <+: growFrom Fits taken xs := by
  induction xs generalizing taken with
  | nil => exact List.prefix_rfl
  | cons a rest ih =>
      unfold growFrom
      split
      · exact (List.prefix_append _ _).trans (ih _)
      · exact List.prefix_rfl

theorem growFrom_within (taken xs : List α) : growFrom Fits taken xs <+: taken ++ xs := by
  induction xs generalizing taken with
  | nil => exact List.prefix_append _ _
  | cons a rest ih =>
      unfold growFrom
      split
      · have h := ih (taken ++ [a])
        rwa [List.append_assoc, List.singleton_append] at h
      · exact List.prefix_append _ _

theorem fits_growFrom {taken : List α} (h : Fits taken) (xs : List α) :
    Fits (growFrom Fits taken xs) := by
  induction xs generalizing taken with
  | nil => exact h
  | cons a rest ih =>
      unfold growFrom
      split
      · rename_i hfits
        exact ih hfits
      · exact h

/-!
# Growing past a part of the list
-/

theorem growFrom_append (hclosed : IsClosed Fits) {taken ys : List α}
    (h : Fits (taken ++ ys)) (xs : List α) :
    growFrom Fits taken (ys ++ xs) = growFrom Fits (taken ++ ys) xs := by
  induction ys generalizing taken with
  | nil => rw [List.append_nil, List.nil_append]
  | cons a rest ih =>
      have hsplit : taken ++ a :: rest = (taken ++ [a]) ++ rest := by simp
      rw [hsplit] at h ⊢
      rw [List.cons_append, growFrom, if_pos (fits_of_append hclosed h), ih h]

theorem growFrom_append_of_not {taken ys : List α} (htaken : Fits taken)
    (h : ¬Fits (taken ++ ys)) (xs : List α) :
    growFrom Fits taken (ys ++ xs) = growFrom Fits taken ys := by
  induction ys generalizing taken with
  | nil =>
      rw [List.append_nil] at h
      exact absurd htaken h
  | cons a rest ih =>
      rw [List.cons_append, growFrom, growFrom]
      by_cases ha : Fits (taken ++ [a])
      · rw [if_pos ha, if_pos ha]
        apply ih ha
        simpa using h
      · rw [if_neg ha, if_neg ha]

theorem growFrom_cases (taken xs : List α) :
    (exists a, xs.head? = some a ∧ Fits (taken ++ [a]) ∧
      taken ++ [a] <+: growFrom Fits taken xs) ∨
    ((forall a, xs.head? = some a -> ¬Fits (taken ++ [a])) ∧
      growFrom Fits taken xs = taken) := by
  cases xs with
  | nil =>
      right
      refine ⟨?_, rfl⟩
      intro a ha
      cases ha
  | cons a rest =>
      unfold growFrom
      by_cases ha : Fits (taken ++ [a])
      · left
        rw [if_pos ha]
        exact ⟨a, rfl, ha, prefix_growFrom _ _⟩
      · right
        rw [if_neg ha]
        refine ⟨?_, rfl⟩
        intro b hb
        cases hb
        exact ha

/-!
# The longest prefix
-/

theorem isLongest_longest (hclosed : IsClosed Fits) (hnil : Fits []) (xs : List α) :
    IsLongest Fits (longest Fits xs) xs := by
  refine ⟨growFrom_within [] xs, fits_growFrom hnil xs, ?_⟩
  intro other hprefix hfits
  rcases hprefix with ⟨rest, rfl⟩
  have hstart : Fits ([] ++ other) := hfits
  have hgrow : longest Fits (other ++ rest) = growFrom Fits other rest :=
    growFrom_append hclosed hstart rest
  rw [hgrow]
  exact (prefix_growFrom other rest).length_le

theorem isLongest_iff (hclosed : IsClosed Fits) (hnil : Fits []) {taken xs : List α} :
    IsLongest Fits taken xs <-> taken = longest Fits xs := by
  have hlongest := isLongest_longest hclosed hnil xs
  constructor
  · intro h
    have hlength : taken.length = (longest Fits xs).length :=
      Nat.le_antisymm (hlongest.maximal taken h.isPrefix h.fits)
        (h.maximal _ hlongest.isPrefix hlongest.fits)
    exact (List.prefix_of_prefix_length_le h.isPrefix hlongest.isPrefix
      (Nat.le_of_eq hlength)).eq_of_length hlength
  · intro h
    rw [h]
    exact hlongest

theorem exists_common (xs ys : List α) : exists common xs' ys', xs = common ++ xs' ∧
    ys = common ++ ys' ∧ (xs'.head? ≠ ys'.head? ∨ (xs' = [] ∧ ys' = [])) := by
  induction xs generalizing ys with
  | nil =>
      cases ys with
      | nil => exact ⟨[], [], [], rfl, rfl, Or.inr ⟨rfl, rfl⟩⟩
      | cons b rest => exact ⟨[], [], b :: rest, rfl, rfl, Or.inl (by simp)⟩
  | cons a xs ih =>
      cases ys with
      | nil => exact ⟨[], a :: xs, [], rfl, rfl, Or.inl (by simp)⟩
      | cons b ys =>
          by_cases hab : a = b
          · subst hab
            rcases ih ys with ⟨common, xs', ys', rfl, rfl, hhead⟩
            exact ⟨a :: common, xs', ys', rfl, rfl, hhead⟩
          · exact ⟨[], a :: xs, b :: ys, rfl, rfl, Or.inl (by simpa using hab)⟩

/--
Two lists have the same longest fitting prefix exactly if nothing more fits where they
part.
-/
theorem longest_eq_iff (hclosed : IsClosed Fits) (hnil : Fits []) (xs ys : List α) :
    longest Fits xs = longest Fits ys <->
      forall common xs' ys', xs = common ++ xs' -> ys = common ++ ys' ->
        xs'.head? ≠ ys'.head? -> Fits common ->
        (forall a, xs'.head? = some a -> ¬Fits (common ++ [a])) ∧
          (forall b, ys'.head? = some b -> ¬Fits (common ++ [b])) := by
  constructor
  · rintro heq common xs' ys' rfl rfl hhead hcommon
    unfold longest at heq
    have hstart : Fits ([] ++ common) := hcommon
    rw [growFrom_append hclosed hstart, growFrom_append hclosed hstart,
      List.nil_append] at heq
    -- an element that is taken stands at the same place in both
    have htakes : forall {zs : List α} {a : α}, common ++ [a] <+: zs -> zs ≠ common := by
      rintro zs a hprefix rfl
      have hlength := hprefix.length_le
      rw [List.length_append, List.length_singleton] at hlength
      omega
    have hxs := @growFrom_cases α Fits _ common xs'
    have hys := @growFrom_cases α Fits _ common ys'
    rcases hxs with ⟨a, ha, _, hprefix⟩ | ⟨hnot, hend⟩
    · rcases hys with ⟨b, hb, _, hprefix'⟩ | ⟨_, hend'⟩
      · rw [← heq] at hprefix'
        have hsame := (List.prefix_of_prefix_length_le hprefix hprefix'
          (by simp)).eq_of_length (by simp)
        have hab := List.append_cancel_left hsame
        cases hab
        rw [ha, hb] at hhead
        exact absurd rfl hhead
      · rw [← heq] at hend'
        exact absurd hend' (htakes hprefix)
    · rcases hys with ⟨b, hb, _, hprefix'⟩ | ⟨hnot', _⟩
      · rw [heq] at hend
        exact absurd hend (htakes hprefix')
      · exact ⟨hnot, hnot'⟩
  · intro h
    rcases exists_common xs ys with ⟨common, xs', ys', rfl, rfl, hpart⟩
    rcases hpart with hhead | ⟨rfl, rfl⟩
    · unfold longest
      by_cases hcommon : Fits common
      · rcases h common xs' ys' rfl rfl hhead hcommon with ⟨hnot, hnot'⟩
        have hstart : Fits ([] ++ common) := hcommon
        rw [growFrom_append hclosed hstart, growFrom_append hclosed hstart, List.nil_append]
        have hxs := @growFrom_cases α Fits _ common xs'
        have hys := @growFrom_cases α Fits _ common ys'
        rcases hxs with ⟨a, ha, hfits, _⟩ | ⟨_, hend⟩
        · exact absurd hfits (hnot a ha)
        · rcases hys with ⟨b, hb, hfits, _⟩ | ⟨_, hend'⟩
          · exact absurd hfits (hnot' b hb)
          · rw [hend, hend']
      · rw [growFrom_append_of_not hnil hcommon, growFrom_append_of_not hnil hcommon]
    · rfl

/--
Leaving some elements out changes the longest fitting prefix exactly if there is room where
the first of them stands: for itself, or for what follows once it is left out.
-/
theorem longest_eq_filter_iff (hclosed : IsClosed Fits) (hnil : Fits []) {p : α -> Bool}
    {before after : List α} {b : α} (hbefore : forall a, a ∈ before -> p a = true)
    (hb : p b = false) :
    longest Fits (before ++ b :: after) = longest Fits ((before ++ b :: after).filter p) <->
      ¬(Fits before ∧ (Fits (before ++ [b]) ∨
        exists c, (after.filter p).head? = some c ∧ Fits (before ++ [c]))) := by
  have hfilter : (before ++ b :: after).filter p = before ++ after.filter p := by
    rw [List.filter_append, List.filter_eq_self.mpr hbefore, List.filter_cons_of_neg]
    rw [hb]
    exact Bool.false_ne_true
  rw [hfilter]
  unfold longest
  by_cases hfits : Fits before
  · have hstart : Fits ([] ++ before) := hfits
    rw [growFrom_append hclosed hstart, growFrom_append hclosed hstart, List.nil_append]
    have hkept := @growFrom_cases α Fits _ before (after.filter p)
    rcases @growFrom_cases α Fits _ before (b :: after) with ⟨b', hb', hroom, hprefix⟩ | ⟨hnot, hend⟩
    · cases hb'
      -- the first prefix has the element that the second list has lost
      refine iff_of_false ?_ (not_not_intro ⟨hfits, Or.inl hroom⟩)
      intro heq
      have hmem : b ∈ growFrom Fits before (after.filter p) := by
        rw [← heq]
        exact hprefix.subset (by simp)
      rcases List.mem_append.mp ((growFrom_within before (after.filter p)).subset hmem)
        with hb' | hb'
      · rw [hbefore b hb'] at hb
        cases hb
      · rw [(List.mem_filter.mp hb').right] at hb
        cases hb
    · rw [hend]
      rcases hkept with ⟨c, hc, hroom, hprefix⟩ | ⟨hnone, hend'⟩
      · refine iff_of_false ?_ (not_not_intro ⟨hfits, Or.inr ⟨c, hc, hroom⟩⟩)
        intro heq
        have hlength := hprefix.length_le
        rw [← heq, List.length_append, List.length_singleton] at hlength
        omega
      · refine iff_of_true hend'.symm ?_
        rintro ⟨_, hroom | ⟨c, hc, hroom⟩⟩
        · exact hnot b rfl hroom
        · exact hnone c hc hroom
  · have hover : ¬Fits ([] ++ before) := hfits
    rw [growFrom_append_of_not hnil hover, growFrom_append_of_not hnil hover]
    exact iff_of_true rfl (fun h => hfits h.left)

end FittingPrefixes
end ConversationService
