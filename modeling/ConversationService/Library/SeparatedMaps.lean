import Mathlib.Data.List.Count
import Mathlib.Data.List.DropRight

/-!
# Maps that work between separators

A map on lists that takes every separator by itself and what stands between two separators
by itself. What it leaves as it is then stays so when separators are taken away, put in or
replaced by others that it leaves as they are.
-/

namespace ConversationService
namespace SeparatedMaps

variable {α : Type} {sep sep' : α -> Bool} {f : List α -> List α}

/-- Separators go to separators one by one, and nothing else becomes one. -/
structure Separated (sep : α -> Bool) (f : List α -> List α) : Prop where
  idempotent : forall s, f (f s) = f s
  splits : forall a c b, sep c = true -> f (a ++ c :: b) = f a ++ (f [c] ++ f b)
  separator : forall c, sep c = true -> exists c', f [c] = [c'] ∧ sep c' = true
  words : forall s, (forall c, c ∈ s -> sep c = false) -> forall c, c ∈ f s -> sep c = false

theorem exists_word (sep : α -> Bool) (s : List α) :
    (forall c, c ∈ s -> sep c = false) ∨
      exists w c rest, s = w ++ c :: rest ∧ (forall d, d ∈ w -> sep d = false) ∧ sep c = true := by
  induction s with
  | nil => exact Or.inl (fun c hc => absurd hc List.not_mem_nil)
  | cons a s ih =>
      by_cases ha : sep a = true
      · exact Or.inr ⟨[], a, s, rfl, fun d hd => absurd hd List.not_mem_nil, ha⟩
      · have ha' : sep a = false := (Bool.not_eq_true _).mp ha
        rcases ih with hnone | ⟨w, c, rest, rfl, hw, hc⟩
        · refine Or.inl (fun c hc => ?_)
          rcases List.mem_cons.mp hc with rfl | hrest
          · exact ha'
          · exact hnone c hrest
        · refine Or.inr ⟨a :: w, c, rest, rfl, fun d hd => ?_, hc⟩
          rcases List.mem_cons.mp hd with rfl | hrest
          · exact ha'
          · exact hw d hrest

/-- Induction from one separator to the next. -/
theorem word_induction (sep : α -> Bool) {P : List α -> Prop}
    (word : forall s, (forall c, c ∈ s -> sep c = false) -> P s)
    (step : forall w c rest, (forall d, d ∈ w -> sep d = false) -> sep c = true -> P rest ->
      P (w ++ c :: rest)) (s : List α) : P s := by
  rcases exists_word sep s with hnone | ⟨w, c, rest, hs, hw, hc⟩
  · exact word s hnone
  · have hlt : rest.length < s.length := by
      rw [hs, List.length_append, List.length_cons]
      omega
    rw [hs]
    exact step w c rest hw hc (word_induction sep word step rest)
termination_by s.length

theorem countP_eq_zero_of_word {s : List α} (hs : forall c, c ∈ s -> sep c = false) :
    s.countP sep = 0 := by
  rw [List.countP_eq_zero]
  intro c hc
  rw [hs c hc]
  exact Bool.false_ne_true

theorem countP_map (h : Separated sep f) (s : List α) : (f s).countP sep = s.countP sep := by
  induction s using word_induction sep with
  | word s hs =>
      rw [countP_eq_zero_of_word hs, countP_eq_zero_of_word (h.words s hs)]
  | step w c rest hw hc ih =>
      rcases h.separator c hc with ⟨c', hmap, hc'⟩
      rw [h.splits w c rest hc, hmap, List.countP_append, List.countP_append, List.countP_append,
        List.countP_cons_of_pos hc, ih, countP_eq_zero_of_word hw,
        countP_eq_zero_of_word (h.words w hw), List.countP_cons_of_pos hc', List.countP_nil]
      omega

theorem split_unique {a a' b b' : List α} {c c' : α} (hc : sep c = true) (hc' : sep c' = true)
    (hcount : a.countP sep = a'.countP sep) (heq : a ++ c :: b = a' ++ c' :: b') :
    a = a' ∧ c = c' ∧ b = b' := by
  rcases List.append_eq_append_iff.mp heq with ⟨mid, rfl, hrest⟩ | ⟨mid, rfl, hrest⟩
  · cases mid with
    | nil =>
        rcases List.cons.inj hrest with ⟨rfl, rfl⟩
        exact ⟨(List.append_nil a).symm, rfl, rfl⟩
    | cons d mid =>
        rcases List.cons.inj hrest with ⟨rfl, _⟩
        rw [List.countP_append, List.countP_cons_of_pos hc] at hcount
        omega
  · cases mid with
    | nil =>
        rcases List.cons.inj hrest with ⟨rfl, rfl⟩
        exact ⟨List.append_nil a', rfl, rfl⟩
    | cons d mid =>
        rcases List.cons.inj hrest with ⟨rfl, _⟩
        rw [List.countP_append, List.countP_cons_of_pos hc'] at hcount
        omega

theorem fixed_append_iff (h : Separated sep f) {a b : List α} {c : α} (hc : sep c = true) :
    f (a ++ c :: b) = a ++ c :: b <-> f a = a ∧ f [c] = [c] ∧ f b = b := by
  rcases h.separator c hc with ⟨c', hmap, hc'⟩
  rw [h.splits a c b hc, hmap]
  constructor
  · intro heq
    rcases split_unique hc' hc (countP_map h a) heq with ⟨ha, rfl, hb⟩
    exact ⟨ha, rfl, hb⟩
  · rintro ⟨ha, hcc, hb⟩
    rw [ha, hb, List.cons.inj hcc |>.left]
    rfl

theorem map_nil (h : Separated sep f) {c : α} (hc : sep c = true) : f [] = [] := by
  rcases h.separator c hc with ⟨c', hmap, _⟩
  have hsplit := h.splits [] c [] hc
  rw [List.nil_append, hmap] at hsplit
  have hlength := congrArg List.length hsplit
  simp only [List.length_append, List.length_cons, List.length_nil] at hlength
  exact List.eq_nil_of_length_eq_zero (by omega)

theorem fixed_tail (h : Separated sep f) {b : List α} {c : α} (hc : sep c = true)
    (hfixed : f (c :: b) = c :: b) : f b = b :=
  ((fixed_append_iff (a := []) h hc).mp hfixed).right.right

theorem fixed_front (h : Separated sep f) {a : List α} {c : α} (hc : sep c = true)
    (hfixed : f (a ++ [c]) = a ++ [c]) : f a = a :=
  ((fixed_append_iff h hc).mp hfixed).left

theorem fixed_dropWhile (h : Separated sep f) {p : α -> Bool}
    (hp : forall c, p c = true -> sep c = true) {s : List α} (hfixed : f s = s) :
    f (s.dropWhile p) = s.dropWhile p := by
  induction s with
  | nil => exact hfixed
  | cons c s ih =>
      rw [List.dropWhile_cons]
      split
      · rename_i hc
        exact ih (fixed_tail h (hp c hc) hfixed)
      · exact hfixed

theorem fixed_rdropWhile (h : Separated sep f) {p : α -> Bool}
    (hp : forall c, p c = true -> sep c = true) {s : List α} (hfixed : f s = s) :
    f (s.rdropWhile p) = s.rdropWhile p := by
  induction s using List.reverseRecOn with
  | nil => exact hfixed
  | append_singleton s c ih =>
      by_cases hc : p c = true
      · rw [List.rdropWhile_concat_pos _ _ _ hc]
        exact ih (fixed_front h (hp c hc) hfixed)
      · rw [List.rdropWhile_concat_neg _ _ _ hc]
        exact hfixed

/-- Fewer separators, when the map keeps these and no others become them. -/
theorem separated_fewer (h : Separated sep f) (hsub : forall c, sep' c = true -> sep c = true)
    (hkeep : forall c c', sep c = true -> f [c] = [c'] -> sep' c' = sep' c) :
    Separated sep' f := by
  refine ⟨h.idempotent, fun a c b hc => h.splits a c b (hsub c hc), ?_, ?_⟩
  · intro c hc
    rcases h.separator c (hsub c hc) with ⟨c', hmap, _⟩
    exact ⟨c', hmap, (hkeep c c' (hsub c hc) hmap).trans hc⟩
  · have hword : forall {c}, sep c = false -> sep' c = false := by
      intro c hc
      rw [← Bool.not_eq_true] at hc ⊢
      exact fun hc' => hc (hsub c hc')
    intro s
    induction s using word_induction sep with
    | word s hs => exact fun _ c hc => hword (h.words s hs c hc)
    | step w c rest hw hc ih =>
        intro hfree d hd
        rcases h.separator c hc with ⟨c', hmap, _⟩
        rw [h.splits w c rest hc, hmap] at hd
        rcases List.mem_append.mp hd with hd | hd
        · exact hword (h.words w hw d hd)
        · rcases List.mem_append.mp hd with hd | hd
          · rw [List.mem_singleton.mp hd, hkeep c c' hc hmap]
            exact hfree c (List.mem_append_right _ List.mem_cons_self)
          · exact ih (fun e he => hfree e (List.mem_append_right _ (List.mem_cons_of_mem c he))) d
              hd

end SeparatedMaps
end ConversationService
