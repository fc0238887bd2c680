import Mathlib.Data.List.DropRight

/-!
# Trimmed lists

A list trimmed at its end depends on what is behind its last kept element by nothing, so that
trimming before a cut makes no difference to trimming after it.
-/

namespace ConversationService
namespace Trimming

variable {α : Type} {p : α -> Bool}

theorem rdropWhile_append_of_forall {back : List α} (front : List α)
    (h : forall x, x ∈ back -> p x = true) :
    (front ++ back).rdropWhile p = front.rdropWhile p := by
  unfold List.rdropWhile
  rw [List.reverse_append,
    List.dropWhile_append_of_pos (fun x hx => h x (List.mem_reverse.mp hx))]

theorem rdropWhile_append_of_ne_nil {back : List α} (front : List α)
    (h : back.rdropWhile p ≠ []) :
    (front ++ back).rdropWhile p = front ++ back.rdropWhile p := by
  have hkept : back.reverse.dropWhile p ≠ [] := by
    intro hnil
    apply h
    unfold List.rdropWhile
    rw [hnil]
    rfl
  unfold List.rdropWhile
  rw [List.reverse_append, List.dropWhile_append, if_neg, List.reverse_append,
    List.reverse_reverse]
  rw [List.isEmpty_iff]
  exact hkept

theorem exists_trimmed (p : α -> Bool) (l : List α) :
    exists back, l = l.rdropWhile p ++ back ∧ forall x, x ∈ back -> p x = true := by
  refine ⟨l.rtakeWhile p, List.rdropWhile_append_rtakeWhile.symm, ?_⟩
  intro x hx
  exact List.mem_rtakeWhile_imp hx

theorem exists_last {l : List α} (h : l.rdropWhile p ≠ []) :
    exists front x, l.rdropWhile p = front ++ [x] ∧ p x = false := by
  refine ⟨(l.rdropWhile p).dropLast, (l.rdropWhile p).getLast h,
    (List.dropLast_append_getLast h).symm, ?_⟩
  have hlast := List.rdropWhile_last_not p l h
  rwa [Bool.not_eq_true] at hlast

/-- A list that is trimmed, cut and trimmed again need not be trimmed before. -/
theorem rdropWhile_take_rdropWhile (p : α -> Bool) (n : Nat) (l : List α) :
    ((l.rdropWhile p).take n).rdropWhile p = (l.take n).rdropWhile p := by
  rcases exists_trimmed p l with ⟨back, hl, hback⟩
  have hcut : l.take n =
      (l.rdropWhile p).take n ++ back.take (n - (l.rdropWhile p).length) := by
    conv_lhs => rw [hl]
    rw [List.take_append]
  rw [hcut, rdropWhile_append_of_forall _ (fun x hx => hback x (List.mem_of_mem_take hx))]

theorem infix_dropWhile {w l : List α} {x : α} (hw : x :: w <:+: l) (hx : p x = false) :
    x :: w <:+: l.dropWhile p := by
  rcases hw with ⟨front, back, rfl⟩
  have hstays : (x :: w ++ back).dropWhile p = x :: w ++ back := by
    rw [List.cons_append, List.dropWhile_cons_of_neg]
    rw [hx]
    exact Bool.false_ne_true
  rw [List.append_assoc, List.dropWhile_append]
  split
  · rw [hstays]
    exact (List.prefix_append _ _).isInfix
  · rw [← List.append_assoc]
    exact List.infix_append _ _ _

theorem infix_rdropWhile {w l : List α} {x : α} (hw : w ++ [x] <:+: l) (hx : p x = false) :
    w ++ [x] <:+: l.rdropWhile p := by
  have hreverse : x :: w.reverse <:+: l.reverse := by
    rw [← List.reverse_infix, List.reverse_append, List.reverse_singleton] at hw
    exact hw
  rw [← List.reverse_infix, List.reverse_append, List.reverse_singleton]
  unfold List.rdropWhile
  rw [List.reverse_reverse]
  exact infix_dropWhile hreverse hx

end Trimming
end ConversationService
