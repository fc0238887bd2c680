import Mathlib.Data.List.DropRight
import ConversationService.Python.Text

/-!
# Stripped strings

A string is its own strip when it neither starts nor ends with a blank. A piece cut off
the front of a stripped string can only go wrong at its end.
-/

namespace ConversationService
namespace Python

/-- The string ends with a character that `strip` removes. -/
def EndsInBlank (s : Text) : Prop :=
  exists c, s.getLast? = some c ∧ isSpace c = true

instance (s : Text) : Decidable (EndsInBlank s) :=
  match h : s.getLast? with
  | none => isFalse (fun ⟨_, hc, _⟩ => by rw [h] at hc; cases hc)
  | some c =>
      if hc : isSpace c = true then isTrue ⟨c, h, hc⟩
      else isFalse (fun ⟨c', hc', hs⟩ => by
        rw [h] at hc'
        cases hc'
        exact hc hs)

theorem length_strip_le (s : Text) : (strip s).length ≤ s.length :=
  (List.rdropWhile_prefix isSpace (s.dropWhile isSpace)).length_le.trans
    (List.dropWhile_suffix isSpace).length_le

theorem strip_sublist (s : Text) : List.Sublist (strip s) s :=
  (List.rdropWhile_prefix isSpace (s.dropWhile isSpace)).sublist.trans
    (List.dropWhile_sublist isSpace)

theorem strip_eq (s : Text) : strip s = (s.dropWhile isSpace).rdropWhile isSpace := rfl

theorem not_endsInBlank_strip (s : Text) : ¬EndsInBlank (strip s) := by
  rintro ⟨c, hlast, hspace⟩
  have hne : strip s ≠ [] := by
    intro hnil
    rw [hnil] at hlast
    cases hlast
  have hc : (strip s).getLast hne = c := by
    rw [List.getLast?_eq_getLast_of_ne_nil hne] at hlast
    exact Option.some.inj hlast
  apply List.rdropWhile_last_not isSpace (s.dropWhile isSpace) hne
  rw [← hc] at hspace
  exact hspace

theorem head_prefix_strip {s t : Text} {c : CodePoint} (ht : t <+: strip s)
    (hc : t.head? = some c) : isSpace c = false := by
  have hstart : t <+: s.dropWhile isSpace := ht.trans (List.rdropWhile_prefix _ _)
  have hhead : (s.dropWhile isSpace).head? = some c := by
    rcases hstart with ⟨rest, hrest⟩
    rw [← hrest, List.head?_append, hc]
    rfl
  have hnot := List.head?_dropWhile_not isSpace s
  rw [hhead] at hnot
  simpa using hnot

theorem dropWhile_prefix_strip {s t : Text} (ht : t <+: strip s) :
    t.dropWhile isSpace = t := by
  cases t with
  | nil => rfl
  | cons c rest =>
      rw [List.dropWhile_cons_of_neg]
      rw [head_prefix_strip ht rfl]
      exact Bool.false_ne_true

theorem strip_prefix_ne_nil {s t : Text} (ht : t <+: strip s) (hne : t ≠ []) :
    strip t ≠ [] := by
  rw [strip_eq, dropWhile_prefix_strip ht, Ne, List.rdropWhile_eq_nil_iff]
  intro hall
  cases t with
  | nil => exact hne rfl
  | cons c rest =>
      have hhead := head_prefix_strip ht rfl
      rw [hall c List.mem_cons_self] at hhead
      cases hhead

theorem strip_prefix_iff {s t : Text} (ht : t <+: strip s) :
    strip t = t <-> ¬EndsInBlank t := by
  constructor
  · intro h
    rw [← h]
    exact not_endsInBlank_strip t
  · intro hblank
    rw [strip_eq, dropWhile_prefix_strip ht, List.rdropWhile_eq_self_iff]
    intro hne hspace
    exact hblank ⟨_, List.getLast?_eq_getLast_of_ne_nil hne, hspace⟩

theorem strip_strip (s : Text) : strip (strip s) = strip s :=
  (strip_prefix_iff (List.prefix_refl _)).mpr (not_endsInBlank_strip s)

/-- A stripped string that is cut ends in a blank when the last character kept is one. -/
theorem endsInBlank_take_iff {s : Text} {n : Nat} :
    EndsInBlank ((strip s).take (n + 1)) <->
      exists c, (strip s)[n]? = some c ∧ isSpace c = true := by
  by_cases hlong : n < (strip s).length
  · have hlast : ((strip s).take (n + 1)).getLast? = (strip s)[n]? := by
      rw [List.getLast?_eq_getElem?, List.length_take, Nat.min_eq_left hlong]
      simp
    unfold EndsInBlank
    rw [hlast]
  · have hall : (strip s).take (n + 1) = strip s :=
      List.take_of_length_le (by omega)
    rw [hall, List.getElem?_eq_none (by omega)]
    constructor
    · intro h
      exact absurd h (not_endsInBlank_strip s)
    · rintro ⟨c, hc, _⟩
      cases hc

end Python
end ConversationService
