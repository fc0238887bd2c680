import Mathlib.Data.List.Nodup
import Mathlib.Data.List.Infix

/-!
# First occurrences

What `List.eraseDups` keeps of a list, read off from the end of the list.
-/

namespace ConversationService
namespace Distinct

variable {α : Type} [DecidableEq α]

theorem eraseDups_concat (l : List α) (a : α) :
    (l ++ [a]).eraseDups = if a ∈ l then l.eraseDups else l.eraseDups ++ [a] := by
  rw [List.eraseDups_append]
  by_cases ha : a ∈ l
  · simp [ha, List.removeAll]
  · simp [ha, List.removeAll, List.eraseDups_cons]

theorem eraseDups_sublist (l : List α) : List.Sublist l.eraseDups l := by
  induction l using List.reverseRecOn with
  | nil => exact List.Sublist.refl _
  | append_singleton l a ih =>
      rw [eraseDups_concat]
      split
      · exact ih.trans (List.sublist_append_left l [a])
      · exact ih.append_right [a]

theorem nodup_eraseDups (l : List α) : l.eraseDups.Nodup := by
  induction l using List.reverseRecOn with
  | nil => exact List.nodup_nil
  | append_singleton l a ih =>
      rw [eraseDups_concat]
      split
      · exact ih
      · rename_i ha
        rw [List.nodup_append]
        refine ⟨ih, List.nodup_singleton a, ?_⟩
        intro b hb c hc heq
        rw [List.mem_singleton.mp hc] at heq
        rw [heq] at hb
        exact ha (List.mem_eraseDups.mp hb)

theorem eraseDups_of_nodup {l : List α} (h : l.Nodup) : l.eraseDups = l := by
  induction l using List.reverseRecOn with
  | nil => rfl
  | append_singleton l a ih =>
      rcases List.nodup_append.mp h with ⟨hl, _, hdisjoint⟩
      have ha : a ∉ l := fun hmem => hdisjoint a hmem a (List.mem_singleton_self a) rfl
      rw [eraseDups_concat, if_neg ha, ih hl]

theorem eraseDups_filter (p : α -> Bool) (l : List α) :
    (l.filter p).eraseDups = l.eraseDups.filter p := by
  induction l using List.reverseRecOn with
  | nil => rfl
  | append_singleton l a ih =>
      rw [List.filter_append, eraseDups_concat l a]
      cases ha : p a with
      | false =>
          have hnone : [a].filter p = [] := by simp [ha]
          rw [hnone, List.append_nil, ih]
          split
          · rfl
          · rw [List.filter_append, hnone, List.append_nil]
      | true =>
          have hone : [a].filter p = [a] := by simp [ha]
          rw [hone, eraseDups_concat, ih]
          by_cases hmem : a ∈ l
          · rw [if_pos hmem, if_pos (List.mem_filter.mpr ⟨hmem, ha⟩)]
          · rw [if_neg hmem, if_neg (fun h => hmem (List.mem_filter.mp h).left),
              List.filter_append, hone]

end Distinct
end ConversationService
