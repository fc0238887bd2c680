import Mathlib.Data.List.Forall2
import ConversationService.Python.Uuid

/-!
# Encoded strings

The characters of joined strings and of UUIDs, and the lengths of encoded strings. A
string with characters left out is encoded in at most as many bytes.
-/

namespace ConversationService
namespace Python

/-!
# ASCII strings
-/

theorem utf8Length_of_ascii {s : Text} (h : forall c, c ∈ s -> c.val < 0x80) :
    utf8Length s = some s.length := by
  induction s with
  | nil => rfl
  | cons c rest ih =>
      have hc : c.val < 0x80 := h c (by simp)
      have hrest := ih (fun d hd => h d (List.mem_cons_of_mem _ hd))
      have hsurrogate : isSurrogate c = false := by
        unfold isSurrogate
        have : ¬(0xD800 ≤ c.val) := by omega
        simp [this]
      simp [utf8Length, hsurrogate, hrest, hc]

theorem digitChar_ascii {d : Nat} (h : d < 16) : (digitChar d).val < 0x80 := by
  have hval : (digitChar d).val = if d < 10 then 0x30 + d else 0x57 + d := by
    unfold digitChar
    apply Nat.mod_eq_of_lt
    split <;> omega
  rw [hval]
  split <;> omega

theorem digitsRev_ascii {base fuel n : Nat} (hbase : base ≤ 16) (hpos : 0 < base) :
    forall c, c ∈ digitsRev base fuel n -> c.val < 0x80 := by
  induction fuel generalizing n with
  | zero =>
      intro c hc
      simp [digitsRev] at hc
  | succ fuel ih =>
      intro c hc
      have hdigit : n % base < 16 := lt_of_lt_of_le (Nat.mod_lt n hpos) hbase
      rcases List.mem_cons.mp hc with rfl | hrest
      · exact digitChar_ascii hdigit
      · split at hrest
        · simp at hrest
        · exact ih c hrest

theorem hex_ascii (u : UUID) : forall c, c ∈ u.hex -> c.val < 0x80 := by
  intro c hc
  rcases List.mem_append.mp hc with hzero | hdigit
  · rw [List.eq_of_mem_replicate hzero]
    exact digitChar_ascii (by omega)
  · exact digitsRev_ascii (by omega) (by omega) c (List.mem_reverse.mp hdigit)

theorem join_cons_cons (sep part next : Text) (rest : List Text) :
    join sep (part :: next :: rest) = part ++ sep ++ join sep (next :: rest) := rfl

theorem mem_join {sep : Text} {parts : List Text} {c : CodePoint}
    (h : c ∈ join sep parts) : c ∈ sep ∨ exists part, part ∈ parts ∧ c ∈ part := by
  induction parts with
  | nil => simp [join] at h
  | cons part rest ih =>
      cases rest with
      | nil => exact Or.inr ⟨part, by simp, h⟩
      | cons next rest =>
          rw [join] at h
          · rcases List.mem_append.mp h with hfront | hrest
            · rcases List.mem_append.mp hfront with hpart | hsep
              · exact Or.inr ⟨part, by simp, hpart⟩
              · exact Or.inl hsep
            · rcases ih hrest with hsep | ⟨p, hp, hc⟩
              · exact Or.inl hsep
              · exact Or.inr ⟨p, List.mem_cons_of_mem _ hp, hc⟩
          · simp

theorem ascii_of_all {s : Text} (h : s.all (fun c => decide (c.val < 0x80)) = true) :
    forall c, c ∈ s -> c.val < 0x80 := by
  intro c hc
  simpa using List.all_eq_true.mp h c hc

theorem toText_ascii (u : UUID) : forall c, c ∈ u.toText -> c.val < 0x80 := by
  intro c hc
  rcases mem_join hc with hdash | ⟨part, hpart, hmem⟩
  · exact ascii_of_all (s := text "-") (by decide) c hdash
  · apply hex_ascii u
    simp only [List.mem_cons, List.not_mem_nil, or_false] at hpart
    rcases hpart with rfl | rfl | rfl | rfl | rfl
    · exact List.mem_of_mem_take hmem
    · exact List.mem_of_mem_drop (List.mem_of_mem_take hmem)
    · exact List.mem_of_mem_drop (List.mem_of_mem_take hmem)
    · exact List.mem_of_mem_drop (List.mem_of_mem_take hmem)
    · exact List.mem_of_mem_drop hmem

/-!
# Strings with characters left out
-/

theorem utf8Length_sublist {s t : Text} {n : Nat} (h : List.Sublist s t)
    (ht : utf8Length t = some n) : exists m, utf8Length s = some m ∧ m ≤ n := by
  induction h generalizing n with
  | slnil => exact ⟨n, ht, Nat.le_refl n⟩
  | cons c hrest ih =>
      rw [utf8Length] at ht
      split at ht
      · cases ht
      · rcases Option.map_eq_some_iff.mp ht with ⟨k, hk, rfl⟩
        rcases ih hk with ⟨m, hm, hle⟩
        exact ⟨m, hm, by omega⟩
  | cons_cons c hrest ih =>
      rw [utf8Length] at ht ⊢
      split at ht
      · cases ht
      · rename_i hsurrogate
        rcases Option.map_eq_some_iff.mp ht with ⟨k, hk, rfl⟩
        rcases ih hk with ⟨m, hm, hle⟩
        rw [if_neg hsurrogate, hm]
        exact ⟨_, rfl, Nat.add_le_add_right hle _⟩

theorem join_sublist {sep : Text} {parts parts' : List Text}
    (h : List.SublistForall₂ List.Sublist parts parts') :
    List.Sublist (join sep parts) (join sep parts') := by
  induction h with
  | nil => exact List.nil_sublist _
  | @cons part part' parts parts' hpart hparts ih =>
      cases parts' with
      | nil =>
          cases hparts
          exact hpart
      | cons next' rest' =>
          show List.Sublist _ (part' ++ sep ++ join sep (next' :: rest'))
          cases parts with
          | nil => exact hpart.trans (by simp)
          | cons next rest => exact (hpart.append (List.Sublist.refl sep)).append ih
  | @cons_right part' parts parts' hparts ih =>
      cases parts' with
      | nil =>
          cases hparts
          exact List.nil_sublist _
      | cons next' rest' => exact ih.trans (List.sublist_append_right _ _)

end Python
end ConversationService
