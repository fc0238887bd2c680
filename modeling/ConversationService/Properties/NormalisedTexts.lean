import ConversationService.Library.SeparatedMaps
import ConversationService.Model.Fingerprint
import ConversationService.Python.Strip

/-!
# Normalised texts

What is known of NFC, and what follows for texts whose white space is cut, collapsed or
replaced, and for texts that are read line by line.
-/

namespace ConversationService
namespace Fingerprint

open Python SeparatedMaps

/--
What is known of `unicodedata.normalize("NFC", _)`. A space is a starter that composes with
nothing, so that a text is normalised from space to space; there are no other decompositions
of spaces than those of two special spaces, and none into spaces.
-/
structure IsNormalisation (nfc : Text -> Text) : Prop where
  separated : SeparatedMaps.Separated isSpace nfc
  ascii : forall c : CodePoint, c.val < 0x80 -> nfc [c] = [c]
  spaces : forall c c' : CodePoint, isSpace c = true -> nfc [c] = [c'] -> c'.val < 0x80 -> c' = c
  nonempty : forall s, nfc s = [] -> s = []

theorem isNormalisation_id : IsNormalisation (fun s => s) where
  separated := ⟨fun _ => rfl, fun _ _ _ _ => rfl, fun c hc => ⟨c, rfl, hc⟩, fun _ hs => hs⟩
  ascii := fun _ _ => rfl
  spaces := fun _ _ _ heq _ => (List.cons.inj heq).left.symm
  nonempty := fun _ hs => hs

section Spaces

variable {nfc : Text -> Text}

theorem isSpace_blank : isSpace 0x20 = true := by decide

theorem fixed_strip (h : IsNormalisation nfc) {s : Text} (hs : nfc s = s) :
    nfc (strip s) = strip s := by
  rw [strip_eq]
  apply fixed_rdropWhile h.separated (fun _ hc => hc)
  exact fixed_dropWhile h.separated (fun _ hc => hc) hs

theorem fixed_collapseFrom (h : IsNormalisation nfc) {w s : Text} {space : Bool}
    (hw : space = true -> w = []) (hs : nfc (w ++ s) = w ++ s) :
    nfc (w ++ collapseFrom space s) = w ++ collapseFrom space s := by
  induction s generalizing w space with
  | nil => exact hs
  | cons c rest ih =>
      by_cases hc : isSpace c = true
      · rcases (fixed_append_iff h.separated hc).mp hs with ⟨hfront, _, hrest⟩
        have htail : nfc (collapseFrom true rest) = collapseFrom true rest :=
          ih (w := []) (fun _ => rfl) hrest
        rw [collapseFrom, if_pos hc]
        cases space with
        | true =>
            rw [hw rfl]
            exact htail
        | false =>
            have hblank := h.ascii 0x20 (by decide)
            exact (fixed_append_iff h.separated isSpace_blank).mpr ⟨hfront, hblank, htail⟩
      · rw [collapseFrom, if_neg hc]
        have hmove : forall t : Text, w ++ c :: t = (w ++ [c]) ++ t :=
          fun t => (List.append_assoc w [c] t).symm
        rw [hmove]
        rw [hmove] at hs
        exact ih (fun hfalse => by cases hfalse) hs

theorem length_collapseFrom (space : Bool) (s : Text) :
    (collapseFrom space s).length ≤ s.length := by
  induction s generalizing space with
  | nil => exact Nat.le_refl 0
  | cons c rest ih =>
      have htrue := ih true
      have hfalse := ih false
      rw [collapseFrom]
      split
      · cases space with
        | true => exact htrue.trans (Nat.le_succ _)
        | false => exact Nat.succ_le_succ htrue
      · exact Nat.succ_le_succ hfalse

theorem collapseFrom_append (space : Bool) (s t : Text) :
    exists after, collapseFrom space (s ++ t) = collapseFrom space s ++ collapseFrom after t := by
  induction s generalizing space with
  | nil => exact ⟨space, rfl⟩
  | cons c rest ih =>
      rw [List.cons_append, collapseFrom, collapseFrom]
      split
      · rcases ih true with ⟨after, hafter⟩
        exact ⟨after, by rw [hafter, List.append_assoc]⟩
      · rcases ih false with ⟨after, hafter⟩
        exact ⟨after, by rw [hafter]; rfl⟩

theorem collapseFrom_collapseFrom (space : Bool) (s : Text) :
    collapseFrom space (collapseFrom space s) = collapseFrom space s := by
  induction s generalizing space with
  | nil => rfl
  | cons c rest ih =>
      rw [collapseFrom]
      split
      · cases space with
        | true => exact ih true
        | false =>
            show collapseFrom false (0x20 :: collapseFrom true rest) = _
            rw [collapseFrom, if_pos isSpace_blank, ih true]
      · rename_i hc
        rw [collapseFrom, if_neg hc, ih false]

theorem collapsed_front {space : Bool} {s t : Text}
    (h : collapseFrom space (s ++ t) = s ++ t) : collapseFrom space s = s := by
  rcases collapseFrom_append space s t with ⟨after, hafter⟩
  have hs := length_collapseFrom space s
  have ht := length_collapseFrom after t
  rw [h] at hafter
  have hlength := congrArg List.length hafter
  rw [List.length_append, List.length_append] at hlength
  exact (List.append_inj_left hafter (by omega)).symm

theorem collapsed_tail {c : CodePoint} {s : Text} (hc : isSpace c = true)
    (h : collapseFrom false (c :: s) = c :: s) : collapseFrom false s = s := by
  rw [collapseFrom, if_pos hc] at h
  have htail : collapseFrom true s = s := (List.cons.inj h).right
  cases s with
  | nil => rfl
  | cons d rest =>
      by_cases hd : isSpace d = true
      · rw [collapseFrom, if_pos hd] at htail
        have hle := length_collapseFrom true rest
        have hlength := congrArg List.length htail
        simp only [if_true, List.nil_append, List.length_cons] at hlength
        omega
      · rw [collapseFrom, if_neg hd] at htail ⊢
        exact htail

theorem collapsed_strip {s : Text} (h : collapseFrom false s = s) :
    collapseFrom false (strip s) = strip s := by
  have hfront : collapseFrom false (s.dropWhile isSpace) = s.dropWhile isSpace := by
    induction s with
    | nil => rfl
    | cons c rest ih =>
        rw [List.dropWhile_cons]
        split
        · rename_i hc
          exact ih (collapsed_tail hc h)
        · exact h
  rw [strip_eq]
  rcases List.rdropWhile_prefix isSpace (l := s.dropWhile isSpace) with ⟨tail, htail⟩
  rw [← htail] at hfront
  exact collapsed_front hfront

theorem collapse_normalised (h : IsNormalisation nfc) (s : Text) :
    collapse (nfc (collapse (nfc s))) = collapse (nfc s) := by
  have hfixed : nfc (collapse (nfc s)) = collapse (nfc s) := by
    apply fixed_strip h
    exact fixed_collapseFrom (w := []) h (fun _ => rfl) (h.separated.idempotent s)
  rw [hfixed]
  have hcollapsed : collapseFrom false (collapse (nfc s)) = collapse (nfc s) :=
    collapsed_strip (collapseFrom_collapseFrom false (nfc s))
  show strip (collapseFrom false (collapse (nfc s))) = collapse (nfc s)
  rw [hcollapsed]
  exact strip_strip _

end Spaces

end Fingerprint
end ConversationService
