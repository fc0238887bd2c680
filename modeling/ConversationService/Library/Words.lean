import Mathlib.Data.List.Basic

/-!
# Words of a list

A list over an alphabet with blanks falls into words, the longest pieces without a blank.
What comes of putting words together is empty or more than blanks.
-/

namespace ConversationService
namespace Words

variable {χ : Type} {blank : χ -> Bool}

/-- A word that is complete, unless nothing has come together. -/
def ended (word : List χ) : List (List χ) :=
  if word.isEmpty then [] else [word]

/-- The words of a list, the first of which goes on with `word`. -/
def wordsFrom (blank : χ -> Bool) : List χ -> List χ -> List (List χ)
  | word, [] => ended word
  | word, c :: rest =>
      if blank c then ended word ++ wordsFrom blank [] rest
      else wordsFrom blank (word ++ [c]) rest

def words (blank : χ -> Bool) (s : List χ) : List (List χ) :=
  wordsFrom blank [] s

/-- The words with `sep` between them. -/
def unwords (sep : χ) (ws : List (List χ)) : List χ :=
  [sep].intercalate ws

/-- A list that is a word. -/
structure IsWord (blank : χ -> Bool) (word : List χ) : Prop where
  nonempty : word ≠ []
  solid : forall c, c ∈ word -> blank c = false

theorem isWord_of_mem_ended {word w : List χ} (hword : forall c, c ∈ word -> blank c = false)
    (hw : w ∈ ended word) : IsWord blank w := by
  unfold ended at hw
  split at hw
  · cases hw
  · rename_i hne
    rw [List.mem_singleton.mp hw]
    exact ⟨by simpa using hne, hword⟩

theorem isWord_of_mem {word s w : List χ} (hword : forall c, c ∈ word -> blank c = false)
    (hw : w ∈ wordsFrom blank word s) : IsWord blank w := by
  induction s generalizing word with
  | nil => exact isWord_of_mem_ended hword hw
  | cons c rest ih =>
      rw [wordsFrom] at hw
      split at hw
      · rcases List.mem_append.mp hw with hfirst | hrest
        · exact isWord_of_mem_ended hword hfirst
        · exact ih (List.forall_mem_nil _) hrest
      · rename_i hc
        refine ih ?_ hw
        intro d hd
        rcases List.mem_append.mp hd with hold | hnew
        · exact hword d hold
        · rw [List.mem_singleton.mp hnew]
          exact Bool.not_eq_true _ ▸ hc

theorem isWord_of_mem_words {s w : List χ} (hw : w ∈ words blank s) : IsWord blank w :=
  isWord_of_mem (List.forall_mem_nil _) hw

theorem unwords_ne_nil {sep : χ} {ws : List (List χ)}
    (hws : forall w, w ∈ ws -> IsWord blank w) (h : unwords sep ws ≠ []) :
    exists c, c ∈ unwords sep ws ∧ blank c = false := by
  cases ws with
  | nil => exact absurd rfl h
  | cons w rest =>
      have hw := hws w List.mem_cons_self
      rcases List.exists_mem_of_ne_nil w hw.nonempty with ⟨c, hc⟩
      refine ⟨c, ?_, hw.solid c hc⟩
      unfold unwords
      cases rest with
      | nil =>
          rw [List.intercalate_singleton]
          exact hc
      | cons next rest =>
          rw [List.intercalate_cons_cons, List.append_assoc]
          exact List.mem_append_left _ hc

end Words
end ConversationService
