import Mathlib.Logic.Function.Basic
import Mathlib.Data.List.Nodup

/-!
# Writes to a keyed table

A list of writes to a table with at most one row for each key, one after the other. A write
makes a new row of the old one, if there is one, and of what it carries. When no two writes
have the same key, each of them finds the row that was there at the start; and when a
write that is repeated changes nothing, neither does a repetition of any part of the list.
-/

namespace ConversationService
namespace KeyedWrites

variable {κ ν ω : Type} [DecidableEq κ] (put : Option ν -> ω -> ν)

/-- One write. -/
def write (table : κ -> Option ν) (entry : κ × ω) : κ -> Option ν :=
  Function.update table entry.1 (some (put (table entry.1) entry.2))

/-- The writes of a list, in its order. -/
def writeAll (table : κ -> Option ν) (entries : List (κ × ω)) : κ -> Option ν :=
  entries.foldl (write put) table

@[simp] theorem writeAll_nil (table : κ -> Option ν) : writeAll put table [] = table := rfl

@[simp] theorem writeAll_cons (table : κ -> Option ν) (entry : κ × ω)
    (entries : List (κ × ω)) :
    writeAll put table (entry :: entries) = writeAll put (write put table entry) entries := rfl

theorem writeAll_append (table : κ -> Option ν) (entries more : List (κ × ω)) :
    writeAll put table (entries ++ more) = writeAll put (writeAll put table entries) more :=
  List.foldl_append

theorem writeAll_of_notMem {table : κ -> Option ν} {entries : List (κ × ω)} {k : κ}
    (h : k ∉ entries.map Prod.fst) : writeAll put table entries k = table k := by
  induction entries generalizing table with
  | nil => rfl
  | cons entry rest ih =>
      rw [List.map_cons, List.mem_cons, not_or] at h
      rw [writeAll_cons, ih h.right]
      exact Function.update_of_ne h.left _ _

theorem writeAll_of_mem {table : κ -> Option ν} {entries : List (κ × ω)}
    (hnodup : (entries.map Prod.fst).Nodup) {k : κ} {w : ω} (h : (k, w) ∈ entries) :
    writeAll put table entries k = some (put (table k) w) := by
  induction entries generalizing table with
  | nil => exact absurd h List.not_mem_nil
  | cons entry rest ih =>
      rw [List.map_cons, List.nodup_cons] at hnodup
      rw [writeAll_cons]
      rcases List.mem_cons.mp h with heq | hrest
      · subst heq
        rw [writeAll_of_notMem put hnodup.left]
        exact Function.update_self _ _ _
      · have hne : k ≠ entry.1 := by
          rintro rfl
          exact hnodup.left (List.mem_map.mpr ⟨_, hrest, rfl⟩)
        rw [ih hnodup.right hrest]
        show some (put (Function.update table entry.1 _ k) w) = _
        rw [Function.update_of_ne hne]

variable {put}

/-- Some of the writes can come once more beforehand. -/
theorem writeAll_absorbs (hagain : forall old w, put (some (put old w)) w = put old w)
    {table : κ -> Option ν} {entries early : List (κ × ω)}
    (hnodup : (entries.map Prod.fst).Nodup) (hsub : List.Sublist early entries) :
    writeAll put (writeAll put table early) entries = writeAll put table entries := by
  have hnodup' : (early.map Prod.fst).Nodup := hnodup.sublist (hsub.map Prod.fst)
  funext k
  by_cases hk : k ∈ entries.map Prod.fst
  · rcases List.mem_map.mp hk with ⟨⟨k', w⟩, hmem, hkey⟩
    change k' = k at hkey
    subst hkey
    rw [writeAll_of_mem put hnodup hmem, writeAll_of_mem put hnodup hmem]
    by_cases hk' : k' ∈ early.map Prod.fst
    · rcases List.mem_map.mp hk' with ⟨⟨k'', w'⟩, hmem', hkey'⟩
      change k'' = k' at hkey'
      subst hkey'
      have hw : w' = w := by
        have hinj := List.inj_on_of_nodup_map hnodup (hsub.subset hmem') hmem rfl
        exact congrArg Prod.snd hinj
      subst hw
      rw [writeAll_of_mem put hnodup' hmem', hagain]
    · rw [writeAll_of_notMem put hk']
  · have hk' : k ∉ early.map Prod.fst := fun h => hk ((hsub.map Prod.fst).subset h)
    rw [writeAll_of_notMem put hk, writeAll_of_notMem put hk', writeAll_of_notMem put hk]

end KeyedWrites
end ConversationService
