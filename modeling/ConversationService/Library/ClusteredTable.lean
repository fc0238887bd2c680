import Mathlib.Order.Defs.LinearOrder
import Mathlib.Data.List.Sort

/-!
# Clustered partitions

A partition of a clustered table keeps one row for each key, in descending key
order. Writes are upserts: the new row is computed from the old one, if any, and
reads scan from the newest key down.
-/

namespace ConversationService
namespace ClusteredTable

variable {κ ρ : Type} [LinearOrder κ]

/-- The rows of one partition, newest key first, every key at most once. -/
structure Partition (κ ρ : Type) [LinearOrder κ] where
  rows : List (κ × ρ)
  sorted : rows.Pairwise (fun a b => b.1 < a.1)

/-- Put the row computed by `f` under key `k`, keeping the order. -/
def upsertRows (k : κ) (f : Option ρ -> ρ) : List (κ × ρ) -> List (κ × ρ)
  | [] => [(k, f none)]
  | (k', r) :: rest =>
      if k = k' then (k, f (some r)) :: rest
      else if k' < k then (k, f none) :: (k', r) :: rest
      else (k', r) :: upsertRows k f rest

theorem mem_upsertRows {k : κ} {f : Option ρ -> ρ} {rows : List (κ × ρ)}
    {a : κ × ρ} (h : a ∈ upsertRows k f rows) : a.1 = k ∨ a ∈ rows := by
  induction rows with
  | nil =>
      left
      simp [upsertRows] at h
      rw [h]
  | cons head rest ih =>
      rcases head with ⟨k', r⟩
      unfold upsertRows at h
      split at h
      · rcases List.mem_cons.mp h with rfl | hrest
        · exact Or.inl rfl
        · exact Or.inr (List.mem_cons_of_mem _ hrest)
      · split at h
        · rcases List.mem_cons.mp h with rfl | hrest
          · exact Or.inl rfl
          · exact Or.inr hrest
        · rcases List.mem_cons.mp h with rfl | hrest
          · exact Or.inr (by simp)
          · cases ih hrest with
            | inl hk => exact Or.inl hk
            | inr hmem => exact Or.inr (List.mem_cons_of_mem _ hmem)

theorem sorted_upsertRows (k : κ) (f : Option ρ -> ρ) {rows : List (κ × ρ)}
    (h : rows.Pairwise (fun a b => b.1 < a.1)) :
    (upsertRows k f rows).Pairwise (fun a b => b.1 < a.1) := by
  induction rows with
  | nil => simp [upsertRows]
  | cons head rest ih =>
      rcases head with ⟨k', r⟩
      rcases List.pairwise_cons.mp h with ⟨hhead, hrest⟩
      unfold upsertRows
      split
      · rename_i hk
        subst hk
        exact List.pairwise_cons.mpr ⟨hhead, hrest⟩
      · rename_i hne
        split
        · rename_i hlt
          refine List.pairwise_cons.mpr ⟨?_, h⟩
          intro b hb
          rcases List.mem_cons.mp hb with rfl | hmem
          · exact hlt
          · exact lt_trans (hhead b hmem) hlt
        · rename_i hnlt
          refine List.pairwise_cons.mpr ⟨?_, ih hrest⟩
          intro b hb
          cases mem_upsertRows hb with
          | inl hbk =>
              rw [hbk]
              exact lt_of_le_of_ne (not_lt.mp hnlt) hne
          | inr hmem => exact hhead b hmem

/-- The row of a key in a list of rows. -/
def findRow (k : κ) : List (κ × ρ) -> Option ρ
  | [] => none
  | (k', r) :: rest => if k = k' then some r else findRow k rest

theorem findRow_upsertRows_self (k : κ) (f : Option ρ -> ρ)
    {rows : List (κ × ρ)} (h : rows.Pairwise (fun a b => b.1 < a.1)) :
    findRow k (upsertRows k f rows) = some (f (findRow k rows)) := by
  induction rows with
  | nil => simp [upsertRows, findRow]
  | cons head rest ih =>
      rcases head with ⟨k', r⟩
      rcases List.pairwise_cons.mp h with ⟨hhead, hrest⟩
      by_cases hk : k = k'
      · simp [upsertRows, findRow, hk]
      · by_cases hlt : k' < k
        · -- all further keys are below `k`, so `k` has no row yet
          have hnone : findRow k rest = none := by
            have hbelow : forall b, b ∈ rest -> b.1 < k :=
              fun b hb => lt_trans (hhead b hb) hlt
            clear ih h hhead hrest
            induction rest with
            | nil => rfl
            | cons b rest ih =>
                have hb : k ≠ b.1 :=
                  ne_of_gt (hbelow b (by simp))
                simp only [findRow, hb, if_false]
                exact ih (fun c hc => hbelow c (List.mem_cons_of_mem _ hc))
          simp [upsertRows, findRow, hk, hlt, hnone]
        · simp [upsertRows, findRow, hk, hlt, ih hrest]

theorem findRow_upsertRows_ne {j k : κ} (hjk : j ≠ k) (f : Option ρ -> ρ)
    (rows : List (κ × ρ)) :
    findRow j (upsertRows k f rows) = findRow j rows := by
  induction rows with
  | nil => simp [upsertRows, findRow, hjk]
  | cons head rest ih =>
      rcases head with ⟨k', r⟩
      by_cases hk : k = k'
      · subst hk
        simp [upsertRows, findRow, hjk]
      · by_cases hlt : k' < k
        · simp [upsertRows, findRow, hk, hlt, hjk]
        · simp only [upsertRows, hk, hlt, if_false, findRow, ih]

theorem findRow_eq_some_iff {k : κ} {r : ρ} {rows : List (κ × ρ)}
    (h : rows.Pairwise (fun a b => b.1 < a.1)) :
    findRow k rows = some r <-> (k, r) ∈ rows := by
  induction rows with
  | nil => simp [findRow]
  | cons head rest ih =>
      rcases head with ⟨k', r'⟩
      rcases List.pairwise_cons.mp h with ⟨hhead, hrest⟩
      by_cases hk : k = k'
      · subst hk
        simp only [findRow, if_true, Option.some.injEq, List.mem_cons,
          Prod.mk.injEq, true_and]
        constructor
        · intro hr
          exact Or.inl hr.symm
        · intro hmem
          cases hmem with
          | inl hr => exact hr.symm
          | inr hin => exact absurd (hhead _ hin) (lt_irrefl _)
      · simp [findRow, hk, ih hrest]

theorem eq_of_mem_iff {α : Type} (key : α -> κ) {xs ys : List α}
    (hxs : xs.Pairwise (fun a b => key b < key a))
    (hys : ys.Pairwise (fun a b => key b < key a))
    (h : forall a, a ∈ xs <-> a ∈ ys) : xs = ys := by
  have hantisymm : Std.Antisymm (fun a b : α => key b < key a) :=
    ⟨fun _ _ hab hba => absurd hba (lt_asymm hab)⟩
  have hirrefl : Std.Irrefl (fun a b : α => key b < key a) :=
    ⟨fun _ => lt_irrefl _⟩
  exact hxs.eq_of_mem_iff hys h

theorem mem_take_of_sublist {α : Type} {xs ys : List α} (h : xs.Sublist ys)
    (hys : ys.Nodup) {n : Nat} {a : α} (ha : a ∈ xs) (htake : a ∈ ys.take n) :
    a ∈ xs.take n := by
  induction h generalizing n with
  | slnil => cases ha
  | @cons xs ys b hsub ih =>
      rcases List.nodup_cons.mp hys with ⟨hb, hrest⟩
      cases n with
      | zero => cases htake
      | succ n =>
          rw [List.take_succ_cons] at htake
          rcases List.mem_cons.mp htake with rfl | hin
          · exact absurd (hsub.subset ha) hb
          · have hshorter := ih hrest ha hin
            exact (List.take_subset_take_left xs (Nat.le_succ n)) hshorter
  | @cons_cons xs ys b hsub ih =>
      rcases List.nodup_cons.mp hys with ⟨hb, hrest⟩
      cases n with
      | zero => cases htake
      | succ n =>
          rw [List.take_succ_cons] at htake ⊢
          rcases List.mem_cons.mp htake with rfl | hin
          · simp
          · rcases List.mem_cons.mp ha with rfl | hmem
            · simp
            · exact List.mem_cons_of_mem _ (ih hrest hmem hin)

namespace Partition

def empty : Partition κ ρ := ⟨[], List.Pairwise.nil⟩

instance : Inhabited (Partition κ ρ) := ⟨empty⟩

/-- The row stored under a key. -/
def get (p : Partition κ ρ) (k : κ) : Option ρ :=
  findRow k p.rows

def upsert (p : Partition κ ρ) (k : κ) (f : Option ρ -> ρ) : Partition κ ρ :=
  ⟨upsertRows k f p.rows, sorted_upsertRows k f p.sorted⟩

def erase (p : Partition κ ρ) (k : κ) : Partition κ ρ :=
  ⟨p.rows.filter (fun e => e.1 ≠ k), p.sorted.filter _⟩

@[simp] theorem get_empty (k : κ) : (empty : Partition κ ρ).get k = none := rfl

@[simp] theorem get_upsert_self (p : Partition κ ρ) (k : κ)
    (f : Option ρ -> ρ) : (p.upsert k f).get k = some (f (p.get k)) :=
  findRow_upsertRows_self k f p.sorted

theorem get_upsert_ne (p : Partition κ ρ) {j k : κ} (f : Option ρ -> ρ)
    (hjk : j ≠ k) : (p.upsert k f).get j = p.get j :=
  findRow_upsertRows_ne hjk f p.rows

theorem get_upsert (p : Partition κ ρ) (j k : κ) (f : Option ρ -> ρ) :
    (p.upsert k f).get j = if j = k then some (f (p.get k)) else p.get j := by
  by_cases hjk : j = k
  · subst hjk
    simp
  · rw [if_neg hjk, get_upsert_ne p f hjk]

theorem get_eq_some_iff (p : Partition κ ρ) (k : κ) (r : ρ) :
    p.get k = some r <-> (k, r) ∈ p.rows :=
  findRow_eq_some_iff p.sorted

theorem get_erase (p : Partition κ ρ) (j k : κ) :
    (p.erase k).get j = if j = k then none else p.get j := by
  have hmem : forall r, (p.erase k).get j = some r <-> j ≠ k ∧ p.get j = some r := by
    intro r
    rw [get_eq_some_iff, get_eq_some_iff]
    unfold erase
    rw [List.mem_filter, and_comm]
    simp
  split
  · rename_i hjk
    cases hget : (p.erase k).get j with
    | none => rfl
    | some r => exact absurd hjk ((hmem r).mp hget).left
  · rename_i hjk
    cases hget : p.get j with
    | none =>
        cases herase : (p.erase k).get j with
        | none => rfl
        | some r =>
            rw [((hmem r).mp herase).right] at hget
            cases hget
    | some r => exact (hmem r).mpr ⟨hjk, hget⟩

/-- An `UPDATE` that may touch every row of the partition. -/
def mapRows (p : Partition κ ρ) (f : κ -> ρ -> ρ) : Partition κ ρ :=
  ⟨p.rows.map (fun e => (e.1, f e.1 e.2)), p.sorted.map _ (fun _ _ h => h)⟩

theorem get_mapRows (p : Partition κ ρ) (f : κ -> ρ -> ρ) (k : κ) :
    (p.mapRows f).get k = (p.get k).map (f k) := by
  have hfind : forall rows : List (κ × ρ),
      findRow k (rows.map (fun e => (e.1, f e.1 e.2))) = (findRow k rows).map (f k) := by
    intro rows
    induction rows with
    | nil => rfl
    | cons head rest ih =>
        by_cases hk : k = head.1
        · subst hk
          simp [findRow]
        · simp [findRow, hk, ih]
  exact hfind p.rows

/-- A `DELETE` that may touch every row of the partition. -/
def filterRows (p : Partition κ ρ) (keep : κ -> ρ -> Bool) : Partition κ ρ :=
  ⟨p.rows.filter (fun e => keep e.1 e.2), p.sorted.filter _⟩

theorem get_filterRows (p : Partition κ ρ) (keep : κ -> ρ -> Bool) (k : κ) :
    (p.filterRows keep).get k = (p.get k).filter (keep k) := by
  have hmem : forall r, (p.filterRows keep).get k = some r <->
      (p.get k).filter (keep k) = some r := by
    intro r
    rw [get_eq_some_iff, Option.filter_eq_some_iff, get_eq_some_iff]
    exact List.mem_filter
  exact Option.ext hmem

theorem mem_take_of_lt (p : Partition κ ρ) {n : Nat} {a b : κ × ρ} (ha : a ∈ p.rows)
    (hb : b ∈ p.rows.take n) (hlt : b.1 < a.1) : a ∈ p.rows.take n := by
  have hgen : forall {rows : List (κ × ρ)} {n : Nat},
      rows.Pairwise (fun a b => b.1 < a.1) -> a ∈ rows -> b ∈ rows.take n ->
      a ∈ rows.take n := by
    intro rows
    induction rows with
    | nil =>
        intro n _ ha _
        cases ha
    | cons head rest ih =>
        intro n hsorted ha hb
        rcases List.pairwise_cons.mp hsorted with ⟨hhead, hrest⟩
        cases n with
        | zero => cases hb
        | succ n =>
            rw [List.take_succ_cons] at hb ⊢
            rcases List.mem_cons.mp ha with rfl | hin
            · simp
            · rcases List.mem_cons.mp hb with rfl | hbin
              · exact absurd (hhead a hin) (not_lt_of_gt hlt)
              · exact List.mem_cons_of_mem _ (ih hrest hin hbin)
  exact hgen p.sorted ha hb

theorem nodup_rows (p : Partition κ ρ) : p.rows.Nodup := by
  apply p.sorted.imp
  intro a b hlt heq
  rw [heq] at hlt
  exact lt_irrefl _ hlt

/-- More rows push rows out of a scan, and none into it. -/
theorem mem_take_of_subset {p q : Partition κ ρ} (h : forall a, a ∈ p.rows -> a ∈ q.rows)
    {n : Nat} {a : κ × ρ} (ha : a ∈ p.rows) (htake : a ∈ q.rows.take n) :
    a ∈ p.rows.take n := by
  have hantisymm : Std.Antisymm (fun a b : κ × ρ => b.1 < a.1) :=
    ⟨fun _ _ hab hba => absurd hba (lt_asymm hab)⟩
  have hsub : p.rows.Sublist q.rows :=
    List.sublist_of_subperm_of_pairwise (List.subperm_of_subset p.nodup_rows h)
      p.sorted q.sorted
  exact mem_take_of_sublist hsub q.nodup_rows ha htake

end Partition

end ClusteredTable
end ConversationService
