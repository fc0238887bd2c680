import Mathlib.Data.List.Basic

/-!
# Scans that take spans

A list is scanned from left to right. At a place the scan may take a span: the item that is
there, some items behind it, and one more that ends it; it then goes on behind the span.
Two scans agree exactly when they take the same at every place where one of them looks.
-/

namespace ConversationService
namespace SpanScan

variable {α κ : Type}

/-- The place of the first item, and how many items there are before the last one. -/
structure Span (κ : Type) where
  start : Nat
  kind : κ
  inner : Nat
deriving DecidableEq, Repr

/-- The place of the last item. -/
def Span.stop (s : Span κ) : Nat := s.start + s.inner + 1

/-- The spans behind the first `skipped` items, which are in a span already. -/
def scanFrom (look : α -> List α -> Option (κ × Nat)) : Nat -> Nat -> List α -> List (Span κ)
  | _, _, [] => []
  | skipped + 1, i, _ :: rest => scanFrom look skipped (i + 1) rest
  | 0, i, a :: rest =>
      match look a rest with
      | some (kind, n) => ⟨i, kind, n⟩ :: scanFrom look (n + 1) (i + 1) rest
      | none => scanFrom look 0 (i + 1) rest

def scan (look : α -> List α -> Option (κ × Nat)) (l : List α) : List (Span κ) :=
  scanFrom look 0 0 l

/-- The items at which the scan looks, with what is behind them: those outside the spans. -/
def placesFrom (look : α -> List α -> Option (κ × Nat)) : Nat -> List α -> List (α × List α)
  | _, [] => []
  | skipped + 1, _ :: rest => placesFrom look skipped rest
  | 0, a :: rest =>
      (a, rest) ::
        (match look a rest with
        | some (_, n) => placesFrom look (n + 1) rest
        | none => placesFrom look 0 rest)

def places (look : α -> List α -> Option (κ × Nat)) (l : List α) : List (α × List α) :=
  placesFrom look 0 l

variable {look look' : α -> List α -> Option (κ × Nat)}

theorem scanFrom_skipped (k i : Nat) (l : List α) :
    scanFrom look k i l = scanFrom look 0 (i + k) (l.drop k) := by
  induction l generalizing k i with
  | nil => rw [List.drop_nil]; rfl
  | cons a rest ih =>
      cases k with
      | zero => rfl
      | succ k =>
          rw [scanFrom, ih, List.drop_succ_cons, Nat.add_assoc, Nat.add_comm 1 k]

theorem scanFrom_some {i : Nat} {a : α} {rest : List α} {kind : κ} {n : Nat}
    (h : look a rest = some (kind, n)) :
    scanFrom look 0 i (a :: rest) = ⟨i, kind, n⟩ :: scanFrom look (n + 1) (i + 1) rest := by
  rw [scanFrom, h]

theorem scanFrom_none {i : Nat} {a : α} {rest : List α} (h : look a rest = none) :
    scanFrom look 0 i (a :: rest) = scanFrom look 0 (i + 1) rest := by
  rw [scanFrom, h]

/-!
# Where the spans are
-/

theorem start_ge {k i : Nat} {l : List α} {s : Span κ} (hs : s ∈ scanFrom look k i l) :
    i + k ≤ s.start := by
  induction l generalizing k i with
  | nil => cases hs
  | cons a rest ih =>
      cases k with
      | succ k =>
          have h := ih hs
          omega
      | zero =>
          cases hlook : look a rest with
          | none =>
              rw [scanFrom_none hlook] at hs
              have h := ih hs
              omega
          | some found =>
              rw [scanFrom_some hlook] at hs
              rcases List.mem_cons.mp hs with rfl | hs
              · exact Nat.le_refl i
              · have h := ih hs
                omega

theorem taken_at {k i : Nat} {l : List α} {s : Span κ} (hs : s ∈ scanFrom look k i l) :
    exists a rest, l.drop (s.start - i) = a :: rest ∧ look a rest = some (s.kind, s.inner) := by
  induction l generalizing k i with
  | nil => cases hs
  | cons a rest ih =>
      have hlater : forall {k}, s ∈ scanFrom look k (i + 1) rest ->
          exists b rest', (a :: rest).drop (s.start - i) = b :: rest' ∧
            look b rest' = some (s.kind, s.inner) := by
        intro k hs
        have hge := start_ge hs
        rcases ih hs with ⟨b, rest', hdrop, hlook⟩
        refine ⟨b, rest', ?_, hlook⟩
        rw [show s.start - i = (s.start - (i + 1)) + 1 by omega]
        exact hdrop
      cases k with
      | succ k => exact hlater hs
      | zero =>
          cases hlook : look a rest with
          | none =>
              rw [scanFrom_none hlook] at hs
              exact hlater hs
          | some found =>
              rw [scanFrom_some hlook] at hs
              rcases List.mem_cons.mp hs with rfl | hs
              · refine ⟨a, rest, ?_, hlook⟩
                rw [Nat.sub_self]
                rfl
              · exact hlater hs

theorem scan_ordered (k i : Nat) (l : List α) :
    (scanFrom look k i l).Pairwise (fun s t => s.stop < t.start) := by
  induction l generalizing k i with
  | nil => exact List.Pairwise.nil
  | cons a rest ih =>
      cases k with
      | succ k => exact ih k (i + 1)
      | zero =>
          cases hlook : look a rest with
          | none =>
              rw [scanFrom_none hlook]
              exact ih 0 (i + 1)
          | some found =>
              rw [scanFrom_some hlook]
              refine List.Pairwise.cons ?_ (ih _ _)
              intro t ht
              have h := start_ge ht
              unfold Span.stop
              dsimp only
              omega

/-!
# Two scans
-/

/-- What is taken at a place is seen in the first span of the scan from there. -/
theorem look_eq_of_scan (look : α -> List α -> Option (κ × Nat)) (i : Nat) (a : α)
    (rest : List α) :
    look a rest =
      ((scanFrom look 0 i (a :: rest)).head?.filter (fun s => s.start == i)).map
        (fun s => (s.kind, s.inner)) := by
  cases hlook : look a rest with
  | some found =>
      rw [scanFrom_some hlook, List.head?_cons, Option.filter_some, beq_self_eq_true]
      rfl
  | none =>
      rw [scanFrom_none hlook]
      cases hscan : scanFrom look 0 (i + 1) rest with
      | nil => rfl
      | cons s more =>
          have hs : s ∈ scanFrom look 0 (i + 1) rest := by
            rw [hscan]
            exact List.mem_cons_self
          have hge := start_ge hs
          have hne : (s.start == i) = false := beq_false_of_ne (by omega)
          rw [List.head?_cons, Option.filter_some, hne]
          rfl

/-- Two scans agree when they take the same wherever the second one looks. -/
theorem scanFrom_eq_iff (k i : Nat) (l : List α) :
    scanFrom look k i l = scanFrom look' k i l <->
      forall p, p ∈ placesFrom look' k l -> look p.1 p.2 = look' p.1 p.2 := by
  induction l generalizing k i with
  | nil =>
      constructor
      · intro _ p hp
        cases hp
      · intro _
        rfl
  | cons a rest ih =>
      cases k with
      | succ k => exact ih k (i + 1)
      | zero =>
          rw [placesFrom, List.forall_mem_cons]
          constructor
          · intro h
            have hhere : look a rest = look' a rest := by
              rw [look_eq_of_scan look i, h, ← look_eq_of_scan look' i]
            refine ⟨hhere, ?_⟩
            cases hlook : look' a rest with
            | none =>
                rw [scanFrom_none (hhere.trans hlook), scanFrom_none hlook] at h
                exact (ih 0 (i + 1)).mp h
            | some found =>
                rw [scanFrom_some (hhere.trans hlook), scanFrom_some hlook] at h
                exact (ih (found.2 + 1) (i + 1)).mp (List.cons.inj h).right
          · rintro ⟨hhere, hrest⟩
            dsimp only at hhere
            cases hlook : look' a rest with
            | none =>
                rw [hlook] at hrest
                rw [scanFrom_none (hhere.trans hlook), scanFrom_none hlook]
                exact (ih 0 (i + 1)).mpr hrest
            | some found =>
                rw [hlook] at hrest
                rw [scanFrom_some (hhere.trans hlook), scanFrom_some hlook,
                  (ih (found.2 + 1) (i + 1)).mpr hrest]

theorem scan_eq_iff (l : List α) :
    scan look l = scan look' l <->
      forall p, p ∈ places look' l -> look p.1 p.2 = look' p.1 p.2 :=
  scanFrom_eq_iff 0 0 l

end SpanScan
end ConversationService
