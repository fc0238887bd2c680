import Mathlib.Data.List.TakeWhile

/-!
# Backtracking expressions

Regular expressions with groups, back-references, tests of the neighbouring characters, and
greedy and lazy repetitions of one character, as a backtracking engine matches them: an
expression is matched in front of what has to follow it, and of several ways to match it the
first one counts for which the rest succeeds.

Where what follows cannot begin with a character of the class, a greedy repetition has to
take the whole run of them; a lazy one stops at the first place where the rest succeeds.
-/

namespace ConversationService
namespace Backtracking

variable {α β : Type}

inductive Pattern (α : Type) where
  | char (p : α -> Bool)
  | seq (r s : Pattern α)
  | alt (r s : Pattern α)
  /-- at least `min` and at most `max` characters of a class -/
  | many (p : α -> Bool) (min : Nat) (max : Option Nat) (greedy : Bool)
  | group (n : Nat) (r : Pattern α)
  | again (n : Nat)
  /-- a test of the character before, and of the one behind -/
  | behind (q : Option α -> Bool)
  | ahead (q : Option α -> Bool)

/-- A place in a text, with the groups that have been matched. -/
structure Cursor (α : Type) where
  prev : Option α
  pos : Nat
  rest : List α
  groups : Nat -> Option (List α)

namespace Cursor

/-- The place behind some characters. -/
def skip (c : Cursor α) (taken rest : List α) : Cursor α :=
  { c with
    prev := taken.getLast?.or c.prev
    pos := c.pos + taken.length
    rest := rest }

def capture (c : Cursor α) (n : Nat) (taken : List α) : Cursor α :=
  { c with groups := fun m => if m = n then some taken else c.groups m }

@[simp] theorem skip_nil (c : Cursor α) : c.skip [] c.rest = c := by
  cases c
  rfl

@[simp] theorem skip_pos (c : Cursor α) (taken rest : List α) :
    (c.skip taken rest).pos = c.pos + taken.length := rfl

@[simp] theorem skip_rest (c : Cursor α) (taken rest : List α) :
    (c.skip taken rest).rest = rest := rfl

@[simp] theorem skip_groups (c : Cursor α) (taken rest : List α) :
    (c.skip taken rest).groups = c.groups := rfl

@[simp] theorem skip_skip (c : Cursor α) (taken taken' rest rest' : List α) :
    (c.skip taken rest).skip taken' rest' = c.skip (taken ++ taken') rest' := by
  cases c
  simp [skip, Nat.add_assoc, List.getLast?_append, Option.or_assoc]

theorem capture_skip (c : Cursor α) (n : Nat) (group taken rest : List α) :
    (c.skip taken rest).capture n group = (c.capture n group).skip taken rest := rfl

end Cursor

/-!
# Matching
-/

/-- The repetition, for a text that is left; `here` is to stop at this place. -/
def runMany (p : α -> Bool) (greedy : Bool) (k : Cursor α -> Option β)
    (groups : Nat -> Option (List α)) :
    Nat -> Option Nat -> Option α -> Nat -> List α -> Option β
  | min, _, prev, pos, [] => if min = 0 then k ⟨prev, pos, [], groups⟩ else none
  | min, max, prev, pos, a :: rest =>
      let here := if min = 0 then k ⟨prev, pos, a :: rest, groups⟩ else none
      let more :=
        if p a && max != some 0 then
          runMany p greedy k groups (min - 1) (max.map (fun m => m - 1)) (some a) (pos + 1) rest
        else none
      if greedy then more.or here else here.or more

/-- Match an expression at a place, in front of what has to follow. -/
def run [DecidableEq α] : Pattern α -> Cursor α -> (Cursor α -> Option β) -> Option β
  | .char p, c, k =>
      match c.rest with
      | a :: rest => if p a then k (c.skip [a] rest) else none
      | [] => none
  | .seq r s, c, k => run r c (fun d => run s d k)
  | .alt r s, c, k => (run r c k).or (run s c k)
  | .many p min max greedy, c, k => runMany p greedy k c.groups min max c.prev c.pos c.rest
  | .group n r, c, k =>
      run r c (fun d => k (d.capture n (c.rest.take (c.rest.length - d.rest.length))))
  | .again n, c, k =>
      match c.groups n with
      | some taken =>
          if taken.isPrefixOf c.rest then k (c.skip taken (c.rest.drop taken.length)) else none
      | none => none
  | .behind q, c, k => if q c.prev then k c else none
  | .ahead q, c, k => if q c.rest.head? then k c else none

/-- A match: where it starts, and the place behind it. -/
structure Found (α : Type) where
  start : Nat
  stop : Cursor α

def noGroups : Nat -> Option (List α) := fun _ => none

/-- The match at a place. -/
def matchAt [DecidableEq α] (r : Pattern α) (prev : Option α) (pos : Nat) (rest : List α) :
    Option (Found α) :=
  (run r ⟨prev, pos, rest, noGroups⟩ some).map (fun d => ⟨pos, d⟩)

/--
The matches in a text from left to right, behind the first `skipped` characters; the search
goes on behind a match, and after an empty one with the next character.
-/
def findFrom [DecidableEq α] (r : Pattern α) :
    Nat -> Option α -> Nat -> List α -> List (Found α)
  | _, prev, pos, [] => (matchAt r prev pos []).toList
  | skipped + 1, _, pos, a :: rest => findFrom r skipped (some a) (pos + 1) rest
  | 0, prev, pos, a :: rest =>
      match matchAt r prev pos (a :: rest) with
      | some found =>
          found :: findFrom r (found.stop.pos - pos - 1) (some a) (pos + 1) rest
      | none => findFrom r 0 (some a) (pos + 1) rest

def find [DecidableEq α] (r : Pattern α) (s : List α) : List (Found α) :=
  findFrom r 0 none 0 s

/-!
# Greedy repetitions
-/

/-- With these groups, the rest fails where a character of the class is next. -/
def FailsOn (p : α -> Bool) (groups : Nat -> Option (List α)) (k : Cursor α -> Option β) : Prop :=
  forall c : Cursor α, c.groups = groups -> c.rest.head?.any p = true -> k c = none

/-- The length of a run is allowed. -/
def allowed (min : Nat) (max : Option Nat) (n : Nat) : Prop :=
  min ≤ n ∧ forall m, max = some m -> n ≤ m

theorem allowed_zero {min : Nat} {max : Option Nat} : allowed min max 0 <-> min = 0 := by
  unfold allowed
  constructor
  · intro h
    exact Nat.le_zero.mp h.left
  · rintro rfl
    exact ⟨Nat.le_refl 0, fun _ _ => Nat.zero_le _⟩

theorem allowed_succ {min n : Nat} {max : Option Nat} :
    allowed min max (n + 1) <->
      max ≠ some 0 ∧ allowed (min - 1) (max.map (fun m => m - 1)) n := by
  unfold allowed
  cases max with
  | none =>
      simp only [reduceCtorEq, false_implies, implies_true, and_true, Option.map_none, ne_eq,
        not_false_eq_true, true_and]
      omega
  | some m =>
      simp only [Option.some_inj, forall_eq', Option.map_some, ne_eq]
      omega

instance (min : Nat) (max : Option Nat) (n : Nat) : Decidable (allowed min max n) :=
  match max with
  | none => decidable_of_iff (min ≤ n) (by simp [allowed])
  | some m => decidable_of_iff (min ≤ n ∧ n ≤ m) (by simp [allowed])

theorem runMany_greedy {p : α -> Bool} {k : Cursor α -> Option β}
    {groups : Nat -> Option (List α)} (hk : FailsOn p groups k) (min : Nat) (max : Option Nat)
    (prev : Option α) (pos : Nat) (rest : List α) :
    runMany p true k groups min max prev pos rest =
      if allowed min max (rest.takeWhile p).length then
        k ((⟨prev, pos, rest, groups⟩ : Cursor α).skip (rest.takeWhile p) (rest.dropWhile p))
      else none := by
  induction rest generalizing min max prev pos with
  | nil =>
      unfold runMany
      simp only [List.takeWhile_nil, List.length_nil, allowed_zero, List.dropWhile_nil]
      rfl
  | cons a rest ih =>
      unfold runMany
      cases ha : p a with
      | false =>
          rw [List.takeWhile_cons_of_neg (by rw [ha]; exact Bool.false_ne_true),
            List.dropWhile_cons_of_neg (by rw [ha]; exact Bool.false_ne_true)]
          simp only [List.length_nil, allowed_zero, Bool.false_and, Bool.false_eq_true, if_false,
            if_true, Option.none_or]
          rfl
      | true =>
          have hhere : k ⟨prev, pos, a :: rest, groups⟩ = none := hk _ rfl (by simp [ha])
          have hskip : (⟨prev, pos, a :: rest, groups⟩ : Cursor α).skip (a :: rest.takeWhile p)
              (rest.dropWhile p) =
              (⟨some a, pos + 1, rest, groups⟩ : Cursor α).skip (rest.takeWhile p)
                (rest.dropWhile p) := by
            exact (Cursor.skip_skip ⟨prev, pos, a :: rest, groups⟩ [a] _ rest _).symm
          rw [List.takeWhile_cons_of_pos ha, List.dropWhile_cons_of_pos ha, hskip, hhere]
          simp only [List.length_cons, allowed_succ, Bool.true_and, if_true, ite_self,
            Option.or_none, bne_iff_ne, ih]
          by_cases hmax : max = some 0
          · simp [hmax]
          · simp [hmax]

/-!
# Rules for the steps
-/

section Rules

variable [DecidableEq α]

@[simp] theorem run_seq (r s : Pattern α) (c : Cursor α) (k : Cursor α -> Option β) :
    run (.seq r s) c k = run r c (fun d => run s d k) := rfl

@[simp] theorem run_alt (r s : Pattern α) (c : Cursor α) (k : Cursor α -> Option β) :
    run (.alt r s) c k = (run r c k).or (run s c k) := rfl

@[simp] theorem run_behind (q : Option α -> Bool) (c : Cursor α) (k : Cursor α -> Option β) :
    run (.behind q) c k = if q c.prev then k c else none := rfl

@[simp] theorem run_ahead (q : Option α -> Bool) (c : Cursor α) (k : Cursor α -> Option β) :
    run (.ahead q) c k = if q c.rest.head? then k c else none := rfl

theorem run_group (n : Nat) (r : Pattern α) (c : Cursor α) (k : Cursor α -> Option β) :
    run (.group n r) c k =
      run r c (fun d => k (d.capture n (c.rest.take (c.rest.length - d.rest.length)))) := rfl

theorem run_char_cons (p : α -> Bool) {c : Cursor α} {a : α} {rest : List α}
    (h : c.rest = a :: rest) (k : Cursor α -> Option β) :
    run (.char p) c k = if p a then k (c.skip [a] rest) else none := by
  unfold run
  rw [h]

theorem run_char_nil (p : α -> Bool) {c : Cursor α} (h : c.rest = [])
    (k : Cursor α -> Option β) : run (.char p) c k = none := by
  unfold run
  rw [h]

theorem run_again {n : Nat} {c : Cursor α} {taken : List α} (h : c.groups n = some taken)
    (k : Cursor α -> Option β) :
    run (.again n) c k =
      if taken.isPrefixOf c.rest then k (c.skip taken (c.rest.drop taken.length)) else none := by
  unfold run
  rw [h]

theorem run_many_greedy {p : α -> Bool} {k : Cursor α -> Option β} {c : Cursor α}
    (hk : FailsOn p c.groups k) (min : Nat) (max : Option Nat) :
    run (.many p min max true) c k =
      if allowed min max (c.rest.takeWhile p).length then
        k (c.skip (c.rest.takeWhile p) (c.rest.dropWhile p))
      else none :=
  runMany_greedy hk min max c.prev c.pos c.rest

theorem run_many_none {p : α -> Bool} {c : Cursor α} (h : c.rest.head?.any p = false)
    (max : Option Nat) (greedy : Bool) (k : Cursor α -> Option β) :
    run (.many p 0 max greedy) c k = k c := by
  rcases c with ⟨prev, pos, rest, groups⟩
  show runMany _ _ _ _ _ _ _ _ _ = _
  cases rest with
  | nil => rw [runMany, if_pos rfl]
  | cons a rest =>
      have ha : p a = false := h
      rw [runMany, ha, Bool.false_and, if_neg Bool.false_ne_true, if_pos rfl, Option.none_or,
        Option.or_none, ite_self]

/-- A lazy repetition of anything stops here, or it takes one more character. -/
theorem run_many_lazy (k : Cursor α -> Option β) (c : Cursor α) :
    run (.many (fun _ => true) 0 none false) c k =
      (k c).or
        (match c.rest with
        | [] => none
        | a :: rest => run (.many (fun _ => true) 0 none false) (c.skip [a] rest) k) := by
  rcases c with ⟨prev, pos, rest, groups⟩
  cases rest with
  | nil =>
      show runMany _ _ _ _ _ _ _ _ _ = _
      unfold runMany
      simp
  | cons a rest =>
      show runMany _ _ _ _ _ _ _ _ _ = _
      rw [runMany]
      simp only [if_true, Bool.true_and, Option.map_none, Bool.false_eq_true, if_false]
      rfl

theorem run_many_lazy_skip {k : Cursor α -> Option β} {c : Cursor α} {taken rest : List α}
    (hrest : c.rest = taken ++ rest)
    (hfails : forall before after, taken = before ++ after -> after ≠ [] ->
      k (c.skip before (after ++ rest)) = none) :
    run (.many (fun _ => true) 0 none false) c k =
      run (.many (fun _ => true) 0 none false) (c.skip taken rest) k := by
  induction taken generalizing c with
  | nil =>
      have hc : c.skip [] rest = c := by
        rw [← List.nil_append rest, ← hrest]
        exact Cursor.skip_nil c
      rw [hc]
  | cons a taken ih =>
      have hhere : k c = none := by
        have h := hfails [] (a :: taken) rfl (List.cons_ne_nil a taken)
        rw [← hrest, Cursor.skip_nil] at h
        exact h
      rw [run_many_lazy, hhere, Option.none_or, hrest, List.cons_append]
      dsimp only
      rw [ih rfl, Cursor.skip_skip]
      · rfl
      · intro before after htaken hafter
        rw [Cursor.skip_skip]
        exact hfails (a :: before) after (by rw [htaken]; rfl) hafter

/-!
# Searching
-/

theorem findFrom_skipped (r : Pattern α) (taken rest : List α) (prev : Option α) (pos : Nat) :
    findFrom r taken.length prev pos (taken ++ rest) =
      findFrom r 0 (taken.getLast?.or prev) (pos + taken.length) rest := by
  induction taken generalizing prev pos with
  | nil => rfl
  | cons a taken ih =>
      rw [List.length_cons, List.cons_append, findFrom, ih, List.getLast?_cons]
      have hprev : (some (taken.getLast?.getD a)).or prev = taken.getLast?.or (some a) := by
        cases taken.getLast? <;> rfl
      rw [hprev]
      congr 1
      omega

theorem findFrom_pass (r : Pattern α) {taken rest : List α} {prev : Option α} {pos : Nat}
    (hnone : forall before after, taken = before ++ after -> after ≠ [] ->
      matchAt r (before.getLast?.or prev) (pos + before.length) (after ++ rest) = none) :
    findFrom r 0 prev pos (taken ++ rest) =
      findFrom r 0 (taken.getLast?.or prev) (pos + taken.length) rest := by
  induction taken generalizing prev pos with
  | nil => rfl
  | cons a taken ih =>
      have hhere := hnone [] (a :: taken) rfl (List.cons_ne_nil a taken)
      rw [List.getLast?_nil, Option.none_or, List.length_nil, Nat.add_zero, List.cons_append]
        at hhere
      have hprev : forall before : List α, (before.getLast?.or (some a)) =
          ((a :: before).getLast?.or prev) := by
        intro before
        rw [List.getLast?_cons]
        cases before.getLast? <;> rfl
      rw [List.cons_append, findFrom, hhere]
      dsimp only
      rw [ih, hprev, List.length_cons]
      · congr 1
        omega
      · intro before after htaken hafter
        have h := hnone (a :: before) after (by rw [htaken]; rfl) hafter
        rw [hprev]
        rw [List.length_cons] at h
        rw [show pos + 1 + before.length = pos + (before.length + 1) by omega]
        exact h

theorem findFrom_found (r : Pattern α) {prev : Option α} {pos : Nat} {taken rest : List α}
    {found : Found α} (h : matchAt r prev pos (taken ++ rest) = some found) (hne : taken ≠ [])
    (hstop : found.stop.pos = pos + taken.length) :
    findFrom r 0 prev pos (taken ++ rest) =
      found :: findFrom r 0 (taken.getLast?.or prev) (pos + taken.length) rest := by
  cases taken with
  | nil => exact absurd rfl hne
  | cons a taken =>
      rw [List.cons_append] at h
      have hskip : found.stop.pos - pos - 1 = taken.length := by
        rw [hstop, List.length_cons]
        omega
      have hprev : (taken.getLast?.or (some a)) = ((a :: taken).getLast?.or prev) := by
        rw [List.getLast?_cons]
        cases taken.getLast? <;> rfl
      rw [List.cons_append, findFrom, h]
      dsimp only
      rw [hskip, findFrom_skipped, hprev, List.length_cons, Nat.add_assoc, Nat.add_comm 1]

end Rules

end Backtracking
end ConversationService
