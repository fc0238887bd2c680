import Mathlib.Logic.Relation
import Mathlib.Data.Set.Insert

/-!
# Consumers of a partitioned log

A consumer is handed the records of each partition in order and lets a handler work on
them. A commit stores, for every partition, the position after the last record handed
out; a consumer that is started again continues from there. Nothing else links the
committed positions with the records that were handled, so that a commit after a
handler has raised skips the record it raised on.
-/

namespace ConversationService
namespace LogConsumer

variable {π ρ σ : Type}

/-- What a handler may do with a record in a world. -/
structure Handler (ρ σ : Type) where
  returns : ρ -> σ -> σ -> Prop
  raises : ρ -> σ -> σ -> Prop
  /-- the consumer stops in the middle of the handler -/
  stops : ρ -> σ -> σ -> Prop
  /-- what others do in the meantime -/
  moves : σ -> σ -> Prop

/-- `handled` keeps the records on which the handler has returned, in any session. -/
structure State (π σ : Type) where
  world : σ
  committed : π -> Nat
  position : π -> Nat
  /-- a handler has raised since the consumer was started -/
  raised : Bool
  handled : Set (π × Nat)

/-- The consumer is started, at the positions committed last. -/
def State.restarted (st : State π σ) : State π σ :=
  { st with position := st.committed, raised := false }

/-- A consumer that has been handed nothing. -/
def fresh (world : σ) : State π σ :=
  { world := world
    committed := fun _ => 0
    position := fun _ => 0
    raised := false
    handled := ∅ }

/-- Every record below a committed position was handled. -/
def AtLeastOnce (st : State π σ) : Prop :=
  forall p n, n < st.committed p -> (p, n) ∈ st.handled

/-- While no handler has raised, also every record handed out was handled. -/
structure Accounted (st : State π σ) : Prop where
  committed : AtLeastOnce st
  position : st.raised = false -> forall p n, n < st.position p -> (p, n) ∈ st.handled

theorem accounted_fresh (world : σ) : Accounted (fresh world : State π σ) := by
  constructor
  · intro p n hn
    exact absurd hn (Nat.not_lt_zero n)
  · intro _ p n hn
    exact absurd hn (Nat.not_lt_zero n)

theorem Accounted.restarted {st : State π σ} (h : Accounted st) :
    Accounted st.restarted :=
  ⟨h.committed, fun _ => h.committed⟩

section Runs

variable [DecidableEq π]

/-- The positions after the next record of a partition has been handed out. -/
def State.advanced (st : State π σ) (p : π) : π -> Nat :=
  Function.update st.position p (st.position p + 1)

/-- `log` holds, for each partition, all the records that are ever written to it. -/
inductive Step (log : π -> List ρ) (H : Handler ρ σ) (mayCommit : State π σ -> Prop) :
    State π σ -> State π σ -> Prop where
  | commit (st : State π σ) (p : π) (r : ρ) (t : σ) :
      (log p)[st.position p]? = some r -> H.returns r st.world t -> mayCommit st ->
      Step log H mayCommit st
        { st with
          world := t
          committed := st.advanced p
          position := st.advanced p
          handled := insert (p, st.position p) st.handled }
  | commitRaises (st : State π σ) (p : π) (r : ρ) (t : σ) :
      (log p)[st.position p]? = some r -> H.returns r st.world t ->
      Step log H mayCommit st
        { st with
          world := t
          position := st.advanced p
          handled := insert (p, st.position p) st.handled }
  | raise (st : State π σ) (p : π) (r : ρ) (t : σ) :
      (log p)[st.position p]? = some r -> H.raises r st.world t ->
      Step log H mayCommit st
        { st with world := t, position := st.advanced p, raised := true }
  | stop (st : State π σ) (p : π) (r : ρ) (t : σ) :
      (log p)[st.position p]? = some r -> H.stops r st.world t ->
      Step log H mayCommit st ({ st with world := t } : State π σ).restarted
  | restart (st : State π σ) : Step log H mayCommit st st.restarted
  | move (st : State π σ) (t : σ) :
      H.moves st.world t -> Step log H mayCommit st { st with world := t }

def Runs (log : π -> List ρ) (H : Handler ρ σ) (mayCommit : State π σ -> Prop) :
    State π σ -> State π σ -> Prop :=
  Relation.ReflTransGen (Step log H mayCommit)

variable {log : π -> List ρ} {H : Handler ρ σ}

theorem mem_handled_advanced {st : State π σ} (p : π)
    (h : forall q n, n < st.position q -> (q, n) ∈ st.handled) {q : π} {n : Nat}
    (hn : n < st.advanced p q) : (q, n) ∈ insert (p, st.position p) st.handled := by
  unfold State.advanced at hn
  by_cases hq : q = p
  · subst hq
    rw [Function.update_self] at hn
    rcases Nat.lt_succ_iff_lt_or_eq.mp hn with hlt | heq
    · exact Set.mem_insert_of_mem _ (h q n hlt)
    · rw [heq]
      exact Set.mem_insert _ _
  · rw [Function.update_of_ne hq] at hn
    exact Set.mem_insert_of_mem _ (h q n hn)

theorem accounted_step {st st' : State π σ}
    (hstep : Step log H (fun st => st.raised = false) st st') (h : Accounted st) :
    Accounted st' := by
  cases hstep with
  | commit p r t _ _ hclean =>
      have hall : forall q n, n < st.advanced p q ->
          (q, n) ∈ insert (p, st.position p) st.handled :=
        fun q n hn => mem_handled_advanced p (h.position hclean) hn
      exact ⟨hall, fun _ => hall⟩
  | commitRaises p r t _ _ =>
      constructor
      · intro q n hn
        exact Set.mem_insert_of_mem _ (h.committed q n hn)
      · intro hclean q n hn
        exact mem_handled_advanced p (h.position hclean) hn
  | raise p r t _ _ =>
      constructor
      · exact h.committed
      · intro hclean
        cases hclean
  | stop p r t _ _ => exact ⟨h.committed, fun _ => h.committed⟩
  | restart => exact h.restarted
  | move t _ => exact ⟨h.committed, h.position⟩

/-- If no commit follows a handler that raised in the same session, no record is lost. -/
theorem accounted_runs {st st' : State π σ}
    (hrun : Runs log H (fun st => st.raised = false) st st') (h : Accounted st) :
    Accounted st' := by
  induction hrun with
  | refl => exact h
  | tail _ hstep ih => exact accounted_step hstep ih

end Runs

end LogConsumer
end ConversationService
