import Mathlib.Logic.Relation

/-!
# Programs over atomic operations

A handler talks to its stores one operation at a time, and every operation may
raise. This module gives such handlers a syntax, an operational semantics and
two ways of reasoning about a single handler: a weakest precondition that ranges
over every choice of raising operations, and a predicate on all the states that
the handler passes through.
-/

namespace ConversationService
namespace Programs

/-- A signature of atomic operations, with the type of each one's answer. -/
structure Signature where
  Op : Type
  Res : Op -> Type

/--
A program over the operations of `S` that ends with a value or with an
exception. The continuation of an operation receives `none` when the
operation raised and its answer otherwise.
-/
inductive Prog (S : Signature) (ε : Type) (α : Type) where
  | ret (a : α)
  | raise (e : ε)
  | op (o : S.Op) (next : Option (S.Res o) -> Prog S ε α)

/-- What each operation does to a state when it does not raise. -/
structure Machine (S : Signature) (σ : Type) where
  exec : (o : S.Op) -> σ -> S.Res o × σ

variable {S : Signature} {ε σ α β γ : Type}

namespace Prog

def bind : Prog S ε α -> (α -> Prog S ε β) -> Prog S ε β
  | .ret a, f => f a
  | .raise e, _ => .raise e
  | .op o next, f => .op o (fun answer => (next answer).bind f)

/-- Run a handler for the exceptions of a program. -/
def tryCatch : Prog S ε α -> (ε -> Prog S ε α) -> Prog S ε α
  | .ret a, _ => .ret a
  | .raise e, handler => handler e
  | .op o next, handler => .op o (fun answer => (next answer).tryCatch handler)

instance : Monad (Prog S ε) where
  pure := .ret
  bind := bind

/-- Perform one operation, raising `e` when it raises. -/
def perform (e : ε) (o : S.Op) : Prog S ε (S.Res o) :=
  .op o (fun answer =>
    match answer with
    | some r => .ret r
    | none => .raise e)

/-- The finished program with a given outcome. -/
def ofOutcome : Except ε α -> Prog S ε α
  | .ok a => .ret a
  | .error e => .raise e

@[simp] theorem pure_eq_ret (a : α) : (pure a : Prog S ε α) = .ret a := rfl

@[simp] theorem ret_bind (a : α) (f : α -> Prog S ε β) :
    (Prog.ret a >>= f) = f a := rfl

@[simp] theorem raise_bind (e : ε) (f : α -> Prog S ε β) :
    (Prog.raise e >>= f) = .raise e := rfl

@[simp] theorem op_bind (o : S.Op) (next : Option (S.Res o) -> Prog S ε α)
    (f : α -> Prog S ε β) :
    (Prog.op o next >>= f) = .op o (fun answer => next answer >>= f) := rfl

theorem bind_assoc (p : Prog S ε α) (f : α -> Prog S ε β) (g : β -> Prog S ε γ) :
    ((p >>= f) >>= g) = (p >>= fun a => f a >>= g) := by
  induction p with
  | ret a => rfl
  | raise e => rfl
  | op o next ih =>
      rw [op_bind, op_bind, op_bind]
      congr
      funext answer
      exact ih answer

/-!
# Execution

The operational semantics is a small-step relation, so that other steps can be
interleaved with it. The relation is parametrised by the operations that may
raise; an operation that raises has no effect.
-/

inductive Step (M : Machine S σ) (mayFail : S.Op -> Prop) :
    Prog S ε α × σ -> Prog S ε α × σ -> Prop where
  | done (o : S.Op) (next : Option (S.Res o) -> Prog S ε α) (s : σ) :
      Step M mayFail (.op o next, s)
        (next (some (M.exec o s).1), (M.exec o s).2)
  | failed (o : S.Op) (next : Option (S.Res o) -> Prog S ε α) (s : σ) :
      mayFail o -> Step M mayFail (.op o next, s) (next none, s)

def Steps (M : Machine S σ) (mayFail : S.Op -> Prop) :
    Prog S ε α × σ -> Prog S ε α × σ -> Prop :=
  Relation.ReflTransGen (Step M mayFail)

/-- The program run from `s` may end with outcome `r` in state `t`. -/
def Finishes (M : Machine S σ) (mayFail : S.Op -> Prop) (p : Prog S ε α)
    (s : σ) (r : Except ε α) (t : σ) : Prop :=
  Steps M mayFail (p, s) (ofOutcome r, t)

/-- The program run from `s` may pass through state `t`. -/
def Visits (M : Machine S σ) (mayFail : S.Op -> Prop) (p : Prog S ε α)
    (s t : σ) : Prop :=
  exists q, Steps M mayFail (p, s) (q, t)

/-- The run in which exactly the operations selected by `fails` raise. -/
def run (M : Machine S σ) (fails : S.Op -> Bool) :
    Prog S ε α -> σ -> Except ε α × σ
  | .ret a, s => (.ok a, s)
  | .raise e, s => (.error e, s)
  | .op o next, s =>
      match fails o with
      | true => run M fails (next none) s
      | false => run M fails (next (some (M.exec o s).1)) (M.exec o s).2

theorem run_finishes (M : Machine S σ) (fails : S.Op -> Bool)
    (p : Prog S ε α) (s : σ) :
    Finishes M (fun o => fails o = true) p s
      (run M fails p s).1 (run M fails p s).2 := by
  induction p generalizing s with
  | ret a => exact Relation.ReflTransGen.refl
  | raise e => exact Relation.ReflTransGen.refl
  | op o next ih =>
      cases hfails : fails o with
      | true =>
          have hstep : Step M (fun o => fails o = true)
              (.op o next, s) (next none, s) :=
            Step.failed o next s hfails
          simpa [run, hfails, Finishes, Steps] using
            Relation.ReflTransGen.head hstep (ih none s)
      | false =>
          have hstep : Step M (fun o => fails o = true)
              (.op o next, s)
              (next (some (M.exec o s).1), (M.exec o s).2) :=
            Step.done o next s
          simpa [run, hfails, Finishes, Steps] using
            Relation.ReflTransGen.head hstep (ih _ _)

/-!
# Composing executions
-/

section Finishes

variable {M : Machine S σ} {mayFail : S.Op -> Prop}

theorem finishes_ret (a : α) (s : σ) :
    Finishes M mayFail (.ret a : Prog S ε α) s (.ok a) s :=
  Relation.ReflTransGen.refl

theorem step_bind {p q : Prog S ε α} {s t : σ} (f : α -> Prog S ε β)
    (h : Step M mayFail (p, s) (q, t)) : Step M mayFail (p >>= f, s) (q >>= f, t) := by
  cases h with
  | done o next => exact Step.done o (fun answer => next answer >>= f) s
  | failed o next _ hfail => exact Step.failed o (fun answer => next answer >>= f) s hfail

theorem steps_bind {c d : Prog S ε α × σ} (f : α -> Prog S ε β)
    (h : Steps M mayFail c d) : Steps M mayFail (c.1 >>= f, c.2) (d.1 >>= f, d.2) := by
  induction h with
  | refl => exact Relation.ReflTransGen.refl
  | tail _ hstep ih => exact Relation.ReflTransGen.tail ih (step_bind f hstep)

theorem finishes_bind {p : Prog S ε α} {f : α -> Prog S ε β} {s t u : σ} {a : α}
    {r : Except ε β} (hp : Finishes M mayFail p s (.ok a) t)
    (hf : Finishes M mayFail (f a) t r u) : Finishes M mayFail (p >>= f) s r u :=
  Relation.ReflTransGen.trans (steps_bind f hp) hf

theorem finishes_mono {mayFail' : S.Op -> Prop} {p : Prog S ε α} {s t : σ}
    {r : Except ε α} (h : Finishes M mayFail p s r t)
    (hmore : forall o, mayFail o -> mayFail' o) : Finishes M mayFail' p s r t := by
  have hstep : forall c d : Prog S ε α × σ, Step M mayFail c d -> Step M mayFail' c d := by
    intro c d h
    cases h with
    | done o next s => exact Step.done o next s
    | failed o next s hfail => exact Step.failed o next s (hmore o hfail)
  exact Relation.ReflTransGen.mono hstep _ _ h

end Finishes

/-!
# Weakest preconditions

`wp` has one postcondition for values and one for exceptions. It demands them of
every execution, whichever of the permitted operations raise.
-/

def wp (M : Machine S σ) (mayFail : S.Op -> Prop) :
    Prog S ε α -> (α -> σ -> Prop) -> (ε -> σ -> Prop) -> σ -> Prop
  | .ret a, Q, _, s => Q a s
  | .raise e, _, E, s => E e s
  | .op o next, Q, E, s =>
      wp M mayFail (next (some (M.exec o s).1)) Q E (M.exec o s).2 ∧
        (mayFail o -> wp M mayFail (next none) Q E s)

section Wp

variable {M : Machine S σ} {mayFail : S.Op -> Prop}

@[simp] theorem wp_ret (a : α) (Q : α -> σ -> Prop) (E : ε -> σ -> Prop)
    (s : σ) : wp M mayFail (.ret a) Q E s <-> Q a s := Iff.rfl

@[simp] theorem wp_pure (a : α) (Q : α -> σ -> Prop) (E : ε -> σ -> Prop)
    (s : σ) : wp M mayFail (pure a) Q E s <-> Q a s := Iff.rfl

@[simp] theorem wp_raise (e : ε) (Q : α -> σ -> Prop) (E : ε -> σ -> Prop)
    (s : σ) : wp M mayFail (.raise e) Q E s <-> E e s := Iff.rfl

theorem wp_op (o : S.Op) (next : Option (S.Res o) -> Prog S ε α)
    (Q : α -> σ -> Prop) (E : ε -> σ -> Prop) (s : σ) :
    wp M mayFail (.op o next) Q E s <->
      wp M mayFail (next (some (M.exec o s).1)) Q E (M.exec o s).2 ∧
        (mayFail o -> wp M mayFail (next none) Q E s) := Iff.rfl

@[simp] theorem wp_perform (e : ε) (o : S.Op)
    (Q : S.Res o -> σ -> Prop) (E : ε -> σ -> Prop) (s : σ) :
    wp M mayFail (perform e o) Q E s <->
      Q (M.exec o s).1 (M.exec o s).2 ∧ (mayFail o -> E e s) := Iff.rfl

@[simp] theorem wp_bind (p : Prog S ε α) (f : α -> Prog S ε β)
    (Q : β -> σ -> Prop) (E : ε -> σ -> Prop) (s : σ) :
    wp M mayFail (p >>= f) Q E s <->
      wp M mayFail p (fun a t => wp M mayFail (f a) Q E t) E s := by
  induction p generalizing s with
  | ret a => exact Iff.rfl
  | raise e => exact Iff.rfl
  | op o next ih =>
      rw [op_bind, wp_op, wp_op, ih, ih]

@[simp] theorem wp_tryCatch (p : Prog S ε α) (handler : ε -> Prog S ε α)
    (Q : α -> σ -> Prop) (E : ε -> σ -> Prop) (s : σ) :
    wp M mayFail (p.tryCatch handler) Q E s <->
      wp M mayFail p Q (fun e t => wp M mayFail (handler e) Q E t) s := by
  induction p generalizing s with
  | ret a => exact Iff.rfl
  | raise e => exact Iff.rfl
  | op o next ih =>
      rw [tryCatch, wp_op, wp_op, ih, ih]

theorem wp_mono {p : Prog S ε α} {Q Q' : α -> σ -> Prop}
    {E E' : ε -> σ -> Prop} {s : σ}
    (h : wp M mayFail p Q E s)
    (hQ : forall a t, Q a t -> Q' a t) (hE : forall e t, E e t -> E' e t) :
    wp M mayFail p Q' E' s := by
  induction p generalizing s with
  | ret a => exact hQ a s h
  | raise e => exact hE e s h
  | op o next ih =>
      exact ⟨ih _ h.left, fun hfail => ih _ (h.right hfail)⟩

theorem wp_and {p : Prog S ε α} {Q Q' : α -> σ -> Prop}
    {E E' : ε -> σ -> Prop} {s : σ}
    (h : wp M mayFail p Q E s) (h' : wp M mayFail p Q' E' s) :
    wp M mayFail p (fun a t => Q a t ∧ Q' a t) (fun e t => E e t ∧ E' e t) s := by
  induction p generalizing s with
  | ret a => exact ⟨h, h'⟩
  | raise e => exact ⟨h, h'⟩
  | op o next ih =>
      exact ⟨ih _ h.left h'.left,
        fun hfail => ih _ (h.right hfail) (h'.right hfail)⟩

theorem wp_step {p q : Prog S ε α} {s t : σ} {Q : α -> σ -> Prop}
    {E : ε -> σ -> Prop} (hstep : Step M mayFail (p, s) (q, t))
    (h : wp M mayFail p Q E s) : wp M mayFail q Q E t := by
  cases hstep with
  | done o next => exact h.left
  | failed o next _ hfail => exact h.right hfail

theorem wp_steps {c d : Prog S ε α × σ} {Q : α -> σ -> Prop}
    {E : ε -> σ -> Prop} (hsteps : Steps M mayFail c d)
    (h : wp M mayFail c.1 Q E c.2) : wp M mayFail d.1 Q E d.2 := by
  induction hsteps with
  | refl => exact h
  | tail _ hstep ih => exact wp_step hstep ih

/-- The weakest precondition speaks about every finished execution. -/
theorem wp_finishes {p : Prog S ε α} {s t : σ} {r : Except ε α}
    {Q : α -> σ -> Prop} {E : ε -> σ -> Prop}
    (h : wp M mayFail p Q E s) (hfin : Finishes M mayFail p s r t) :
    match r with
    | .ok a => Q a t
    | .error e => E e t := by
  have hend := wp_steps hfin h
  cases r with
  | ok a => exact hend
  | error e => exact hend

/-- Without raising operations the weakest precondition describes the one run. -/
theorem wp_noFault_iff (p : Prog S ε α) (Q : α -> σ -> Prop)
    (E : ε -> σ -> Prop) (s : σ) :
    wp M (fun _ => False) p Q E s <->
      match (run M (fun _ => false) p s).1 with
      | .ok a => Q a (run M (fun _ => false) p s).2
      | .error e => E e (run M (fun _ => false) p s).2 := by
  induction p generalizing s with
  | ret a => exact Iff.rfl
  | raise e => exact Iff.rfl
  | op o next ih =>
      rw [wp_op, ih]
      simp [run]

end Wp

/-!
# Programs restricted to some operations

A program all of whose operations keep a relation between states keeps it as a
whole. This is the frame rule for the reads and the cache traffic around the
writes that matter.
-/

def AllOps (P : S.Op -> Prop) : Prog S ε α -> Prop
  | .ret _ => True
  | .raise _ => True
  | .op o next => P o ∧ forall answer, AllOps P (next answer)

section AllOps

variable {P : S.Op -> Prop}

@[simp] theorem allOps_ret (a : α) :
    AllOps P (.ret a : Prog S ε α) := trivial

@[simp] theorem allOps_pure (a : α) :
    AllOps P (pure a : Prog S ε α) := trivial

@[simp] theorem allOps_raise (e : ε) :
    AllOps P (.raise e : Prog S ε α) := trivial

@[simp] theorem allOps_perform (e : ε) (o : S.Op) :
    AllOps P (perform e o) <-> P o := by
  constructor
  · intro h
    exact h.left
  · intro h
    refine ⟨h, fun answer => ?_⟩
    cases answer <;> trivial

theorem allOps_bind {p : Prog S ε α} {f : α -> Prog S ε β}
    (hp : AllOps P p) (hf : forall a, AllOps P (f a)) :
    AllOps P (p >>= f) := by
  induction p with
  | ret a => exact hf a
  | raise e => trivial
  | op o next ih =>
      exact ⟨hp.left, fun answer => ih answer (hp.right answer)⟩

theorem allOps_tryCatch {p : Prog S ε α} {handler : ε -> Prog S ε α}
    (hp : AllOps P p) (hhandler : forall e, AllOps P (handler e)) :
    AllOps P (p.tryCatch handler) := by
  induction p with
  | ret a => trivial
  | raise e => exact hhandler e
  | op o next ih =>
      exact ⟨hp.left, fun answer => ih answer (hp.right answer)⟩

theorem allOps_mono {P' : S.Op -> Prop} {p : Prog S ε α}
    (h : AllOps P p) (himp : forall o, P o -> P' o) : AllOps P' p := by
  induction p with
  | ret a => trivial
  | raise e => trivial
  | op o next ih =>
      exact ⟨himp o h.left, fun answer => ih answer (h.right answer)⟩

theorem allOps_of_forall (h : forall o, P o) (p : Prog S ε α) : AllOps P p := by
  induction p with
  | ret a => trivial
  | raise e => trivial
  | op o next ih => exact ⟨h o, ih⟩

theorem allOps_and {P' : S.Op -> Prop} {p : Prog S ε α} (h : AllOps P p)
    (h' : AllOps P' p) : AllOps (fun o => P o ∧ P' o) p := by
  induction p with
  | ret a => trivial
  | raise e => trivial
  | op o next ih =>
      exact ⟨⟨h.left, h'.left⟩, fun answer => ih answer (h.right answer) (h'.right answer)⟩

theorem wp_of_allOps {M : Machine S σ} {mayFail : S.Op -> Prop}
    {I : σ -> Prop} {p : Prog S ε α} {s : σ}
    (hp : AllOps P p)
    (hkeep : forall o t, P o -> I t -> I (M.exec o t).2) (hs : I s) :
    wp M mayFail p (fun _ t => I t) (fun _ t => I t) s := by
  induction p generalizing s with
  | ret a => exact hs
  | raise e => exact hs
  | op o next ih =>
      exact ⟨ih _ (hp.right _) (hkeep o s hp.left hs),
        fun _ => ih _ (hp.right _) hs⟩

end AllOps

/-- Every value that the program may return satisfies `P`, whatever is answered to it. -/
def Returns (P : α -> Prop) : Prog S ε α -> Prop
  | .ret a => P a
  | .raise _ => True
  | .op _ next => forall answer, Returns P (next answer)

section Returns

variable {P : α -> Prop} {Q : β -> Prop}

theorem returns_bind {p : Prog S ε α} {f : α -> Prog S ε β} (hp : Returns P p)
    (hf : forall a, P a -> Returns Q (f a)) : Returns Q (p >>= f) := by
  induction p with
  | ret a => exact hf a hp
  | raise e => trivial
  | op o next ih => exact fun answer => ih answer (hp answer)

theorem returns_tryCatch {p : Prog S ε α} {handler : ε -> Prog S ε α} (hp : Returns P p)
    (hhandler : forall e, Returns P (handler e)) : Returns P (p.tryCatch handler) := by
  induction p with
  | ret a => exact hp
  | raise e => exact hhandler e
  | op o next ih => exact fun answer => ih answer (hp answer)

theorem returns_mono {P' : α -> Prop} {p : Prog S ε α} (h : Returns P p)
    (himp : forall a, P a -> P' a) : Returns P' p := by
  induction p with
  | ret a => exact himp a h
  | raise e => trivial
  | op o next ih => exact fun answer => ih answer (h answer)

theorem returns_trivial (p : Prog S ε α) : Returns (fun _ => True) p := by
  induction p with
  | ret a => trivial
  | raise e => trivial
  | op o next ih => exact ih

end Returns

/-- Every exception that the program may raise satisfies `P`, whatever is answered to it. -/
def Raises (P : ε -> Prop) : Prog S ε α -> Prop
  | .ret _ => True
  | .raise e => P e
  | .op _ next => forall answer, Raises P (next answer)

/-- The same of the exceptions that are no faults: every operation gives an answer. -/
def RaisesUnfaulted (P : ε -> Prop) : Prog S ε α -> Prop
  | .ret _ => True
  | .raise e => P e
  | .op _ next => forall answer, RaisesUnfaulted P (next (some answer))

section RaisesUnfaulted

variable {P P' : ε -> Prop}

theorem raisesUnfaulted_bind {p : Prog S ε α} {f : α -> Prog S ε β}
    (hp : RaisesUnfaulted P p) (hf : forall a, RaisesUnfaulted P (f a)) :
    RaisesUnfaulted P (p >>= f) := by
  induction p with
  | ret a => exact hf a
  | raise e => exact hp
  | op o next ih => exact fun answer => ih (some answer) (hp answer)

theorem raisesUnfaulted_tryCatch {p : Prog S ε α} {handler : ε -> Prog S ε α}
    (hp : RaisesUnfaulted P p) (hhandler : forall e, P e -> RaisesUnfaulted P' (handler e)) :
    RaisesUnfaulted P' (p.tryCatch handler) := by
  induction p with
  | ret a => trivial
  | raise e => exact hhandler e hp
  | op o next ih => exact fun answer => ih (some answer) (hp answer)

theorem raisesUnfaulted_perform (e : ε) (o : S.Op) :
    RaisesUnfaulted P (perform e o) :=
  fun _ => trivial

end RaisesUnfaulted

theorem allOps_bind_returns {P : S.Op -> Prop} {R : α -> Prop} {p : Prog S ε α}
    {f : α -> Prog S ε β} (hp : AllOps P p) (hreturns : Returns R p)
    (hf : forall a, R a -> AllOps P (f a)) : AllOps P (p >>= f) := by
  induction p with
  | ret a => exact hf a hreturns
  | raise e => trivial
  | op o next ih =>
      exact ⟨hp.left, fun answer => ih answer (hp.right answer) (hreturns answer)⟩

/-- The program may return this value when every answer is one that the operations give. -/
def CanReturn (answers : forall o : S.Op, Option (S.Res o) -> Prop) : Prog S ε α -> α -> Prop
  | .ret a, b => a = b
  | .raise _, _ => False
  | .op o next, b => exists answer, answers o answer ∧ CanReturn answers (next answer) b

section CanReturn

variable {answers : forall o : S.Op, Option (S.Res o) -> Prop}

theorem canReturn_bind {p : Prog S ε α} {f : α -> Prog S ε β} {b : β}
    (h : CanReturn answers (p >>= f) b) :
    exists a, CanReturn answers p a ∧ CanReturn answers (f a) b := by
  induction p with
  | ret a => exact ⟨a, rfl, h⟩
  | raise e => exact h.elim
  | op o next ih =>
      rcases h with ⟨answer, hanswer, hnext⟩
      rcases ih answer hnext with ⟨a, ha, hb⟩
      exact ⟨a, ⟨answer, hanswer, ha⟩, hb⟩

theorem canReturn_of_bind {p : Prog S ε α} {f : α -> Prog S ε β} {a : α} {b : β}
    (hp : CanReturn answers p a) (hf : CanReturn answers (f a) b) :
    CanReturn answers (p >>= f) b := by
  induction p with
  | ret a' =>
      cases hp
      exact hf
  | raise e => exact hp.elim
  | op o next ih =>
      rcases hp with ⟨answer, hanswer, hnext⟩
      exact ⟨answer, hanswer, ih answer hnext⟩

theorem canReturn_tryCatch {p : Prog S ε α} {handler : ε -> Prog S ε α} {a : α}
    (h : CanReturn answers (p.tryCatch handler) a) :
    CanReturn answers p a ∨ exists e, CanReturn answers (handler e) a := by
  induction p with
  | ret b => exact Or.inl h
  | raise e => exact Or.inr ⟨e, h⟩
  | op o next ih =>
      rcases h with ⟨answer, hanswer, hnext⟩
      rcases ih answer hnext with hp | he
      · exact Or.inl ⟨answer, hanswer, hp⟩
      · exact Or.inr he

theorem canReturn_perform {e : ε} {o : S.Op} {r : S.Res o}
    (h : CanReturn answers (perform e o : Prog S ε (S.Res o)) r) : answers o (some r) := by
  rcases h with ⟨answer, hanswer, hnext⟩
  cases answer with
  | none => exact hnext.elim
  | some r' =>
      cases hnext
      exact hanswer

end CanReturn

/-- The program may come to this operation when every answer is one that the operations give. -/
def CanPerform (answers : forall o : S.Op, Option (S.Res o) -> Prop) :
    Prog S ε α -> S.Op -> Prop
  | .ret _, _ => False
  | .raise _, _ => False
  | .op o next, o' =>
      o' = o ∨ exists answer, answers o answer ∧ CanPerform answers (next answer) o'

section CanPerform

variable {answers : forall o : S.Op, Option (S.Res o) -> Prop}

theorem canPerform_bind {p : Prog S ε α} {f : α -> Prog S ε β} {o : S.Op}
    (h : CanPerform answers (p >>= f) o) :
    CanPerform answers p o ∨ exists a, CanReturn answers p a ∧ CanPerform answers (f a) o := by
  induction p with
  | ret a => exact Or.inr ⟨a, rfl, h⟩
  | raise e => exact h.elim
  | op o' next ih =>
      rcases h with heq | ⟨answer, hanswer, hnext⟩
      · exact Or.inl (Or.inl heq)
      · rcases ih answer hnext with hp | ⟨a, ha, hf⟩
        · exact Or.inl (Or.inr ⟨answer, hanswer, hp⟩)
        · exact Or.inr ⟨a, ⟨answer, hanswer, ha⟩, hf⟩

theorem canPerform_of_bind {p : Prog S ε α} {f : α -> Prog S ε β} {a : α} {o : S.Op}
    (hp : CanReturn answers p a) (hf : CanPerform answers (f a) o) :
    CanPerform answers (p >>= f) o := by
  induction p with
  | ret a' =>
      cases hp
      exact hf
  | raise e => exact hp.elim
  | op o' next ih =>
      rcases hp with ⟨answer, hanswer, hnext⟩
      exact Or.inr ⟨answer, hanswer, ih answer hnext⟩

theorem canPerform_perform {e : ε} {o o' : S.Op}
    (h : CanPerform answers (perform e o : Prog S ε (S.Res o)) o') : o' = o := by
  rcases h with heq | ⟨answer, _, hnext⟩
  · exact heq
  · cases answer with
    | none => exact hnext.elim
    | some r => exact hnext.elim

end CanPerform

/-!
# Programs with one exceptional operation
-/

/-- Every operation is in `P`, or else the program has got to `q`. -/
def OnlyAt (P : S.Op -> Prop) (q : Prog S ε α) : Prog S ε α -> Prop
  | .ret _ => True
  | .raise _ => True
  | .op o next => (P o ∨ Prog.op o next = q) ∧ forall answer, OnlyAt P q (next answer)

section OnlyAt

variable {P : S.Op -> Prop} {q : Prog S ε β}

theorem onlyAt_of_allOps {p : Prog S ε β} (h : AllOps P p) : OnlyAt P q p := by
  induction p with
  | ret a => trivial
  | raise e => trivial
  | op o next ih => exact ⟨Or.inl h.left, fun answer => ih answer (h.right answer)⟩

theorem onlyAt_bind {p : Prog S ε α} {f : α -> Prog S ε β} (hp : AllOps P p)
    (hf : forall a, OnlyAt P q (f a)) : OnlyAt P q (p >>= f) := by
  induction p with
  | ret a => exact hf a
  | raise e => trivial
  | op o next ih =>
      exact ⟨Or.inl hp.left, fun answer => ih answer (hp.right answer)⟩

end OnlyAt

/-!
# Programs that look before they act
-/

/-- No operation of `bad` comes before an answer of `seen`. -/
def Guarded (seen : forall o : S.Op, S.Res o -> Prop) (bad : S.Op -> Prop) :
    Prog S ε α -> Prop
  | .ret _ => True
  | .raise _ => True
  | .op o next => ¬bad o ∧ Guarded seen bad (next none) ∧
      forall r, seen o r ∨ Guarded seen bad (next (some r))

section Guarded

variable {seen : forall o : S.Op, S.Res o -> Prop} {bad : S.Op -> Prop}

theorem guarded_of_allOps {p : Prog S ε α} (h : AllOps (fun o => ¬bad o) p) :
    Guarded seen bad p := by
  induction p with
  | ret a => trivial
  | raise e => trivial
  | op o next ih =>
      exact ⟨h.left, ih none (h.right none), fun r => Or.inr (ih _ (h.right (some r)))⟩

theorem guarded_bind {p : Prog S ε α} {f : α -> Prog S ε β} (hp : Guarded seen bad p)
    (hf : forall a, Guarded seen bad (f a)) : Guarded seen bad (p >>= f) := by
  induction p with
  | ret a => exact hf a
  | raise e => trivial
  | op o next ih =>
      refine ⟨hp.left, ih none hp.right.left, fun r => ?_⟩
      rcases hp.right.right r with hseen | hnext
      · exact Or.inl hseen
      · exact Or.inr (ih _ hnext)

theorem guarded_tryCatch {p : Prog S ε α} {handler : ε -> Prog S ε α}
    (hp : Guarded seen bad p) (hhandler : forall e, Guarded seen bad (handler e)) :
    Guarded seen bad (p.tryCatch handler) := by
  induction p with
  | ret a => trivial
  | raise e => exact hhandler e
  | op o next ih =>
      refine ⟨hp.left, ih none hp.right.left, fun r => ?_⟩
      rcases hp.right.right r with hseen | hnext
      · exact Or.inl hseen
      · exact Or.inr (ih _ hnext)

theorem guarded_next {o : S.Op} {next : Option (S.Res o) -> Prog S ε α} {r : S.Res o}
    (h : Guarded seen bad (.op o next)) (hr : ¬seen o r) :
    Guarded seen bad (next (some r)) :=
  (h.right.right r).resolve_left hr

end Guarded

/-!
# Programs that act on what they were just shown

An operation may need something that only the answer before it can show.
-/

section Backed

variable {ν : Type}

/-- The next operation needs `b`. -/
def HeadNeeds (needs : S.Op -> ν -> Prop) (b : ν) : Prog S ε α -> Prop
  | .op o _ => needs o b
  | _ => False

/-- What an operation needs is shown by the answer right before it. -/
def Backed (needs : S.Op -> ν -> Prop) (shows : forall o : S.Op, S.Res o -> ν -> Prop) :
    Prog S ε α -> Prop
  | .ret _ => True
  | .raise _ => True
  | .op _ next => (forall b, ¬HeadNeeds needs b (next none)) ∧
      (forall r b, HeadNeeds needs b (next (some r)) -> shows _ r b) ∧
      forall answer, Backed needs shows (next answer)

variable {needs : S.Op -> ν -> Prop} {shows : forall o : S.Op, S.Res o -> ν -> Prop}

theorem headNeeds_of_allOps {p : Prog S ε α} (h : AllOps (fun o => forall b, ¬needs o b) p)
    (b : ν) : ¬HeadNeeds needs b p := by
  cases p with
  | ret a => exact id
  | raise e => exact id
  | op o next => exact h.left b

theorem backed_of_allOps {p : Prog S ε α}
    (h : AllOps (fun o => forall b, ¬needs o b) p) : Backed needs shows p := by
  induction p with
  | ret a => trivial
  | raise e => trivial
  | op o next ih =>
      refine ⟨headNeeds_of_allOps (h.right none), ?_, fun answer => ih answer (h.right answer)⟩
      intro r b hneeds
      exact absurd hneeds (headNeeds_of_allOps (h.right (some r)) b)

theorem backed_op {o : S.Op} {next : Option (S.Res o) -> Prog S ε α}
    (h : forall answer, AllOps (fun o => forall b, ¬needs o b) (next answer)) :
    Backed needs shows (.op o next) := by
  refine ⟨headNeeds_of_allOps (h none), ?_, fun answer => backed_of_allOps (h answer)⟩
  intro r b hneeds
  exact absurd hneeds (headNeeds_of_allOps (h (some r)) b)

theorem headNeeds_bind {p : Prog S ε α} {f : α -> Prog S ε β} {b : ν}
    (hf : forall a, ¬HeadNeeds needs b (f a)) (h : HeadNeeds needs b (p >>= f)) :
    HeadNeeds needs b p := by
  cases p with
  | ret a => exact absurd h (hf a)
  | raise e => exact h
  | op o next => exact h

theorem backed_bind {p : Prog S ε α} {f : α -> Prog S ε β} (hp : Backed needs shows p)
    (hf : forall a, Backed needs shows (f a)) (hfree : forall a b, ¬HeadNeeds needs b (f a)) :
    Backed needs shows (p >>= f) := by
  induction p with
  | ret a => exact hf a
  | raise e => trivial
  | op o next ih =>
      refine ⟨?_, ?_, fun answer => ih answer (hp.right.right answer)⟩
      · intro b hneeds
        exact hp.left b (headNeeds_bind (fun a => hfree a b) hneeds)
      · intro r b hneeds
        exact hp.right.left r b (headNeeds_bind (fun a => hfree a b) hneeds)

end Backed

/-!
# Programs that act on what they know

Answers show facts, and a program that goes on at once with operations that use a fact
may rely on it.
-/

section Informed

variable {ν : Type}

/--
Every operation that needs facts is performed by a program that has been shown them and
has kept them since. `Q` speaks of what is known when the program returns.
-/
def Informed (needs : S.Op -> ν -> Prop) (keeps : forall o : S.Op, Option (S.Res o) -> ν -> Prop)
    (shows : forall o : S.Op, S.Res o -> ν -> Prop) (known : ν -> Prop) :
    Prog S ε α -> ((ν -> Prop) -> α -> Prop) -> Prop
  | .ret a, Q => Q known a
  | .raise _, _ => True
  | .op o next, Q => (forall b, needs o b -> known b) ∧
      (forall r, Informed needs keeps shows
        (fun b => shows o r b ∨ known b ∧ keeps o (some r) b) (next (some r)) Q) ∧
      Informed needs keeps shows (fun b => known b ∧ keeps o none b) (next none) Q

/-- The next operation uses `b`. -/
def HeadUses (uses : S.Op -> ν -> Prop) (b : ν) : Prog S ε α -> Prop
  | .op o _ => uses o b
  | _ => False

/-- The program may come to an operation that needs `b` by operations that only use it. -/
def Relies (needs uses : S.Op -> ν -> Prop) (b : ν) : Prog S ε α -> Prop
  | .op o next => needs o b ∨ uses o b ∧ exists answer, Relies needs uses b (next answer)
  | _ => False

variable {needs : S.Op -> ν -> Prop} {keeps : forall o : S.Op, Option (S.Res o) -> ν -> Prop}
  {shows : forall o : S.Op, S.Res o -> ν -> Prop}

theorem informed_mono {known known' : ν -> Prop} {p : Prog S ε α}
    {Q Q' : (ν -> Prop) -> α -> Prop} (h : Informed needs keeps shows known p Q)
    (hmore : forall b, known b -> known' b)
    (hQ : forall k k' a, (forall b, k b -> k' b) -> Q k a -> Q' k' a) :
    Informed needs keeps shows known' p Q' := by
  induction p generalizing known known' with
  | ret a => exact hQ known known' a hmore h
  | raise e => trivial
  | op o next ih =>
      refine ⟨fun b hneeds => hmore b (h.left b hneeds), ?_, ?_⟩
      · intro r
        apply ih (some r) (h.right.left r)
        intro b hb
        rcases hb with hshown | ⟨hknown, hkept⟩
        · exact Or.inl hshown
        · exact Or.inr ⟨hmore b hknown, hkept⟩
      · apply ih none h.right.right
        intro b hb
        exact ⟨hmore b hb.left, hb.right⟩

theorem informed_of_allOps {known : ν -> Prop} {p : Prog S ε α}
    (h : AllOps (fun o => forall b, ¬needs o b) p) :
    Informed needs keeps shows known p (fun _ _ => True) := by
  induction p generalizing known with
  | ret a => trivial
  | raise e => trivial
  | op o next ih =>
      refine ⟨fun b hneeds => absurd hneeds (h.left b), ?_, ih none (h.right none)⟩
      intro r
      exact ih (some r) (h.right (some r))

/-- What every operation of a program keeps it still knows when it returns. -/
theorem informed_kept {known : ν -> Prop} {p : Prog S ε α}
    (h : AllOps (fun o => (forall b, ¬needs o b) ∧
      forall b, known b -> forall answer, keeps o answer b) p) :
    Informed needs keeps shows known p (fun k _ => forall b, known b -> k b) := by
  have hgen : forall k, (forall b, known b -> k b) ->
      Informed needs keeps shows k p (fun k _ => forall b, known b -> k b) := by
    induction p with
    | ret a => exact fun _ hk => hk
    | raise e => exact fun _ _ => trivial
    | op o next ih =>
        intro k hk
        refine ⟨fun b hneeds => absurd hneeds (h.left.left b), ?_, ?_⟩
        · intro r
          exact ih (some r) (h.right _) _
            (fun b hb => Or.inr ⟨hk b hb, h.left.right b hb _⟩)
        · exact ih none (h.right _) _ (fun b hb => ⟨hk b hb, h.left.right b hb _⟩)
  exact hgen known (fun _ hb => hb)

theorem informed_bind {known : ν -> Prop} {p : Prog S ε α} {f : α -> Prog S ε β}
    {Q : (ν -> Prop) -> β -> Prop}
    (hp : Informed needs keeps shows known p
      (fun k a => Informed needs keeps shows k (f a) Q)) :
    Informed needs keeps shows known (p >>= f) Q := by
  induction p generalizing known with
  | ret a => exact hp
  | raise e => trivial
  | op o next ih =>
      exact ⟨hp.left, fun r => ih (some r) (hp.right.left r), ih none hp.right.right⟩

theorem informed_tryCatch {known : ν -> Prop} {p : Prog S ε α}
    {handler : ε -> Prog S ε α} {Q : (ν -> Prop) -> α -> Prop}
    (hp : Informed needs keeps shows known p Q)
    (hhandler : forall k e, Informed needs keeps shows k (handler e) Q) :
    Informed needs keeps shows known (p.tryCatch handler) Q := by
  induction p generalizing known with
  | ret a => exact hp
  | raise e => exact hhandler known e
  | op o next ih =>
      exact ⟨hp.left, fun r => ih (some r) (hp.right.left r), ih none hp.right.right⟩

end Informed

/-!
# Programs that go on at once

An answer may oblige a program to a certain next operation.
-/

section Prompt

/-- The program goes on with an operation of `goal`. -/
def GoesOn (goal : S.Op -> Prop) : Prog S ε α -> Prop
  | .op o _ => goal o
  | _ => False

/-- Behind an answer of `trigger` the program goes on with an operation of `goal`. -/
def Prompt (trigger : forall o : S.Op, S.Res o -> Prop) (goal : S.Op -> S.Op -> Prop) :
    Prog S ε α -> Prop
  | .ret _ => True
  | .raise _ => True
  | .op o next => (forall r, trigger o r -> GoesOn (goal o) (next (some r))) ∧
      forall answer, Prompt trigger goal (next answer)

variable {trigger : forall o : S.Op, S.Res o -> Prop} {goal : S.Op -> S.Op -> Prop}

theorem goesOn_bind {P : S.Op -> Prop} {p : Prog S ε α} (f : α -> Prog S ε β)
    (h : GoesOn P p) : GoesOn P (p >>= f) := by
  cases p with
  | ret a => exact h.elim
  | raise e => exact h.elim
  | op o next => exact h

theorem goesOn_tryCatch {P : S.Op -> Prop} {p : Prog S ε α}
    (handler : ε -> Prog S ε α) (h : GoesOn P p) : GoesOn P (p.tryCatch handler) := by
  cases p with
  | ret a => exact h.elim
  | raise e => exact h.elim
  | op o next => exact h

theorem prompt_of_allOps {p : Prog S ε α} (h : AllOps (fun o => forall r, ¬trigger o r) p) :
    Prompt trigger goal p := by
  induction p with
  | ret a => trivial
  | raise e => trivial
  | op o next ih =>
      exact ⟨fun r hr => absurd hr (h.left r), fun answer => ih answer (h.right answer)⟩

theorem prompt_bind {p : Prog S ε α} {f : α -> Prog S ε β} (hp : Prompt trigger goal p)
    (hf : forall a, Prompt trigger goal (f a)) : Prompt trigger goal (p >>= f) := by
  induction p with
  | ret a => exact hf a
  | raise e => trivial
  | op o next ih =>
      exact ⟨fun r hr => goesOn_bind f (hp.left r hr), fun answer => ih answer (hp.right answer)⟩

theorem prompt_tryCatch {p : Prog S ε α} {handler : ε -> Prog S ε α}
    (hp : Prompt trigger goal p) (hhandler : forall e, Prompt trigger goal (handler e)) :
    Prompt trigger goal (p.tryCatch handler) := by
  induction p with
  | ret a => trivial
  | raise e => exact hhandler e
  | op o next ih =>
      exact ⟨fun r hr => goesOn_tryCatch handler (hp.left r hr),
        fun answer => ih answer (hp.right answer)⟩

end Prompt

/-!
# Programs that close with an operation
-/

section Closes

variable {trigger : S.Op -> Prop} {Q : α -> Prop}

/-- Nothing is left to be done, and a result satisfies `Q`. -/
def Ended (Q : α -> Prop) : Prog S ε α -> Prop
  | .ret a => Q a
  | .raise _ => True
  | .op _ _ => False

/-- Behind an answer to an operation of `trigger` nothing is left to be done. -/
def Closes (trigger : S.Op -> Prop) (Q : α -> Prop) : Prog S ε α -> Prop
  | .ret _ => True
  | .raise _ => True
  | .op o next => (trigger o -> forall r, Ended Q (next (some r))) ∧
      forall answer, Closes trigger Q (next answer)

theorem closes_of_allOps {p : Prog S ε α} (h : AllOps (fun o => ¬trigger o) p) :
    Closes trigger Q p := by
  induction p with
  | ret a => trivial
  | raise e => trivial
  | op o next ih =>
      exact ⟨fun ht => absurd ht h.left, fun answer => ih answer (h.right answer)⟩

theorem ended_bind {Q' : β -> Prop} {p : Prog S ε α} {f : α -> Prog S ε β}
    (hp : Ended Q p) (hf : forall a, Q a -> Ended Q' (f a)) : Ended Q' (p >>= f) := by
  cases p with
  | ret a => exact hf a hp
  | raise e => trivial
  | op o next => exact hp.elim

theorem closes_bind {Q' : β -> Prop} {p : Prog S ε α} {f : α -> Prog S ε β}
    (hp : Closes trigger Q p) (hend : forall a, Q a -> Ended Q' (f a))
    (hf : forall a, Closes trigger Q' (f a)) : Closes trigger Q' (p >>= f) := by
  induction p with
  | ret a => exact hf a
  | raise e => trivial
  | op o next ih =>
      exact ⟨fun ht r => ended_bind (hp.left ht r) hend, fun answer => ih answer (hp.right answer)⟩

theorem closes_tryCatch {p : Prog S ε α} {handler : ε -> Prog S ε α}
    (hp : AllOps (fun o => ¬trigger o) p) (hhandler : forall e, Closes trigger Q (handler e)) :
    Closes trigger Q (p.tryCatch handler) := by
  induction p with
  | ret a => trivial
  | raise e => exact hhandler e
  | op o next ih =>
      exact ⟨fun ht => absurd ht hp.left, fun answer => ih answer (hp.right answer)⟩

end Closes

/-!
# Programs that owe an operation

What a program will do on every way that is left to it, when the operations of `mayFail`
may raise and the others may not.
-/

section Owes

variable {goal trigger mayFail : S.Op -> Prop}

/--
The program performs an operation of `goal` before it returns. An answer may make it raise
before that, but an operation that raises does not do so at once.
-/
def Owes (goal mayFail : S.Op -> Prop) : Prog S ε α -> Prop
  | .ret _ => False
  | .raise _ => False
  | .op o next => goal o ∨
      ((forall r, Owes goal mayFail (next (some r)) ∨ exists e, next (some r) = .raise e) ∧
        (mayFail o -> Owes goal mayFail (next none)))

/-- No operation that raises makes the program raise at once. -/
def Steady (mayFail : S.Op -> Prop) : Prog S ε α -> Prop
  | .ret _ => True
  | .raise _ => True
  | .op o next => (forall r, Steady mayFail (next (some r))) ∧
      (mayFail o -> Steady mayFail (next none) ∧ forall e, next none ≠ .raise e)

/-- Behind an operation of `trigger` the program owes one of `goal`, unless it raises. -/
def OwesAfter (trigger goal mayFail : S.Op -> Prop) : Prog S ε α -> Prop
  | .ret _ => True
  | .raise _ => True
  | .op o next =>
      (trigger o -> forall r, Owes goal mayFail (next (some r)) ∨
        exists e, next (some r) = .raise e) ∧
      (forall r, OwesAfter trigger goal mayFail (next (some r))) ∧
      (mayFail o -> OwesAfter trigger goal mayFail (next none))

theorem owes_bind {p : Prog S ε α} {f : α -> Prog S ε β} (hp : Steady mayFail p)
    (hf : forall a, Owes goal mayFail (f a)) :
    Owes goal mayFail (p >>= f) ∨ exists e, p = .raise e := by
  induction p with
  | ret a => exact Or.inl (hf a)
  | raise e => exact Or.inr ⟨e, rfl⟩
  | op o next ih =>
      left
      right
      constructor
      · intro r
        rcases ih (some r) (hp.left r) with howes | ⟨e, he⟩
        · exact Or.inl howes
        · refine Or.inr ⟨e, ?_⟩
          show (next (some r)).bind f = .raise e
          rw [he]
          rfl
      · intro hfail
        rcases hp.right hfail with ⟨hsteady, hnot⟩
        rcases ih none hsteady with howes | ⟨e, he⟩
        · exact howes
        · exact absurd he (hnot e)

theorem owes_followed {p : Prog S ε α} (f : α -> Prog S ε β) (hp : Owes goal mayFail p) :
    Owes goal mayFail (p >>= f) := by
  induction p with
  | ret a => exact hp.elim
  | raise e => exact hp.elim
  | op o next ih =>
      rcases hp with hgoal | ⟨hanswers, hfault⟩
      · exact Or.inl hgoal
      · right
        refine ⟨?_, fun hfail => ih none (hfault hfail)⟩
        intro r
        rcases hanswers r with howes | ⟨e, he⟩
        · exact Or.inl (ih (some r) howes)
        · refine Or.inr ⟨e, ?_⟩
          show (next (some r)).bind f = .raise e
          rw [he]
          rfl

theorem owesAfter_result {p : Prog S ε α} (f : α -> β)
    (hp : OwesAfter trigger goal mayFail p) :
    OwesAfter trigger goal mayFail (p >>= fun a => .ret (f a)) := by
  induction p with
  | ret a => trivial
  | raise e => trivial
  | op o next ih =>
      refine ⟨?_, fun r => ih (some r) (hp.right.left r),
        fun hfail => ih none (hp.right.right hfail)⟩
      intro htrigger r
      rcases hp.left htrigger r with howes | ⟨e, he⟩
      · exact Or.inl (owes_followed _ howes)
      · refine Or.inr ⟨e, ?_⟩
        show (next (some r)).bind _ = .raise e
        rw [he]
        rfl

theorem owesAfter_bind {p : Prog S ε α} {f : α -> Prog S ε β} (hp : Steady mayFail p)
    (hf : forall a, Owes goal mayFail (f a))
    (hafter : forall a, OwesAfter trigger goal mayFail (f a)) :
    OwesAfter trigger goal mayFail (p >>= f) := by
  induction p with
  | ret a => exact hafter a
  | raise e => trivial
  | op o next ih =>
      refine ⟨?_, fun r => ih (some r) (hp.left r), fun hfail => ih none (hp.right hfail).left⟩
      intro _ r
      rcases owes_bind (hp.left r) hf with howes | ⟨e, he⟩
      · exact Or.inl howes
      · refine Or.inr ⟨e, ?_⟩
        show (next (some r)).bind f = .raise e
        rw [he]
        rfl

theorem owesAfter_bind_free {p : Prog S ε α} {f : α -> Prog S ε β}
    (hp : AllOps (fun o => ¬trigger o) p)
    (hafter : forall a, OwesAfter trigger goal mayFail (f a)) :
    OwesAfter trigger goal mayFail (p >>= f) := by
  induction p with
  | ret a => exact hafter a
  | raise e => trivial
  | op o next ih =>
      exact ⟨fun h => absurd h hp.left, fun r => ih (some r) (hp.right _),
        fun _ => ih none (hp.right _)⟩

theorem owesAfter_of_allOps {p : Prog S ε α} (hp : AllOps (fun o => ¬trigger o) p) :
    OwesAfter trigger goal mayFail p := by
  induction p with
  | ret a => trivial
  | raise e => trivial
  | op o next ih =>
      exact ⟨fun h => absurd h hp.left, fun r => ih (some r) (hp.right _),
        fun _ => ih none (hp.right _)⟩

theorem steady_of_allOps {p : Prog S ε α} (hp : AllOps (fun o => ¬mayFail o) p) :
    Steady mayFail p := by
  induction p with
  | ret a => trivial
  | raise e => trivial
  | op o next ih =>
      exact ⟨fun r => ih (some r) (hp.right _), fun hfail => absurd hfail hp.left⟩

theorem steady_bind {p : Prog S ε α} {f : α -> Prog S ε β} (hp : Steady mayFail p)
    (hf : forall a, Steady mayFail (f a)) (hnot : forall a e, f a ≠ .raise e) :
    Steady mayFail (p >>= f) := by
  induction p with
  | ret a => exact hf a
  | raise e => trivial
  | op o next ih =>
      refine ⟨fun r => ih (some r) (hp.left r), fun hfail => ?_⟩
      rcases hp.right hfail with ⟨hsteady, hraise⟩
      refine ⟨ih none hsteady, ?_⟩
      intro e he
      cases hnext : next none with
      | ret a =>
          change (next none >>= f) = .raise e at he
          rw [hnext] at he
          exact hnot a e he
      | raise e' => exact hraise e' hnext
      | op o' next' =>
          change (next none >>= f) = .raise e at he
          rw [hnext] at he
          cases he

theorem tryCatch_ne_raise {p : Prog S ε α} {handler : ε -> Prog S ε α}
    (hhandler : forall e e', handler e ≠ .raise e') (e : ε) : p.tryCatch handler ≠ .raise e := by
  cases p with
  | ret a => exact fun h => by cases h
  | raise e' => exact hhandler e' e
  | op o next => exact fun h => by cases h

theorem steady_tryCatch {p : Prog S ε α} {handler : ε -> Prog S ε α}
    (hhandler : forall e, Steady mayFail (handler e))
    (hnot : forall e e', handler e ≠ .raise e') : Steady mayFail (p.tryCatch handler) := by
  induction p with
  | ret a => trivial
  | raise e => exact hhandler e
  | op o next ih =>
      exact ⟨fun r => ih (some r), fun _ => ⟨ih none, tryCatch_ne_raise hnot⟩⟩

end Owes

/-!
# Programs over a larger signature
-/

/-- The same program with its operations taken for those of another signature. -/
def mapOps {T : Signature} (f : S.Op -> T.Op) (g : forall o, T.Res (f o) -> S.Res o) :
    Prog S ε α -> Prog T ε α
  | .ret a => .ret a
  | .raise e => .raise e
  | .op o next => .op (f o) (fun answer => mapOps f g (next (answer.map (g o))))

theorem allOps_mapOps {T : Signature} {f : S.Op -> T.Op}
    {g : forall o, T.Res (f o) -> S.Res o} {P : T.Op -> Prop} {p : Prog S ε α}
    (h : AllOps (fun o => P (f o)) p) : AllOps P (p.mapOps f g) := by
  induction p with
  | ret a => trivial
  | raise e => trivial
  | op o next ih => exact ⟨h.left, fun answer => ih _ (h.right _)⟩

/-- The program with its exceptions renamed. -/
def mapExc {ε' : Type} (f : ε -> ε') : Prog S ε α -> Prog S ε' α
  | .ret a => .ret a
  | .raise e => .raise (f e)
  | .op o next => .op o (fun answer => (next answer).mapExc f)

theorem allOps_mapExc {ε' : Type} {P : S.Op -> Prop} {f : ε -> ε'} {p : Prog S ε α}
    (h : AllOps P p) : AllOps P (p.mapExc f) := by
  induction p with
  | ret a => trivial
  | raise e => trivial
  | op o next ih => exact ⟨h.left, fun answer => ih answer (h.right answer)⟩

theorem canReturn_mapOps {T : Signature} {f : S.Op -> T.Op}
    {g : forall o, T.Res (f o) -> S.Res o}
    {answers : forall o : T.Op, Option (T.Res o) -> Prop}
    {answers' : forall o : S.Op, Option (S.Res o) -> Prop}
    (hanswers : forall o answer, answers (f o) answer -> answers' o (answer.map (g o)))
    {p : Prog S ε α} {a : α} (h : CanReturn answers (p.mapOps f g) a) :
    CanReturn answers' p a := by
  induction p with
  | ret b => exact h
  | raise e => exact h
  | op o next ih =>
      rcases h with ⟨answer, hanswer, hnext⟩
      exact ⟨answer.map (g o), hanswers o answer hanswer, ih _ hnext⟩

theorem canReturn_mapExc {ε' : Type} {f : ε -> ε'}
    {answers : forall o : S.Op, Option (S.Res o) -> Prop} {p : Prog S ε α} {a : α}
    (h : CanReturn answers (p.mapExc f) a) : CanReturn answers p a := by
  induction p with
  | ret b => exact h
  | raise e => exact h
  | op o next ih =>
      rcases h with ⟨answer, hanswer, hnext⟩
      exact ⟨answer, hanswer, ih answer hnext⟩

/-- Stores that look the same to all operations of a program give the same answers. -/
theorem run_congr {M : Machine S σ} {P : S.Op -> Prop} {R : σ -> σ -> Prop}
    (fails : S.Op -> Bool) {p : Prog S ε α} {s t : σ} (hp : AllOps P p)
    (hop : forall o s t, P o -> R s t -> (M.exec o s).1 = (M.exec o t).1 ∧
      R (M.exec o s).2 (M.exec o t).2) (hst : R s t) :
    (run M fails p s).1 = (run M fails p t).1 := by
  induction p generalizing s t with
  | ret a => rfl
  | raise e => rfl
  | op o next ih =>
      unfold run
      cases fails o with
      | true => exact ih _ (hp.right _) hst
      | false =>
          rcases hop o s t hp.left hst with ⟨hanswer, hnext⟩
          dsimp only
          rw [hanswer]
          exact ih _ (hp.right _) hnext

/-!
# Intermediate states

`Always J` holds of a program and a state when every state that a run from there
passes through, the first and the last included, satisfies `J`.
-/

def Always (M : Machine S σ) (mayFail : S.Op -> Prop) (J : σ -> Prop) :
    Prog S ε α -> σ -> Prop
  | .ret _, s => J s
  | .raise _, s => J s
  | .op o next, s =>
      J s ∧ Always M mayFail J (next (some (M.exec o s).1)) (M.exec o s).2 ∧
        (mayFail o -> Always M mayFail J (next none) s)

section Always

variable {M : Machine S σ} {mayFail : S.Op -> Prop} {J : σ -> Prop}

theorem always_start {p : Prog S ε α} {s : σ}
    (h : Always M mayFail J p s) : J s := by
  cases p with
  | ret a => exact h
  | raise e => exact h
  | op o next => exact h.left

theorem always_step {p q : Prog S ε α} {s t : σ}
    (hstep : Step M mayFail (p, s) (q, t)) (h : Always M mayFail J p s) :
    Always M mayFail J q t := by
  cases hstep with
  | done o next => exact h.right.left
  | failed o next _ hfail => exact h.right.right hfail

theorem always_visits {p : Prog S ε α} {s t : σ}
    (h : Always M mayFail J p s) (hvisit : Visits M mayFail p s t) : J t := by
  rcases hvisit with ⟨q, hsteps⟩
  have hall : forall d, Steps M mayFail (p, s) d ->
      Always M mayFail J d.1 d.2 := by
    intro d hd
    induction hd with
    | refl => exact h
    | tail _ hstep ih => exact always_step hstep ih
  exact always_start (hall (q, t) hsteps)

theorem always_mono {J' : σ -> Prop} {p : Prog S ε α} {s : σ}
    (h : Always M mayFail J p s) (himp : forall t, J t -> J' t) :
    Always M mayFail J' p s := by
  induction p generalizing s with
  | ret a => exact himp s h
  | raise e => exact himp s h
  | op o next ih =>
      exact ⟨himp s h.left, ih _ h.right.left, fun hfail => ih _ (h.right.right hfail)⟩

@[simp] theorem always_ret (a : α) (s : σ) :
    Always M mayFail J (.ret a : Prog S ε α) s <-> J s := Iff.rfl

@[simp] theorem always_pure (a : α) (s : σ) :
    Always M mayFail J (pure a : Prog S ε α) s <-> J s := Iff.rfl

@[simp] theorem always_raise (e : ε) (s : σ) :
    Always M mayFail J (.raise e : Prog S ε α) s <-> J s := Iff.rfl

@[simp] theorem always_perform (e : ε) (o : S.Op) (s : σ) :
    Always M mayFail J (perform e o) s <-> J s ∧ J (M.exec o s).2 := by
  constructor
  · intro h
    exact ⟨h.left, h.right.left⟩
  · intro h
    exact ⟨h.left, h.right, fun _ => h.left⟩

theorem always_bind {p : Prog S ε α} {f : α -> Prog S ε β} {s : σ}
    (hp : Always M mayFail J p s)
    (hf : wp M mayFail p (fun a t => Always M mayFail J (f a) t)
      (fun _ _ => True) s) :
    Always M mayFail J (p >>= f) s := by
  induction p generalizing s with
  | ret a => exact hf
  | raise e => exact hp
  | op o next ih =>
      exact ⟨hp.left, ih _ hp.right.left hf.left,
        fun hfail => ih _ (hp.right.right hfail) (hf.right hfail)⟩

theorem always_tryCatch {p : Prog S ε α} {handler : ε -> Prog S ε α} {s : σ}
    (hp : Always M mayFail J p s)
    (hhandler : wp M mayFail p (fun _ _ => True)
      (fun e t => Always M mayFail J (handler e) t) s) :
    Always M mayFail J (p.tryCatch handler) s := by
  induction p generalizing s with
  | ret a => exact hp
  | raise e => exact hhandler
  | op o next ih =>
      exact ⟨hp.left, ih _ hp.right.left hhandler.left,
        fun hfail => ih _ (hp.right.right hfail) (hhandler.right hfail)⟩

theorem always_of_allOps {P : S.Op -> Prop} {p : Prog S ε α} {s : σ}
    (hp : AllOps P p)
    (hkeep : forall o t, P o -> J t -> J (M.exec o t).2) (hs : J s) :
    Always M mayFail J p s := by
  induction p generalizing s with
  | ret a => exact hs
  | raise e => exact hs
  | op o next ih =>
      exact ⟨hs, ih _ (hp.right _) (hkeep o s hp.left hs),
        fun _ => ih _ (hp.right _) hs⟩

end Always

end Prog

end Programs
end ConversationService
