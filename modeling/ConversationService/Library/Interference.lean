import ConversationService.Library.Programs

/-!
# Programs whose surroundings move

Between two operations of a program the surroundings may change the state. There are
two ways of reasoning about such a program. The weakest precondition amid moves asks
that a precondition survives the moves before every operation. A program within an
invariant knows nothing of the state but the invariant, which it and everybody else
keeps; what it learns from answers are facts about values.
-/

namespace ConversationService
namespace Programs

variable {S : Signature} {ε σ α β : Type}

/-- A predicate that the moves keep. -/
def StableUnder (moves : σ -> σ -> Prop) (P : σ -> Prop) : Prop :=
  forall s t, moves s t -> P s -> P t

/-- What a program runs in. -/
structure Surroundings (S : Signature) (σ : Type) where
  machine : Machine S σ
  mayFail : S.Op -> Prop
  /-- when an operation may be performed -/
  allows : σ -> S.Op -> Prop
  moves : σ -> σ -> Prop

theorem stable_moves {moves : σ -> σ -> Prop} {P : σ -> Prop} (hP : StableUnder moves P)
    {s t : σ} (hmoves : Relation.ReflTransGen moves s t) (hs : P s) : P t := by
  induction hmoves with
  | refl => exact hs
  | tail _ hmove ih => exact hP _ _ hmove ih

namespace Prog

/-!
# The weakest precondition amid moves
-/

def wpAmid (W : Surroundings S σ) :
    Prog S ε α -> (α -> σ -> Prop) -> (ε -> σ -> Prop) -> σ -> Prop
  | .ret a, Q, _, s => Q a s
  | .raise e, _, E, s => E e s
  | .op o next, Q, E, s =>
      forall t, Relation.ReflTransGen W.moves s t ->
        (W.allows t o -> wpAmid W (next (some (W.machine.exec o t).1)) Q E
          (W.machine.exec o t).2) ∧
        (W.mayFail o -> wpAmid W (next none) Q E t)

section Amid

variable {W : Surroundings S σ}

@[simp] theorem wpAmid_ret (a : α) (Q : α -> σ -> Prop) (E : ε -> σ -> Prop) (s : σ) :
    wpAmid W (.ret a) Q E s <-> Q a s := Iff.rfl

@[simp] theorem wpAmid_pure (a : α) (Q : α -> σ -> Prop) (E : ε -> σ -> Prop) (s : σ) :
    wpAmid W (pure a) Q E s <-> Q a s := Iff.rfl

@[simp] theorem wpAmid_raise (e : ε) (Q : α -> σ -> Prop) (E : ε -> σ -> Prop) (s : σ) :
    wpAmid W (.raise e) Q E s <-> E e s := Iff.rfl

theorem wpAmid_bind (p : Prog S ε α) (f : α -> Prog S ε β) (Q : β -> σ -> Prop)
    (E : ε -> σ -> Prop) (s : σ) :
    wpAmid W (p >>= f) Q E s <->
      wpAmid W p (fun a t => wpAmid W (f a) Q E t) E s := by
  induction p generalizing s with
  | ret a => exact Iff.rfl
  | raise e => exact Iff.rfl
  | op o next ih =>
      rw [op_bind]
      unfold wpAmid
      constructor
      · intro h t ht
        exact ⟨fun hallows => (ih _ _).mp ((h t ht).left hallows),
          fun hfail => (ih _ _).mp ((h t ht).right hfail)⟩
      · intro h t ht
        exact ⟨fun hallows => (ih _ _).mpr ((h t ht).left hallows),
          fun hfail => (ih _ _).mpr ((h t ht).right hfail)⟩

theorem wpAmid_tryCatch (p : Prog S ε α) (handler : ε -> Prog S ε α)
    (Q : α -> σ -> Prop) (E : ε -> σ -> Prop) (s : σ) :
    wpAmid W (p.tryCatch handler) Q E s <->
      wpAmid W p Q (fun e t => wpAmid W (handler e) Q E t) s := by
  induction p generalizing s with
  | ret a => exact Iff.rfl
  | raise e => exact Iff.rfl
  | op o next ih =>
      unfold tryCatch wpAmid
      constructor
      · intro h t ht
        exact ⟨fun hallows => (ih _ _).mp ((h t ht).left hallows),
          fun hfail => (ih _ _).mp ((h t ht).right hfail)⟩
      · intro h t ht
        exact ⟨fun hallows => (ih _ _).mpr ((h t ht).left hallows),
          fun hfail => (ih _ _).mpr ((h t ht).right hfail)⟩

theorem wpAmid_perform {P : σ -> Prop} (hP : StableUnder W.moves P) {e : ε} {o : S.Op}
    {Q : S.Res o -> σ -> Prop} {E : ε -> σ -> Prop} {s : σ} (hs : P s)
    (hQ : forall t, P t -> W.allows t o -> Q (W.machine.exec o t).1 (W.machine.exec o t).2)
    (hE : forall t, P t -> W.mayFail o -> E e t) :
    wpAmid W (perform e o) Q E s := by
  intro t ht
  have hPt := stable_moves hP ht hs
  exact ⟨fun hallows => hQ t hPt hallows, fun hfail => hE t hPt hfail⟩

theorem wpAmid_mono {p : Prog S ε α} {Q Q' : α -> σ -> Prop} {E E' : ε -> σ -> Prop}
    {s : σ} (h : wpAmid W p Q E s)
    (hQ : forall a t, Q a t -> Q' a t) (hE : forall e t, E e t -> E' e t) :
    wpAmid W p Q' E' s := by
  induction p generalizing s with
  | ret a => exact hQ a s h
  | raise e => exact hE e s h
  | op o next ih =>
      intro t ht
      exact ⟨fun hallows => ih _ ((h t ht).left hallows),
        fun hfail => ih _ ((h t ht).right hfail)⟩

theorem wpAmid_move {p : Prog S ε α} {Q : α -> σ -> Prop} {E : ε -> σ -> Prop} {s t : σ}
    (hQ : forall a, StableUnder W.moves (Q a)) (hE : forall e, StableUnder W.moves (E e))
    (hmove : W.moves s t) (h : wpAmid W p Q E s) : wpAmid W p Q E t := by
  cases p with
  | ret a => exact hQ a s t hmove h
  | raise e => exact hE e s t hmove h
  | op o next =>
      intro u hu
      exact h u (Relation.ReflTransGen.head hmove hu)

/-!
# Executions amid moves
-/

inductive StepAmid (W : Surroundings S σ) :
    Prog S ε α × σ -> Prog S ε α × σ -> Prop where
  | done (o : S.Op) (next : Option (S.Res o) -> Prog S ε α) (s : σ) :
      W.allows s o ->
      StepAmid W (.op o next, s)
        (next (some (W.machine.exec o s).1), (W.machine.exec o s).2)
  | failed (o : S.Op) (next : Option (S.Res o) -> Prog S ε α) (s : σ) :
      W.mayFail o -> StepAmid W (.op o next, s) (next none, s)
  | move (p : Prog S ε α) {s t : σ} : W.moves s t -> StepAmid W (p, s) (p, t)

/-- The program run from `s` may end with outcome `r` in state `t`, amid moves. -/
def FinishesAmid (W : Surroundings S σ) (p : Prog S ε α) (s : σ) (r : Except ε α)
    (t : σ) : Prop :=
  Relation.ReflTransGen (StepAmid W) (p, s) (ofOutcome r, t)

theorem finishesAmid_run {W : Surroundings S σ} (hallows : forall s o, W.allows s o)
    (p : Prog S ε α) (s : σ) :
    FinishesAmid W p s (run W.machine (fun _ => false) p s).1
      (run W.machine (fun _ => false) p s).2 := by
  induction p generalizing s with
  | ret a => exact Relation.ReflTransGen.refl
  | raise e => exact Relation.ReflTransGen.refl
  | op o next ih =>
      exact Relation.ReflTransGen.head (StepAmid.done o next s (hallows s o)) (ih _ _)

theorem wpAmid_finishes {p : Prog S ε α} {s t : σ} {r : Except ε α}
    {Q : α -> σ -> Prop} {E : ε -> σ -> Prop}
    (hQ : forall a, StableUnder W.moves (Q a)) (hE : forall e, StableUnder W.moves (E e))
    (h : wpAmid W p Q E s) (hfin : FinishesAmid W p s r t) :
    match r with
    | .ok a => Q a t
    | .error e => E e t := by
  have hall : forall d : Prog S ε α × σ,
      Relation.ReflTransGen (StepAmid W) (p, s) d -> wpAmid W d.1 Q E d.2 := by
    intro d hd
    induction hd with
    | refl => exact h
    | tail _ hstep ih =>
        cases hstep with
        | done o next u hallows =>
            exact (ih u Relation.ReflTransGen.refl).left hallows
        | failed o next u hfail => exact (ih u Relation.ReflTransGen.refl).right hfail
        | move q hmove => exact wpAmid_move hQ hE hmove ih
  have hend := hall _ hfin
  cases r with
  | ok a => exact hend
  | error e => exact hend

end Amid

/-!
# Programs within an invariant
-/

/-- Every operation keeps `K`, and the outcome satisfies `Q` or `E`. -/
def within (W : Surroundings S σ) (K : σ -> Prop) :
    Prog S ε α -> (α -> Prop) -> (ε -> Prop) -> Prop
  | .ret a, Q, _ => Q a
  | .raise e, _, E => E e
  | .op o next, Q, E =>
      forall s, K s ->
        (W.allows s o -> K (W.machine.exec o s).2 ∧
          within W K (next (some (W.machine.exec o s).1)) Q E) ∧
        (W.mayFail o -> within W K (next none) Q E)

section Within

variable {W : Surroundings S σ} {K : σ -> Prop}

@[simp] theorem within_ret (a : α) (Q : α -> Prop) (E : ε -> Prop) :
    within W K (.ret a) Q E <-> Q a := Iff.rfl

@[simp] theorem within_pure (a : α) (Q : α -> Prop) (E : ε -> Prop) :
    within W K (pure a) Q E <-> Q a := Iff.rfl

@[simp] theorem within_raise (e : ε) (Q : α -> Prop) (E : ε -> Prop) :
    within W K (.raise e : Prog S ε α) Q E <-> E e := Iff.rfl

theorem within_bind {p : Prog S ε α} {f : α -> Prog S ε β} {Q : β -> Prop}
    {E : ε -> Prop} (h : within W K p (fun a => within W K (f a) Q E) E) :
    within W K (p >>= f) Q E := by
  induction p with
  | ret a => exact h
  | raise e => exact h
  | op o next ih =>
      intro s hs
      refine ⟨?_, fun hfail => ih _ ((h s hs).right hfail)⟩
      intro hallows
      have hdone := (h s hs).left hallows
      exact ⟨hdone.left, ih _ hdone.right⟩

theorem within_tryCatch {p : Prog S ε α} {handler : ε -> Prog S ε α} {Q : α -> Prop}
    {E : ε -> Prop} (h : within W K p Q (fun e => within W K (handler e) Q E)) :
    within W K (p.tryCatch handler) Q E := by
  induction p with
  | ret a => exact h
  | raise e => exact h
  | op o next ih =>
      intro s hs
      refine ⟨?_, fun hfail => ih _ ((h s hs).right hfail)⟩
      intro hallows
      have hdone := (h s hs).left hallows
      exact ⟨hdone.left, ih _ hdone.right⟩

theorem within_perform {e : ε} {o : S.Op} {Q : S.Res o -> Prop} {E : ε -> Prop}
    (hkeep : forall s, K s -> W.allows s o -> K (W.machine.exec o s).2)
    (hQ : forall s, K s -> Q (W.machine.exec o s).1) (hE : E e) :
    within W K (perform e o) Q E := by
  intro s hs
  exact ⟨fun hallows => ⟨hkeep s hs hallows, hQ s hs⟩, fun _ => hE⟩

theorem within_mono {p : Prog S ε α} {Q Q' : α -> Prop} {E E' : ε -> Prop}
    (h : within W K p Q E) (hQ : forall a, Q a -> Q' a) (hE : forall e, E e -> E' e) :
    within W K p Q' E' := by
  induction p with
  | ret a => exact hQ a h
  | raise e => exact hE e h
  | op o next ih =>
      intro s hs
      refine ⟨?_, fun hfail => ih _ ((h s hs).right hfail)⟩
      intro hallows
      have hdone := (h s hs).left hallows
      exact ⟨hdone.left, ih _ hdone.right⟩

theorem within_of_allOps {P : S.Op -> Prop} {p : Prog S ε α} (hp : AllOps P p)
    (hkeep : forall o s, P o -> K s -> W.allows s o -> K (W.machine.exec o s).2) :
    within W K p (fun _ => True) (fun _ => True) := by
  induction p with
  | ret a => trivial
  | raise e => trivial
  | op o next ih =>
      intro s hs
      exact ⟨fun hallows => ⟨hkeep o s hp.left hs hallows, ih _ (hp.right _)⟩,
        fun _ => ih _ (hp.right _)⟩

/-- An invariant that also the moves keep is a precondition amid them. -/
theorem wpAmid_of_within {p : Prog S ε α} {Q : α -> Prop} {E : ε -> Prop} {s : σ}
    (hK : StableUnder W.moves K) (h : within W K p Q E) (hs : K s) :
    wpAmid W p (fun a t => K t ∧ Q a) (fun e t => K t ∧ E e) s := by
  induction p generalizing s with
  | ret a => exact ⟨hs, h⟩
  | raise e => exact ⟨hs, h⟩
  | op o next ih =>
      intro t ht
      have hKt := stable_moves hK ht hs
      refine ⟨?_, fun hfail => ih _ ((h t hKt).right hfail) hKt⟩
      intro hallows
      have hdone := (h t hKt).left hallows
      exact ih _ hdone.right hdone.left

end Within

end Prog
end Programs
end ConversationService
