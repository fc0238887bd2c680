import ConversationService.Library.Programs

/-!
# Two runs

Runs of two programs from related states, in which the same operations raise. They end
alike when both raise the same exception or both return, with related values, and their
states are still related.
-/

namespace ConversationService
namespace Programs
namespace Prog

variable {S : Signature} {ε α β γ δ : Type} {σ : Type}

inductive SameOutcome (V : α -> β -> Prop) : Except ε α -> Except ε β -> Prop where
  | ok {a : α} {b : β} : V a b -> SameOutcome V (.ok a) (.ok b)
  | error (e : ε) : SameOutcome V (.error e) (.error e)

theorem SameOutcome.mono {V V' : α -> β -> Prop} {x : Except ε α} {y : Except ε β}
    (h : SameOutcome V x y) (hv : forall a b, V a b -> V' a b) : SameOutcome V' x y := by
  cases h with
  | ok hab => exact .ok (hv _ _ hab)
  | error e => exact .error e

theorem run_op (M : Machine S σ) (fails : S.Op -> Bool) (o : S.Op)
    (next : Option (S.Res o) -> Prog S ε α) (s : σ) :
    run M fails (.op o next) s =
      if fails o then run M fails (next none) s
      else run M fails (next (some (M.exec o s).1)) (M.exec o s).2 := by
  rw [run]
  cases fails o <;> rfl

theorem run_bind (M : Machine S σ) (fails : S.Op -> Bool) (p : Prog S ε α)
    (f : α -> Prog S ε β) (s : σ) :
    run M fails (p >>= f) s =
      match run M fails p s with
      | (.ok a, t) => run M fails (f a) t
      | (.error e, t) => (.error e, t) := by
  induction p generalizing s with
  | ret a => rfl
  | raise e => rfl
  | op o next ih =>
      show run M fails (.op o (fun answer => next answer >>= f)) s = _
      rw [run_op, run_op]
      cases fails o with
      | true => exact ih none s
      | false => exact ih _ _

section Alike

variable {M : Machine S σ} {fails : S.Op -> Bool} {R : σ -> σ -> Prop}

end Alike

/-!
# Programs over a larger signature
-/

section Larger

variable {T : Signature} {N : Machine T σ} {f : S.Op -> T.Op}
  {g : forall o, T.Res (f o) -> S.Res o} {fails : T.Op -> Bool} {R : σ -> σ -> Prop}

end Larger

end Prog
end Programs
end ConversationService
