import ConversationService.Library.Programs

/-!
# Pools of interleaved programs

Several programs run against one store, each for a call. A step performs the next
operation of one of them, lets that operation raise, drops a program in its middle (a
process that stops), starts the program of a new call, or lets the surroundings change
the store. A program that has ended stays in the pool, so that its outcome can be
looked up. This module gives the interleaving semantics, schedules that play out one
interleaving, and the rule that derives an invariant of all reachable pools from local
obligations: what a program keeps when it takes a step of its own, and what it keeps
when another program does.
-/

namespace ConversationService
namespace Programs

variable {ι : Type} {S : Signature} {ε α σ : Type}

/-- The program of a call, as far as it is still to be run. -/
structure Task (ι : Type) (S : Signature) (ε α : Type) where
  call : ι
  prog : Prog S ε α

/-- A store together with the programs that run against it or have run against it. -/
structure Pool (ι : Type) (S : Signature) (ε α σ : Type) where
  store : σ
  tasks : List (Task ι S ε α)

/-- What the steps of a pool may do. -/
structure Rules (ι : Type) (S : Signature) (ε α σ : Type) where
  machine : Machine S σ
  program : ι -> Prog S ε α
  /-- the tasks that may perform their next operation -/
  permits : Pool ι S ε α σ -> Task ι S ε α -> Prop
  mayFail : S.Op -> Prop
  /-- the calls that may be made -/
  mayStart : Pool ι S ε α σ -> ι -> Prop
  /-- the calls whose process may stop -/
  mayStop : ι -> Prop
  /-- where it may stop -/
  mayStopAt : Pool ι S ε α σ -> Task ι S ε α -> Prop := fun _ _ => True
  /-- changes made by nobody in the pool, such as the passing of time -/
  moves : σ -> σ -> Prop

namespace Prog

/-- The program has operations left. -/
def Running : Prog S ε α -> Prop
  | .op _ _ => True
  | _ => False

instance (p : Prog S ε α) : Decidable p.Running :=
  match p with
  | .op _ _ => isTrue trivial
  | .ret _ => isFalse id
  | .raise _ => isFalse id

end Prog

namespace Pool

/-- No program has operations left. -/
def Quiet (c : Pool ι S ε α σ) : Prop :=
  forall t, t ∈ c.tasks -> ¬t.prog.Running

instance (c : Pool ι S ε α σ) : Decidable c.Quiet :=
  inferInstanceAs (Decidable (forall t, t ∈ c.tasks -> ¬t.prog.Running))

inductive Step (R : Rules ι S ε α σ) : Pool ι S ε α σ -> Pool ι S ε α σ -> Prop where
  | perform (before after : List (Task ι S ε α)) (call : ι) (o : S.Op)
      (next : Option (S.Res o) -> Prog S ε α) (s : σ) :
      R.permits ⟨s, before ++ ⟨call, .op o next⟩ :: after⟩ ⟨call, .op o next⟩ ->
      Step R ⟨s, before ++ ⟨call, .op o next⟩ :: after⟩
        ⟨(R.machine.exec o s).2,
          before ++ ⟨call, next (some (R.machine.exec o s).1)⟩ :: after⟩
  | fault (before after : List (Task ι S ε α)) (call : ι) (o : S.Op)
      (next : Option (S.Res o) -> Prog S ε α) (s : σ) :
      R.mayFail o ->
      Step R ⟨s, before ++ ⟨call, .op o next⟩ :: after⟩
        ⟨s, before ++ ⟨call, next none⟩ :: after⟩
  | stop (before after : List (Task ι S ε α)) (call : ι) (o : S.Op)
      (next : Option (S.Res o) -> Prog S ε α) (s : σ) :
      R.mayStop call -> R.mayStopAt ⟨s, before ++ ⟨call, .op o next⟩ :: after⟩ ⟨call, .op o next⟩ ->
      Step R ⟨s, before ++ ⟨call, .op o next⟩ :: after⟩ ⟨s, before ++ after⟩
  | start (tasks : List (Task ι S ε α)) (call : ι) (s : σ) :
      R.mayStart ⟨s, tasks⟩ call ->
      Step R ⟨s, tasks⟩ ⟨s, tasks ++ [⟨call, R.program call⟩]⟩
  | move (tasks : List (Task ι S ε α)) (s t : σ) :
      R.moves s t -> Step R ⟨s, tasks⟩ ⟨t, tasks⟩

/-- A step in which a program of this call performs an operation. -/
inductive StepBy (R : Rules ι S ε α σ) (call : ι) :
    Pool ι S ε α σ -> Pool ι S ε α σ -> Prop where
  | perform (before after : List (Task ι S ε α)) (o : S.Op)
      (next : Option (S.Res o) -> Prog S ε α) (s : σ) :
      StepBy R call ⟨s, before ++ ⟨call, .op o next⟩ :: after⟩
        ⟨(R.machine.exec o s).2,
          before ++ ⟨call, next (some (R.machine.exec o s).1)⟩ :: after⟩

theorem step_store {R : Rules ι S ε α σ} {c d : Pool ι S ε α σ} (h : Step R c d) :
    d.store = c.store ∨ R.moves c.store d.store ∨
      exists call o next, ⟨call, .op o next⟩ ∈ c.tasks ∧ R.permits c ⟨call, .op o next⟩ ∧
        d.store = (R.machine.exec o c.store).2 ∧ StepBy R call c d := by
  cases h with
  | perform before after call o next s hpermits =>
      exact Or.inr (Or.inr ⟨call, o, next, by simp, hpermits, rfl,
        StepBy.perform before after o next s⟩)
  | fault before after call o next s hfail => exact Or.inl rfl
  | stop before after call o next s hstop hat => exact Or.inl rfl
  | start tasks call s hstart => exact Or.inl rfl
  | move tasks s t hmove => exact Or.inr (Or.inl hmove)

theorem step_permits {R : Rules ι S ε α σ}
    {permits : Pool ι S ε α σ -> Task ι S ε α -> Prop} {c d : Pool ι S ε α σ}
    (hstep : Step R c d) (h : forall t, R.permits c t -> permits c t) :
    Step { R with permits := permits } c d := by
  cases hstep with
  | perform before after call o next s hpermits =>
      exact Step.perform before after call o next s (h _ hpermits)
  | fault before after call o next s hfail =>
      exact Step.fault before after call o next s hfail
  | stop before after call o next s hstop hat =>
      exact Step.stop before after call o next s hstop hat
  | start tasks call s hstart => exact Step.start tasks call s hstart
  | move tasks s t hmove => exact Step.move tasks s t hmove

/--
A step in which at most the task that takes it comes to an answer, which then satisfies `K`.
A task that starts has operations to perform before it answers.
-/
inductive AnswersWith (program : ι -> Prog S ε α) (K : ι -> α -> Prop) :
    Pool ι S ε α σ -> Pool ι S ε α σ -> Prop where
  | next (before after : List (Task ι S ε α)) (call : ι) (o : S.Op)
      (next : Option (S.Res o) -> Prog S ε α) (prog : Prog S ε α) (s t : σ) :
      (forall a, prog = .ret a -> K call a) ->
      AnswersWith program K ⟨s, before ++ ⟨call, .op o next⟩ :: after⟩
        ⟨t, before ++ ⟨call, prog⟩ :: after⟩
  | stop (before after : List (Task ι S ε α)) (p : Task ι S ε α) (s : σ) :
      AnswersWith program K ⟨s, before ++ p :: after⟩ ⟨s, before ++ after⟩
  | start (tasks : List (Task ι S ε α)) (call : ι) (s : σ) :
      (forall a, program call ≠ .ret a) ->
      AnswersWith program K ⟨s, tasks⟩ ⟨s, tasks ++ [⟨call, program call⟩]⟩
  | move (tasks : List (Task ι S ε α)) (s t : σ) : AnswersWith program K ⟨s, tasks⟩ ⟨t, tasks⟩

def Reaches (R : Rules ι S ε α σ) : Pool ι S ε α σ -> Pool ι S ε α σ -> Prop :=
  Relation.ReflTransGen (Step R)

/-!
# Schedules

One interleaving is played out by naming, for each step, the task that takes it.
-/

inductive Act (ι : Type) where
  | start (call : ι)
  | perform (i : Nat)
  | fault (i : Nat)
  | stop (i : Nat)

def play (R : Rules ι S ε α σ) (c : Pool ι S ε α σ) : Act ι -> Pool ι S ε α σ
  | .start call => ⟨c.store, c.tasks ++ [⟨call, R.program call⟩]⟩
  | .perform i =>
      match c.tasks[i]? with
      | some ⟨call, .op o next⟩ =>
          ⟨(R.machine.exec o c.store).2,
            c.tasks.set i ⟨call, next (some (R.machine.exec o c.store).1)⟩⟩
      | _ => c
  | .fault i =>
      match c.tasks[i]? with
      | some ⟨call, .op _ next⟩ => ⟨c.store, c.tasks.set i ⟨call, next none⟩⟩
      | _ => c
  | .stop i =>
      match c.tasks[i]? with
      | some ⟨_, .op _ _⟩ => ⟨c.store, c.tasks.eraseIdx i⟩
      | _ => c

/-- The rules let the act happen. -/
def Allows (R : Rules ι S ε α σ) (c : Pool ι S ε α σ) : Act ι -> Prop
  | .start call => R.mayStart c call
  | .perform i => forall t, c.tasks[i]? = some t -> R.permits c t
  | .fault i =>
      forall call o next, c.tasks[i]? = some ⟨call, .op o next⟩ -> R.mayFail o
  | .stop i => forall t, c.tasks[i]? = some t -> R.mayStop t.call ∧ R.mayStopAt c t

theorem split_of_getElem? {tasks : List (Task ι S ε α)} {i : Nat} {t : Task ι S ε α}
    (h : tasks[i]? = some t) :
    exists before after, tasks = before ++ t :: after ∧
      (forall t', tasks.set i t' = before ++ t' :: after) ∧
      tasks.eraseIdx i = before ++ after := by
  rcases List.getElem?_eq_some_iff.mp h with ⟨hi, hget⟩
  refine ⟨tasks.take i, tasks.drop (i + 1), ?_, ?_, ?_⟩
  · rw [← hget, List.getElem_cons_drop, List.take_append_drop]
  · intro t'
    exact List.set_eq_take_append_cons_drop ▸ if_pos hi
  · exact List.eraseIdx_eq_take_drop_succ tasks i

/-- An act that is allowed is a step, or there is nothing for it to do. -/
theorem step_play {R : Rules ι S ε α σ} {c : Pool ι S ε α σ} {act : Act ι}
    (hallows : Allows R c act) : play R c act = c ∨ Step R c (play R c act) := by
  rcases c with ⟨s, tasks⟩
  cases act with
  | start call => exact Or.inr (Step.start tasks call s hallows)
  | perform i =>
      unfold play
      dsimp only
      split
      · rename_i call o next hget
        rcases split_of_getElem? hget with ⟨before, after, htasks, hset, _⟩
        have hpermits := hallows _ hget
        rw [hset]
        subst htasks
        exact Or.inr (Step.perform before after call o next s hpermits)
      · exact Or.inl rfl
  | fault i =>
      unfold play
      dsimp only
      split
      · rename_i call o next hget
        rcases split_of_getElem? hget with ⟨before, after, htasks, hset, _⟩
        have hfail := hallows _ _ _ hget
        rw [hset]
        subst htasks
        exact Or.inr (Step.fault before after call o next s hfail)
      · exact Or.inl rfl
  | stop i =>
      unfold play
      dsimp only
      split
      · rename_i call o next hget
        rcases split_of_getElem? hget with ⟨before, after, htasks, _, herase⟩
        have hstop := hallows _ hget
        rw [herase]
        subst htasks
        exact Or.inr (Step.stop before after call o next s hstop.left hstop.right)
      · exact Or.inl rfl

theorem reaches_play {R : Rules ι S ε α σ} {c : Pool ι S ε α σ} {act : Act ι}
    (hallows : Allows R c act) : Reaches R c (play R c act) := by
  rcases step_play hallows with hsame | hstep
  · rw [hsame]
    exact Relation.ReflTransGen.refl
  · exact Relation.ReflTransGen.single hstep

theorem step_perform {R : Rules ι S ε α σ} {c : Pool ι S ε α σ} {i : Nat}
    {t : Task ι S ε α} (hget : c.tasks[i]? = some t) (hrunning : t.prog.Running)
    (hpermits : R.permits c t) : Step R c (play R c (.perform i)) := by
  rcases c with ⟨s, tasks⟩
  rcases t with ⟨call, prog⟩
  cases prog with
  | op o next =>
      rcases split_of_getElem? hget with ⟨before, after, htasks, hset, _⟩
      unfold play
      dsimp only at hget ⊢
      rw [hget]
      dsimp only
      rw [hset]
      subst htasks
      exact Step.perform before after call o next s hpermits
  | ret a => exact hrunning.elim
  | raise e => exact hrunning.elim

/-- Every act of a schedule is allowed when its turn comes. -/
def AllowsAll (R : Rules ι S ε α σ) : Pool ι S ε α σ -> List (Act ι) -> Prop
  | _, [] => True
  | c, act :: rest => Allows R c act ∧ AllowsAll R (play R c act) rest

theorem reaches_schedule {R : Rules ι S ε α σ} {c : Pool ι S ε α σ}
    {acts : List (Act ι)} (hallows : AllowsAll R c acts) :
    Reaches R c (acts.foldl (play R) c) := by
  induction acts generalizing c with
  | nil => exact Relation.ReflTransGen.refl
  | cons act rest ih =>
      exact Relation.ReflTransGen.trans (reaches_play hallows.left) (ih hallows.right)

theorem allowsAll_append {R : Rules ι S ε α σ} {c : Pool ι S ε α σ}
    {acts rest : List (Act ι)} (hacts : AllowsAll R c acts)
    (hrest : AllowsAll R (acts.foldl (play R) c) rest) : AllowsAll R c (acts ++ rest) := by
  induction acts generalizing c with
  | nil => exact hrest
  | cons act acts ih => exact ⟨hacts.left, ih hacts.right hrest⟩

/-- The call that an act starts, if it starts one. -/
def Act.started : Act ι -> List ι
  | .start call => [call]
  | _ => []

theorem map_call_set {tasks : List (Task ι S ε α)} {i : Nat} {t t' : Task ι S ε α}
    (hget : tasks[i]? = some t) (hcall : t'.call = t.call) :
    (tasks.set i t').map Task.call = tasks.map Task.call := by
  rcases split_of_getElem? hget with ⟨before, after, htasks, hset, _⟩
  rw [hset, htasks, List.map_append, List.map_append, List.map_cons, List.map_cons, hcall]

theorem calls_schedule {R : Rules ι S ε α σ} {c : Pool ι S ε α σ} {acts : List (Act ι)}
    (hstop : forall i, Act.stop i ∉ acts) :
    (acts.foldl (play R) c).tasks.map Task.call =
      c.tasks.map Task.call ++ acts.flatMap Act.started := by
  induction acts generalizing c with
  | nil => simp
  | cons act rest ih =>
      have hplay : (play R c act).tasks.map Task.call =
          c.tasks.map Task.call ++ act.started := by
        cases act with
        | start call => simp [play, Act.started]
        | perform i =>
            unfold play
            dsimp only
            split
            · rename_i call o next hget
              show _ = c.tasks.map Task.call ++ []
              rw [List.append_nil]
              exact map_call_set hget rfl
            · simp [Act.started]
        | fault i =>
            unfold play
            dsimp only
            split
            · rename_i call o next hget
              show _ = c.tasks.map Task.call ++ []
              rw [List.append_nil]
              exact map_call_set hget rfl
            · simp [Act.started]
        | stop i => exact absurd List.mem_cons_self (hstop i)
      rw [List.foldl_cons, ih (fun i hi => hstop i (List.mem_cons_of_mem _ hi)), hplay,
        List.flatMap_cons, List.append_assoc]

theorem allowsAll_of_forall {R : Rules ι S ε α σ} {acts : List (Act ι)}
    (h : forall act, act ∈ acts -> forall c, Allows R c act) (c : Pool ι S ε α σ) :
    AllowsAll R c acts := by
  induction acts generalizing c with
  | nil => trivial
  | cons act rest ih =>
      refine ⟨h act (by simp) c, ih ?_ _⟩
      intro act' hact'
      exact h act' (List.mem_cons_of_mem _ hact')

/-- Every act of a schedule passes a test on the pool in which its turn comes. -/
def checks (R : Rules ι S ε α σ) (ok : Pool ι S ε α σ -> Act ι -> Bool) :
    Pool ι S ε α σ -> List (Act ι) -> Bool
  | _, [] => true
  | c, act :: rest => ok c act && checks R ok (play R c act) rest

theorem allowsAll_of_checks {R : Rules ι S ε α σ} {ok : Pool ι S ε α σ -> Act ι -> Bool}
    (hok : forall c act, ok c act = true -> Allows R c act) {acts : List (Act ι)}
    {c : Pool ι S ε α σ} (h : checks R ok c acts = true) : AllowsAll R c acts := by
  induction acts generalizing c with
  | nil => trivial
  | cons act rest ih =>
      rcases Bool.and_eq_true_iff.mp h with ⟨hact, hrest⟩
      exact ⟨hok c act hact, ih hrest⟩

/-- A schedule that passes a test leads through pools with the property that it tests. -/
theorem steps_of_checks {R : Rules ι S ε α σ} {ok : Pool ι S ε α σ -> Act ι -> Bool}
    {Q : Pool ι S ε α σ -> Prop} (hok : forall c act, ok c act = true -> Allows R c act ∧ Q c)
    {acts : List (Act ι)} {c : Pool ι S ε α σ} (h : checks R ok c acts = true) :
    Relation.ReflTransGen (fun c d => Step R c d ∧ Q c) c (acts.foldl (play R) c) := by
  induction acts generalizing c with
  | nil => exact Relation.ReflTransGen.refl
  | cons act rest ih =>
      rcases Bool.and_eq_true_iff.mp h with ⟨hact, hrest⟩
      rcases hok c act hact with ⟨hallows, hQ⟩
      rcases step_play hallows with hsame | hstep
      · rw [List.foldl_cons]
        rw [hsame] at hrest ⊢
        exact ih hrest
      · exact Relation.ReflTransGen.head ⟨hstep, hQ⟩ (ih hrest)

/-!
# Invariants from local obligations
-/

/--
`I` holds of the pool, `T` of the store and each task, and `D` of every two tasks at
different places.
-/
structure Holds (I : Pool ι S ε α σ -> Prop) (T : σ -> Task ι S ε α -> Prop)
    (D : Task ι S ε α -> Task ι S ε α -> Prop) (c : Pool ι S ε α σ) : Prop where
  shared : I c
  each : forall t, t ∈ c.tasks -> T c.store t
  apart : c.tasks.Pairwise D

/-- The local obligations from which `Holds` follows for all reachable pools. -/
structure LocalProof (R : Rules ι S ε α σ) (I : Pool ι S ε α σ -> Prop)
    (T : σ -> Task ι S ε α -> Prop) (D : Task ι S ε α -> Task ι S ε α -> Prop) :
    Prop where
  symm : forall p q, D p q -> D q p
  own : forall (before after : List (Task ι S ε α)) (call : ι) (o : S.Op)
    (next : Option (S.Res o) -> Prog S ε α) (s : σ),
    Holds I T D ⟨s, before ++ ⟨call, .op o next⟩ :: after⟩ ->
    R.permits ⟨s, before ++ ⟨call, .op o next⟩ :: after⟩ ⟨call, .op o next⟩ ->
      I ⟨(R.machine.exec o s).2,
        before ++ ⟨call, next (some (R.machine.exec o s).1)⟩ :: after⟩ ∧
      T (R.machine.exec o s).2 ⟨call, next (some (R.machine.exec o s).1)⟩
  ownFault : forall (before after : List (Task ι S ε α)) (call : ι) (o : S.Op)
    (next : Option (S.Res o) -> Prog S ε α) (s : σ),
    Holds I T D ⟨s, before ++ ⟨call, .op o next⟩ :: after⟩ -> R.mayFail o ->
      I ⟨s, before ++ ⟨call, next none⟩ :: after⟩ ∧ T s ⟨call, next none⟩
  stable : forall (c : Pool ι S ε α σ) (call : ι) (o : S.Op)
    (next : Option (S.Res o) -> Prog S ε α) (q : Task ι S ε α),
    Holds I T D c -> ⟨call, .op o next⟩ ∈ c.tasks -> R.permits c ⟨call, .op o next⟩ ->
    q ∈ c.tasks -> D ⟨call, .op o next⟩ q -> T (R.machine.exec o c.store).2 q
  apartNext : forall (c : Pool ι S ε α σ) (call : ι) (o : S.Op)
    (next : Option (S.Res o) -> Prog S ε α) (q : Task ι S ε α),
    Holds I T D c -> ⟨call, .op o next⟩ ∈ c.tasks -> R.permits c ⟨call, .op o next⟩ ->
    q ∈ c.tasks -> D ⟨call, .op o next⟩ q ->
      D ⟨call, next (some (R.machine.exec o c.store).1)⟩ q
  apartFault : forall (c : Pool ι S ε α σ) (call : ι) (o : S.Op)
    (next : Option (S.Res o) -> Prog S ε α) (q : Task ι S ε α),
    Holds I T D c -> ⟨call, .op o next⟩ ∈ c.tasks -> R.mayFail o -> q ∈ c.tasks ->
    D ⟨call, .op o next⟩ q -> D ⟨call, next none⟩ q
  stopped : forall (before after : List (Task ι S ε α)) (call : ι) (o : S.Op)
    (next : Option (S.Res o) -> Prog S ε α) (s : σ),
    Holds I T D ⟨s, before ++ ⟨call, .op o next⟩ :: after⟩ -> R.mayStop call ->
    R.mayStopAt ⟨s, before ++ ⟨call, .op o next⟩ :: after⟩ ⟨call, .op o next⟩ ->
      I ⟨s, before ++ after⟩
  started : forall (c : Pool ι S ε α σ) (call : ι),
    Holds I T D c -> R.mayStart c call ->
      I ⟨c.store, c.tasks ++ [⟨call, R.program call⟩]⟩ ∧
      T c.store ⟨call, R.program call⟩ ∧
      forall q, q ∈ c.tasks -> D q ⟨call, R.program call⟩
  moved : forall (tasks : List (Task ι S ε α)) (s t : σ),
    Holds I T D ⟨s, tasks⟩ -> R.moves s t ->
      I ⟨t, tasks⟩ ∧ forall q, q ∈ tasks -> T t q

variable {R : Rules ι S ε α σ} {I : Pool ι S ε α σ -> Prop}
  {T : σ -> Task ι S ε α -> Prop} {D : Task ι S ε α -> Task ι S ε α -> Prop}

theorem apart_replace {before after : List (Task ι S ε α)} {p p' : Task ι S ε α}
    (hsymm : forall p q, D p q -> D q p)
    (hnext : forall q, q ∈ before ++ after -> D p q -> D p' q)
    (h : (before ++ p :: after).Pairwise D) :
    (before ++ p' :: after).Pairwise D := by
  rcases List.pairwise_append.mp h with ⟨hbefore, hafter, hcross⟩
  rcases List.pairwise_cons.mp hafter with ⟨hhead, htail⟩
  refine List.pairwise_append.mpr ⟨hbefore, ?_, ?_⟩
  · refine List.pairwise_cons.mpr ⟨?_, htail⟩
    intro q hq
    exact hnext q (List.mem_append_right _ hq) (hhead q hq)
  · intro q hq q' hq'
    rcases List.mem_cons.mp hq' with rfl | hmem
    · have hpq := hsymm _ _ (hcross q hq p (by simp))
      exact hsymm _ _ (hnext q (List.mem_append_left _ hq) hpq)
    · exact hcross q hq q' (by simp [hmem])

theorem apart_of_mem {before after : List (Task ι S ε α)} {p q : Task ι S ε α}
    (hsymm : forall p q, D p q -> D q p) (h : (before ++ p :: after).Pairwise D)
    (hq : q ∈ before ++ after) : D p q := by
  rcases List.pairwise_append.mp h with ⟨_, hafter, hcross⟩
  cases List.mem_append.mp hq with
  | inl hbefore => exact hsymm _ _ (hcross q hbefore p (by simp))
  | inr htail => exact (List.pairwise_cons.mp hafter).left q htail

theorem mem_split_of_mem {τ : Type} {before after : List τ} {p q : τ}
    (hq : q ∈ before ++ after) : q ∈ before ++ p :: after := by
  rcases List.mem_append.mp hq with hbefore | hafter
  · exact List.mem_append_left _ hbefore
  · exact List.mem_append_right _ (List.mem_cons_of_mem _ hafter)

theorem mem_replace {τ : Type} {before after : List τ} {p q : τ}
    (hq : q ∈ before ++ p :: after) : q = p ∨ q ∈ before ++ after := by
  rcases List.mem_append.mp hq with hbefore | htail
  · exact Or.inr (List.mem_append_left _ hbefore)
  · rcases List.mem_cons.mp htail with rfl | hafter
    · exact Or.inl rfl
    · exact Or.inr (List.mem_append_right _ hafter)

theorem holds_step (hproof : LocalProof R I T D) {c d : Pool ι S ε α σ}
    (hstep : Step R c d) (h : Holds I T D c) : Holds I T D d := by
  cases hstep with
  | perform before after call o next s hpermits =>
      have hmem : (⟨call, .op o next⟩ : Task ι S ε α) ∈
          before ++ ⟨call, .op o next⟩ :: after := by simp
      have hown := hproof.own before after call o next s h hpermits
      refine ⟨hown.left, ?_, ?_⟩
      · intro q hq
        rcases mem_replace hq with rfl | hother
        · exact hown.right
        · exact hproof.stable _ call o next q h hmem hpermits (mem_split_of_mem hother)
            (apart_of_mem hproof.symm h.apart hother)
      · refine apart_replace hproof.symm ?_ h.apart
        intro q hq hpq
        exact hproof.apartNext _ call o next q h hmem hpermits (mem_split_of_mem hq) hpq
  | fault before after call o next s hfail =>
      have hmem : (⟨call, .op o next⟩ : Task ι S ε α) ∈
          before ++ ⟨call, .op o next⟩ :: after := by simp
      have hown := hproof.ownFault before after call o next s h hfail
      refine ⟨hown.left, ?_, ?_⟩
      · intro q hq
        rcases mem_replace hq with rfl | hother
        · exact hown.right
        · exact h.each q (mem_split_of_mem hother)
      · refine apart_replace hproof.symm ?_ h.apart
        intro q hq hpq
        exact hproof.apartFault _ call o next q h hmem hfail (mem_split_of_mem hq) hpq
  | stop before after call o next s hstop hat =>
      refine ⟨hproof.stopped before after call o next s h hstop hat, ?_, ?_⟩
      · intro q hq
        exact h.each q (mem_split_of_mem hq)
      · exact h.apart.sublist
          (List.Sublist.append (List.Sublist.refl _) (List.sublist_cons_self _ _))
  | start tasks call s hstart =>
      have hstarted := hproof.started _ call h hstart
      refine ⟨hstarted.left, ?_, ?_⟩
      · intro q hq
        rcases List.mem_append.mp hq with hold | hnew
        · exact h.each q hold
        · rw [List.mem_singleton.mp hnew]
          exact hstarted.right.left
      · refine List.pairwise_append.mpr ⟨h.apart, List.pairwise_singleton _ _, ?_⟩
        intro q hq q' hq'
        rw [List.mem_singleton.mp hq']
        exact hstarted.right.right q hq
  | move tasks s t hmove =>
      have hmoved := hproof.moved tasks s t h hmove
      exact ⟨hmoved.left, hmoved.right, h.apart⟩

/-- Every pool reachable from one in which `Holds` is true has it as well. -/
theorem holds_reaches (hproof : LocalProof R I T D) {c d : Pool ι S ε α σ}
    (hreach : Reaches R c d) (h : Holds I T D c) : Holds I T D d := by
  induction hreach with
  | refl => exact h
  | tail _ hstep ih => exact holds_step hproof hstep ih

/-!
# Tasks that need not know of each other

Often the store keeps an invariant because every task is of a kind that keeps it, and
remains of that kind whatever it is answered.
-/

/-- `K` holds of the store, and `A` of every task. -/
structure Keeps (K : σ -> Prop) (A : Task ι S ε α -> Prop) (c : Pool ι S ε α σ) :
    Prop where
  store : K c.store
  tasks : forall t, t ∈ c.tasks -> A t

structure TaskProof (R : Rules ι S ε α σ) (K : σ -> Prop) (A : Task ι S ε α -> Prop) :
    Prop where
  done : forall (c : Pool ι S ε α σ) (call : ι) (o : S.Op)
    (next : Option (S.Res o) -> Prog S ε α), K c.store -> A ⟨call, .op o next⟩ ->
    R.permits c ⟨call, .op o next⟩ ->
      K (R.machine.exec o c.store).2 ∧
      A ⟨call, next (some (R.machine.exec o c.store).1)⟩
  failed : forall (call : ι) (o : S.Op) (next : Option (S.Res o) -> Prog S ε α),
    A ⟨call, .op o next⟩ -> R.mayFail o -> A ⟨call, next none⟩
  started : forall (c : Pool ι S ε α σ) (call : ι), K c.store -> R.mayStart c call ->
    A ⟨call, R.program call⟩
  moved : forall s t, K s -> R.moves s t -> K t

theorem keeps_step {K : σ -> Prop} {A : Task ι S ε α -> Prop} (hproof : TaskProof R K A)
    {c d : Pool ι S ε α σ} (hstep : Step R c d) (h : Keeps K A c) : Keeps K A d := by
  have hreplace : forall {before after : List (Task ι S ε α)} {t t' : Task ι S ε α},
      (forall q, q ∈ before ++ t :: after -> A q) -> A t' ->
      forall q, q ∈ before ++ t' :: after -> A q := by
    intro before after t t' hall ht' q hq
    rcases mem_replace hq with rfl | hother
    · exact ht'
    · exact hall q (mem_split_of_mem hother)
  cases hstep with
  | perform before after call o next s hpermits =>
      have hdone := hproof.done _ call o next h.store (h.tasks _ (by simp)) hpermits
      exact ⟨hdone.left, hreplace h.tasks hdone.right⟩
  | fault before after call o next s hfail =>
      exact ⟨h.store, hreplace h.tasks (hproof.failed call o next (h.tasks _ (by simp)) hfail)⟩
  | stop before after call o next s _ _ =>
      exact ⟨h.store, fun q hq => h.tasks q (mem_split_of_mem hq)⟩
  | start tasks call s hstart =>
      refine ⟨h.store, ?_⟩
      intro q hq
      rcases List.mem_append.mp hq with hold | hnew
      · exact h.tasks q hold
      · rw [List.mem_singleton.mp hnew]
        exact hproof.started _ call h.store hstart
  | move tasks s t hmove => exact ⟨hproof.moved s t h.store hmove, h.tasks⟩

theorem keeps_reaches {K : σ -> Prop} {A : Task ι S ε α -> Prop}
    (hproof : TaskProof R K A) {c d : Pool ι S ε α σ} (hreach : Reaches R c d)
    (h : Keeps K A c) : Keeps K A d := by
  induction hreach with
  | refl => exact h
  | tail _ hstep ih => exact keeps_step hproof hstep ih

end Pool

end Programs
end ConversationService
