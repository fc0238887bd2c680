import ConversationService.Library.Pools

/-!
# What the tasks of a run have done

The runs of a pool once more, in which each task keeps a log of the operations that it has
performed, with the store that each of them found. Without the logs these are the runs of
the pool. What a task owes before it answers can be read off its own log, also where several
tasks make the same call.
-/

namespace ConversationService
namespace Programs

variable {ι : Type} {S : Signature} {ε α σ : Type}

structure LoggedTask (ι : Type) (S : Signature) (ε α σ : Type) where
  task : Task ι S ε α
  log : List (σ × S.Op)

namespace Pool

/-- The pool without the logs. -/
def unlogged (s : σ) (tasks : List (LoggedTask ι S ε α σ)) : Pool ι S ε α σ :=
  ⟨s, tasks.map LoggedTask.task⟩

/-- The runs that begin with a store and no task. -/
inductive LoggedRun (R : Rules ι S ε α σ) (s : σ) :
    σ -> List (LoggedTask ι S ε α σ) -> Prop where
  | empty : LoggedRun R s s []
  | perform (before after : List (LoggedTask ι S ε α σ)) (call : ι) (o : S.Op)
      (next : Option (S.Res o) -> Prog S ε α) (log : List (σ × S.Op)) (t : σ) :
      LoggedRun R s t (before ++ ⟨⟨call, .op o next⟩, log⟩ :: after) ->
      R.permits (unlogged t (before ++ ⟨⟨call, .op o next⟩, log⟩ :: after)) ⟨call, .op o next⟩ ->
      LoggedRun R s (R.machine.exec o t).2
        (before ++ ⟨⟨call, next (some (R.machine.exec o t).1)⟩, log ++ [(t, o)]⟩ :: after)
  | fault (before after : List (LoggedTask ι S ε α σ)) (call : ι) (o : S.Op)
      (next : Option (S.Res o) -> Prog S ε α) (log : List (σ × S.Op)) (t : σ) :
      LoggedRun R s t (before ++ ⟨⟨call, .op o next⟩, log⟩ :: after) -> R.mayFail o ->
      LoggedRun R s t (before ++ ⟨⟨call, next none⟩, log⟩ :: after)
  | stop (before after : List (LoggedTask ι S ε α σ)) (call : ι) (o : S.Op)
      (next : Option (S.Res o) -> Prog S ε α) (log : List (σ × S.Op)) (t : σ) :
      LoggedRun R s t (before ++ ⟨⟨call, .op o next⟩, log⟩ :: after) -> R.mayStop call ->
      R.mayStopAt (unlogged t (before ++ ⟨⟨call, .op o next⟩, log⟩ :: after))
        ⟨call, .op o next⟩ ->
      LoggedRun R s t (before ++ after)
  | start (tasks : List (LoggedTask ι S ε α σ)) (call : ι) (t : σ) :
      LoggedRun R s t tasks -> R.mayStart (unlogged t tasks) call ->
      LoggedRun R s t (tasks ++ [⟨⟨call, R.program call⟩, []⟩])
  | move (tasks : List (LoggedTask ι S ε α σ)) (t u : σ) :
      LoggedRun R s t tasks -> R.moves t u -> LoggedRun R s u tasks

variable {R : Rules ι S ε α σ} {s t : σ} {tasks : List (LoggedTask ι S ε α σ)}

theorem unlogged_split (before after : List (LoggedTask ι S ε α σ))
    (p : LoggedTask ι S ε α σ) (t : σ) :
    unlogged t (before ++ p :: after) =
      ⟨t, before.map LoggedTask.task ++ p.task :: after.map LoggedTask.task⟩ := by
  unfold unlogged
  rw [List.map_append, List.map_cons]

theorem reaches_of_loggedRun (h : LoggedRun R s t tasks) :
    Reaches R ⟨s, []⟩ (unlogged t tasks) := by
  induction h with
  | empty => exact Relation.ReflTransGen.refl
  | perform before after call o next log t _ hpermits ih =>
      rw [unlogged_split] at ih hpermits ⊢
      exact ih.tail (Step.perform _ _ call o next t hpermits)
  | fault before after call o next log t _ hfail ih =>
      rw [unlogged_split] at ih ⊢
      exact ih.tail (Step.fault _ _ call o next t hfail)
  | stop before after call o next log t _ hstop hat ih =>
      rw [unlogged_split] at ih hat
      unfold unlogged
      rw [List.map_append]
      exact ih.tail (Step.stop _ _ call o next t hstop hat)
  | start tasks call t _ hstart ih =>
      unfold unlogged
      rw [List.map_append]
      exact ih.tail (Step.start _ call t hstart)
  | move tasks t u _ hmove ih => exact ih.tail (Step.move _ t u hmove)

theorem logged_of_split {before after : List (Task ι S ε α)} {p : Task ι S ε α}
    (h : tasks.map LoggedTask.task = before ++ p :: after) :
    exists before' log after', tasks = before' ++ ⟨p, log⟩ :: after' ∧
      before'.map LoggedTask.task = before ∧ after'.map LoggedTask.task = after := by
  rcases List.map_eq_append_iff.mp h with ⟨before', rest, rfl, hbefore, hrest⟩
  rcases List.map_eq_cons_iff.mp hrest with ⟨⟨task, log⟩, after', rfl, rfl, hafter⟩
  exact ⟨before', log, after', rfl, hbefore, hafter⟩

/-- Every run can be logged. -/
theorem exists_loggedRun {c : Pool ι S ε α σ} (h : Reaches R ⟨s, []⟩ c) :
    exists tasks, tasks.map LoggedTask.task = c.tasks ∧ LoggedRun R s c.store tasks := by
  induction h with
  | refl => exact ⟨[], rfl, LoggedRun.empty⟩
  | tail _ hstep ih =>
      rcases ih with ⟨tasks, htasks, hrun⟩
      cases hstep with
      | perform before after call o next t hpermits =>
          rcases logged_of_split htasks with ⟨before', log, after', rfl, rfl, rfl⟩
          refine ⟨_, ?_, LoggedRun.perform before' after' call o next log t hrun ?_⟩
          · rw [List.map_append, List.map_cons]
          · rw [unlogged_split]
            exact hpermits
      | fault before after call o next t hfail =>
          rcases logged_of_split htasks with ⟨before', log, after', rfl, rfl, rfl⟩
          refine ⟨_, ?_, LoggedRun.fault before' after' call o next log t hrun hfail⟩
          rw [List.map_append, List.map_cons]
      | stop before after call o next t hstop hat =>
          rcases logged_of_split htasks with ⟨before', log, after', rfl, rfl, rfl⟩
          refine ⟨_, ?_, LoggedRun.stop before' after' call o next log t hrun hstop ?_⟩
          · rw [List.map_append]
          · rw [unlogged_split]
            exact hat
      | start started call t hstart =>
          refine ⟨_, ?_, LoggedRun.start tasks call t hrun ?_⟩
          · rw [List.map_append, htasks]
            rfl
          · unfold unlogged
            rw [htasks]
            exact hstart
      | move started t u hmove => exact ⟨tasks, htasks, LoggedRun.move tasks t u hrun hmove⟩

/-!
# What holds of every task
-/

/-- What a task has when it starts and keeps in its own steps. -/
structure LogProof (R : Rules ι S ε α σ) (s : σ) (K : LoggedTask ι S ε α σ -> Prop) : Prop where
  performed : forall (t : σ) (tasks : List (LoggedTask ι S ε α σ)) (call : ι) (o : S.Op)
    (next : Option (S.Res o) -> Prog S ε α) (log : List (σ × S.Op)),
    LoggedRun R s t tasks -> ⟨⟨call, .op o next⟩, log⟩ ∈ tasks ->
    R.permits (unlogged t tasks) ⟨call, .op o next⟩ -> K ⟨⟨call, .op o next⟩, log⟩ ->
      K ⟨⟨call, next (some (R.machine.exec o t).1)⟩, log ++ [(t, o)]⟩
  failed : forall (call : ι) (o : S.Op) (next : Option (S.Res o) -> Prog S ε α)
    (log : List (σ × S.Op)), K ⟨⟨call, .op o next⟩, log⟩ -> K ⟨⟨call, next none⟩, log⟩
  started : forall call, K ⟨⟨call, R.program call⟩, []⟩

theorem holds_loggedRun {K : LoggedTask ι S ε α σ -> Prop} (hproof : LogProof R s K)
    (h : LoggedRun R s t tasks) : forall p, p ∈ tasks -> K p := by
  induction h with
  | empty =>
      intro p hp
      cases hp
  | perform before after call o next log t hrun hpermits ih =>
      have hmem : (⟨⟨call, .op o next⟩, log⟩ : LoggedTask ι S ε α σ) ∈
          before ++ ⟨⟨call, .op o next⟩, log⟩ :: after := by simp
      intro p hp
      rcases mem_replace hp with rfl | hother
      · exact hproof.performed t _ call o next log hrun hmem hpermits (ih _ hmem)
      · exact ih p (mem_split_of_mem hother)
  | fault before after call o next log t _ _ ih =>
      intro p hp
      rcases mem_replace hp with rfl | hother
      · exact hproof.failed call o next log (ih _ (by simp))
      · exact ih p (mem_split_of_mem hother)
  | stop before after call o next log t _ _ _ ih =>
      intro p hp
      exact ih p (mem_split_of_mem hp)
  | start tasks call t _ _ ih =>
      intro p hp
      rcases List.mem_append.mp hp with hold | hnew
      · exact ih p hold
      · rw [List.mem_singleton.mp hnew]
        exact hproof.started call
  | move tasks t u _ _ ih => exact ih

end Pool
end Programs
end ConversationService
