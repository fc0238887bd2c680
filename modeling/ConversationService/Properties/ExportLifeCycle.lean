import ConversationService.Effects.ExportStatements

/-!
# The life cycle of an export job

Any number of creations, processing runs and cleanups, statement by statement, with
processing runs that outlive their lease and with processes that stop. The status of a job
only moves along the life cycle, attempts are bounded, and no request has two live jobs.
-/

namespace ConversationService

open Python ClusteredTable Programs

/-- The arrows of the life cycle. -/
inductive StatusMove : JobStatus -> JobStatus -> Prop where
  | claimed : StatusMove .pending .processing
  | finished : StatusMove .processing .ready
  | expired : StatusMove .ready .expired
  | failedPending : StatusMove .pending .failed
  | failedProcessing : StatusMove .processing .failed
  | released : StatusMove .processing .pending

/-- What a row of a job may become. -/
structure JobMoves (j j' : ExportJob) : Prop where
  status : j'.status = j.status ∨ StatusMove j.status j'.status
  attempts : j.attemptCount ≤ j'.attemptCount
  owner : j'.ownerUserId = j.ownerUserId
  requestKey : j'.requestKey = j.requestKey

/-- What happens to a job between two stores; only a failed or expired one is pruned. -/
def JobEvolves (s t : ExportStore) (id : UUID) : Prop :=
  match s.job id, t.job id with
  | none, none => True
  | none, some j => j.status = .pending ∧ j.attemptCount = 0
  | some j, none => j.status = .failed ∨ j.status = .expired
  | some j, some j' => JobMoves j j'

structure JobsSound (cfg : ExportSettings) (s : ExportStore) : Prop where
  attempts : forall id j, s.job id = some j -> j.attemptCount ≤ cfg.maxAttempts
  ready : forall id j, s.job id = some j -> j.status = .ready ->
    j.objectKey.isSome ∧ j.sizeBytes.isSome ∧ j.checksumSha256.isSome ∧ j.expiresAt.isSome
  oneLive : forall id id' j j', s.job id = some j -> s.job id' = some j' ->
    j.isLive = true -> j'.isLive = true -> j.ownerUserId = j'.ownerUserId ->
    j.requestKey = j'.requestKey -> id = id'

/-!
# One statement
-/

theorem isUnfinished_iff {j : ExportJob} :
    j.isUnfinished = true <-> j.status = .pending ∨ j.status = .processing := by
  simp [ExportJob.isUnfinished]

theorem isLive_iff {j : ExportJob} : j.isLive = true <->
    j.status = .pending ∨ j.status = .processing ∨ j.status = .ready := by
  simp [ExportJob.isLive, ExportJob.isUnfinished, or_assoc]

section Updates

variable {cfg : ExportSettings} {now : Nat} {j j' : ExportJob}

theorem moves_claim (h : j.isUnfinished = true) (lease : Nat) :
    JobMoves j
      { j with
        status := .processing
        attemptCount := j.attemptCount + 1
        leaseUntil := some (now + lease)
        updatedAt := now } := by
  refine ⟨?_, Nat.le_succ _, rfl, rfl⟩
  rcases isUnfinished_iff.mp h with hpending | hprocessing
  · right
    rw [hpending]
    exact StatusMove.claimed
  · exact Or.inl hprocessing.symm

theorem moves_set (change : JobChange) (h : j.status ∈ change.allowed) :
    JobMoves j (change.apply now j) := by
  cases change with
  | progress done total => exact ⟨Or.inl rfl, Nat.le_refl _, rfl, rfl⟩
  | ready objectKey filename contentType size checksum conversations retention =>
      refine ⟨Or.inr ?_, Nat.le_refl _, rfl, rfl⟩
      rw [List.mem_singleton.mp h]
      exact StatusMove.finished
  | fail code =>
      refine ⟨Or.inr ?_, Nat.le_refl _, rfl, rfl⟩
      rcases List.mem_cons.mp h with hpending | hrest
      · rw [hpending]
        exact StatusMove.failedPending
      · rw [List.mem_singleton.mp hrest]
        exact StatusMove.failedProcessing
  | release delay =>
      refine ⟨Or.inr ?_, Nat.le_refl _, rfl, rfl⟩
      rw [List.mem_singleton.mp h]
      exact StatusMove.released
  | expire =>
      refine ⟨Or.inr ?_, Nat.le_refl _, rfl, rfl⟩
      rw [List.mem_singleton.mp h]
      exact StatusMove.expired

theorem moves_update (h : RowUpdate cfg now j j') : JobMoves j j' := by
  cases h with
  | claim lease hunfinished _ => exact moves_claim hunfinished lease
  | set change hallowed => exact moves_set change hallowed
  | lapse hready =>
      refine ⟨Or.inr ?_, Nat.le_refl _, rfl, rfl⟩
      rw [hready]
      exact StatusMove.expired

theorem live_of_moves (h : JobMoves j j') (hlive : j'.isLive = true) : j.isLive = true := by
  rw [isLive_iff] at hlive ⊢
  rcases h.status with hsame | hmove
  · rw [← hsame]
    exact hlive
  · generalize j.status = before at hmove ⊢
    generalize j'.status = after at hlive hmove
    cases hmove with
    | claimed => exact Or.inl rfl
    | finished => exact Or.inr (Or.inl rfl)
    | expired => simp at hlive
    | failedPending => simp at hlive
    | failedProcessing => simp at hlive
    | released => exact Or.inr (Or.inl rfl)

theorem attempts_update (h : RowUpdate cfg now j j') (hj : j.attemptCount ≤ cfg.maxAttempts) :
    j'.attemptCount ≤ cfg.maxAttempts := by
  cases h with
  | claim lease _ hbelow => exact hbelow
  | set change _ =>
      cases change with
      | progress done total => exact hj
      | ready objectKey filename contentType size checksum conversations retention => exact hj
      | fail code => exact hj
      | release delay => exact hj
      | expire => exact hj
  | lapse _ => exact hj

theorem ready_update (h : RowUpdate cfg now j j') (hready : j'.status = .ready) :
    j.status = .processing ∧
      exists objectKey filename contentType size checksum conversations retention,
        j' = JobChange.apply now
          (.ready objectKey filename contentType size checksum conversations retention) j := by
  cases h with
  | claim lease _ _ => cases hready
  | set change hallowed =>
      cases change with
      | progress done total =>
          rw [show (JobChange.apply now (.progress done total) j).status = j.status from rfl,
            List.mem_singleton.mp hallowed] at hready
          cases hready
      | ready objectKey filename contentType size checksum conversations retention =>
          exact ⟨List.mem_singleton.mp hallowed, _, _, _, _, _, _, _, rfl⟩
      | fail code => cases hready
      | release delay => cases hready
      | expire => cases hready
  | lapse _ => cases hready

end Updates

section Steps

variable {cfg : ExportSettings} {s t : ExportStore}

theorem evolves_of_eq {id : UUID} (h : t.job id = s.job id) : JobEvolves s t id := by
  unfold JobEvolves
  rw [h]
  cases s.job id with
  | none => trivial
  | some j => exact ⟨Or.inl rfl, Nat.le_refl _, rfl, rfl⟩

theorem evolves_rowStep {id : UUID} (h : RowStep cfg s t id) : JobEvolves s t id := by
  cases h with
  | same heq => exact evolves_of_eq heq
  | updated j j' hj hj' hupdate =>
      unfold JobEvolves
      rw [hj, hj']
      exact moves_update hupdate
  | inserted job hj hj' _ =>
      unfold JobEvolves
      rw [hj, hj']
      exact ⟨rfl, rfl⟩
  | pruned j hj hj' hstatus =>
      unfold JobEvolves
      rw [hj, hj']
      exact hstatus

theorem live_rowStep {id : UUID} {j' : ExportJob} (h : RowStep cfg s t id)
    (hj' : t.job id = some j') (hlive : j'.isLive = true) :
    (exists j, s.job id = some j ∧ j.isLive = true ∧ j'.ownerUserId = j.ownerUserId ∧
      j'.requestKey = j.requestKey) ∨
    forall id' k, t.job id' = some k -> k.isLive = true ->
      k.isRequest j'.ownerUserId j'.requestKey = true -> id' = id := by
  cases h with
  | same heq => exact Or.inl ⟨j', heq ▸ hj', hlive, rfl, rfl⟩
  | updated j k hj hk hupdate =>
      rw [hk] at hj'
      cases hj'
      have hmoves := moves_update hupdate
      exact Or.inl ⟨j, hj, live_of_moves hmoves hlive, hmoves.owner, hmoves.requestKey⟩
  | inserted job _ hk honly =>
      rw [hk] at hj'
      cases hj'
      exact Or.inr honly
  | pruned j _ hk _ =>
      rw [hk] at hj'
      cases hj'

theorem isRequest_of_eq {j j' : ExportJob} (howner : j.ownerUserId = j'.ownerUserId)
    (hkey : j.requestKey = j'.requestKey) :
    j.isRequest j'.ownerUserId j'.requestKey = true := by
  simp [ExportJob.isRequest, howner, hkey]

theorem jobsSound_step (h : JobsSound cfg s) (hstep : forall id, RowStep cfg s t id) :
    JobsSound cfg t where
  attempts := by
    intro id j hj
    cases hstep id with
    | same heq => exact h.attempts id j (heq ▸ hj)
    | updated k k' hk hk' hupdate =>
        rw [hk'] at hj
        cases hj
        exact attempts_update hupdate (h.attempts id k hk)
    | inserted job _ hk _ =>
        rw [hk] at hj
        cases hj
        exact Nat.zero_le _
    | pruned k _ hk _ =>
        rw [hk] at hj
        cases hj
  ready := by
    intro id j hj hready
    cases hstep id with
    | same heq => exact h.ready id j (heq ▸ hj) hready
    | updated k k' hk hk' hupdate =>
        rw [hk'] at hj
        cases hj
        rcases ready_update hupdate hready with ⟨_, _, _, _, _, _, _, _, heq⟩
        rw [heq]
        exact ⟨rfl, rfl, rfl, rfl⟩
    | inserted job _ hk _ =>
        rw [hk] at hj
        cases hj
        cases hready
    | pruned k _ hk _ =>
        rw [hk] at hj
        cases hj
  oneLive := by
    intro id id' j j' hj hj' hlive hlive' howner hkey
    rcases live_rowStep (hstep id) hj hlive with ⟨k, hk, hkLive, hkOwner, hkKey⟩ | honly
    · rcases live_rowStep (hstep id') hj' hlive' with ⟨k', hk', hkLive', hkOwner', hkKey'⟩ |
        honly
      · refine h.oneLive id id' k k' hk hk' hkLive hkLive' ?_ ?_
        · rw [← hkOwner, ← hkOwner', howner]
        · rw [← hkKey, ← hkKey', hkey]
      · exact honly id j hj hlive (isRequest_of_eq howner hkey)
    · exact (honly id' j' hj' hlive' (isRequest_of_eq howner.symm hkey.symm)).symm

end Steps

/-!
# Runs
-/

section Runs

variable {svc : ExportService} {permits : ExportPool -> ExportTask -> Prop}

theorem taskProof_sent : Pool.TaskProof (exportRules svc permits) (JobsSound svc.cfg)
    (fun t => Prog.AllOps (ExportOp.Sent svc.cfg) t.prog) where
  done := by
    intro pool call o next hsound hsent _
    exact ⟨jobsSound_step hsound (fun id => rowStep_exec hsent.left), hsent.right _⟩
  failed := by
    intro call o next hsent _
    exact hsent.right none
  started := by
    intro pool call _ _
    exact sent_program call
  moved := by
    intro s t hsound hmove
    apply jobsSound_step hsound
    intro id
    apply RowStep.same
    unfold ExportStore.job
    rw [hmove.jobs]

theorem jobsSound_blank : JobsSound svc.cfg .blank := by
  have hnone : forall id j, ExportStore.blank.job id ≠ some j := by
    intro id j h
    cases h
  constructor
  · intro id j h
    exact absurd h (hnone id j)
  · intro id j h
    exact absurd h (hnone id j)
  · intro id id' j j' h
    exact absurd h (hnone id j)

theorem evolves_step {pool pool' : ExportPool}
    (hsent : forall t, t ∈ pool.tasks -> Prog.AllOps (ExportOp.Sent svc.cfg) t.prog)
    (hstep : Pool.Step (exportRules svc permits) pool pool') (id : UUID) :
    JobEvolves pool.store pool'.store id := by
  cases hstep with
  | perform before after call o next s _ =>
      have htask : Prog.AllOps (ExportOp.Sent svc.cfg) (.op o next : ExportProg ExportAnswer) :=
        hsent ⟨call, .op o next⟩ (by simp)
      exact evolves_rowStep (rowStep_exec htask.left)
  | fault before after call o next s _ => exact evolves_of_eq rfl
  | stop before after call o next s _ _ => exact evolves_of_eq rfl
  | start tasks call s _ => exact evolves_of_eq rfl
  | move tasks s t hmove =>
      apply evolves_of_eq
      unfold ExportStore.job
      rw [hmove.jobs]

/--
In every reachable pool the jobs are sound, and every step from it leaves each job as it
is, moves it along its life cycle, creates it or prunes it.
-/
theorem export_life_cycle {pool : ExportPool}
    (hreach : Pool.Reaches (exportRules svc (fun _ _ => True)) ⟨.blank, []⟩ pool) :
    JobsSound svc.cfg pool.store ∧
      forall pool', Pool.Step (exportRules svc (fun _ _ => True)) pool pool' ->
        forall id, JobEvolves pool.store pool'.store id := by
  have hkeeps := Pool.keeps_reaches taskProof_sent hreach
    ⟨jobsSound_blank, fun _ h => by cases h⟩
  exact ⟨hkeeps.store, fun pool' hstep id => evolves_step hkeeps.tasks hstep id⟩

end Runs

/-!
# A job that becomes ready
-/

def exportOwner : UUID := .ofInt 1

/-- The stores behind one conversation without messages. -/
def oneConversation : Store :=
  (Op.exec (.batchCreateConversation (.ofInt 2) exportOwner (text "t") ⟨0, true⟩ .active none
    none 0 (.ofInt 3)
    { eventType := []
      payload :=
        { conversationId := .ofInt 2
          userId := none
          title := none
          status := []
          parentConversationId := none
          branchMessageId := none
          createdAt := none }
      published := false
      createdAt := ⟨0, true⟩ }) Store.blank).2

def shortFile : RenderedFile := ⟨[0x23], text "t.md", text "text/markdown"⟩

def ExportStore.oneConversation : ExportStore :=
  { ExportStore.blank with
    sources := ConversationService.oneConversation
    rendering := .ok shortFile }

def exportService : ExportService := ⟨.default, none⟩

def exportRequest : ExportService.Request :=
  { owner := exportOwner
    conversationId := .ofInt 2
    scope := .conversation
    format := .markdown
    includeMedia := false }

def exported : List (Pool.Act ExportCall) :=
  [.start (.create exportRequest (.ofInt 4))] ++ List.replicate 6 (.perform 0) ++
    [.start (.process (.ofInt 4))] ++ List.replicate 10 (.perform 1)

def playedExports (acts : List (Pool.Act ExportCall)) : ExportPool :=
  acts.foldl (Pool.play (exportRules exportService (fun _ _ => True))) ⟨.oneConversation, []⟩

theorem reaches_oneConversation (permits : ExportPool -> ExportTask -> Prop) :
    Pool.Reaches (exportRules exportService permits) ⟨.blank, []⟩ ⟨.oneConversation, []⟩ :=
  Relation.ReflTransGen.single (Pool.Step.move [] _ _ ⟨Nat.le_refl _, rfl, rfl⟩)

theorem allowsAll_exports (pool : ExportPool) (acts : List (Pool.Act ExportCall)) :
    Pool.AllowsAll (exportRules exportService (fun _ _ => True)) pool acts := by
  apply Pool.allowsAll_of_forall
  intro act hact pool
  cases act with
  | start call => trivial
  | perform i => exact fun _ _ => trivial
  | fault i => exact fun _ _ _ _ => trivial
  | stop i => exact fun _ _ => ⟨trivial, trivial⟩

theorem reaches_playedExports (acts : List (Pool.Act ExportCall)) :
    Pool.Reaches (exportRules exportService (fun _ _ => True)) ⟨.blank, []⟩
      (playedExports acts) :=
  Relation.ReflTransGen.trans (reaches_oneConversation _)
    (Pool.reaches_schedule (allowsAll_exports _ acts))

theorem export_life_cycle_ready :
    ((playedExports exported).store.job (.ofInt 4)).map ExportJob.status = some .ready ∧
      JobsSound exportService.cfg (playedExports exported).store ∧
      forall pool', Pool.Step (exportRules exportService (fun _ _ => True))
        (playedExports exported) pool' ->
        forall id, JobEvolves (playedExports exported).store pool'.store id := by
  have hready : ((playedExports exported).store.job (.ofInt 4)).map ExportJob.status =
      some .ready := by
    decide +kernel
  exact ⟨hready, export_life_cycle (reaches_playedExports exported)⟩

end ConversationService
