import ConversationService.Effects.ArtifactStatements

/-!
# Manual retries

A retry reads the count of earlier ones and then writes that count and one more, wherever
the row is still failed. Each retry is counted and the limit is kept as long as no retry
finds the artifact failed again with a count that it has not read.
-/

namespace ConversationService

open Python ClusteredTable Programs

/-- How often the artifact has been moved from `failed` to `pending` by a retry. -/
def ArtifactStore.retries (s : ArtifactStore) (id : UUID) : Nat :=
  (s.eventsOf id).count (.retried id)

/-- The limit is kept, and the row has the number of the retries. -/
def RetriesCounted (cfg : ArtifactSettings) (s : ArtifactStore) (id : UUID) : Prop :=
  s.retries id ≤ cfg.maxManualRetries ∧
    forall row, s.row id = some row -> row.retryCount = s.retries id

/-- A retry that finds the artifact failed finds the count that it has read. -/
def RetriesWhatItRead (pool : ArtifactPool) (t : ArtifactTask) : Prop :=
  forall id allowedFrom retries next row,
    t.prog = .op (.cas id allowedFrom (.retry retries)) next -> pool.store.row id = some row ->
    row.status = .failed -> retries = row.retryCount + 1

/-!
# One operation
-/

section Statements

variable {cfg : ArtifactSettings} {s : ArtifactStore} {id : UUID}

/-- Behind an artifact that is not there lie no retries. -/
structure RetriesSound (cfg : ArtifactSettings) (s : ArtifactStore) (id : UUID) : Prop where
  counted : RetriesCounted cfg s id
  absent : s.row id = none -> s.retries id = 0

theorem retries_cons {t : ArtifactStore} {event : ArtifactEvent}
    (hevents : t.eventsOf id = event :: s.eventsOf id) (hevent : event ≠ .retried id) :
    t.retries id = s.retries id := by
  unfold ArtifactStore.retries
  rw [hevents]
  exact List.count_cons_of_ne hevent

theorem retriesSound_row {t : ArtifactStore} {row row' : ArtifactRow}
    (h : RetriesSound cfg s id) (hrow : s.row id = some row) (hrow' : t.row id = some row')
    (hretries : t.retries id = s.retries id) (hcount : row'.retryCount = row.retryCount) :
    RetriesSound cfg t id := by
  refine ⟨⟨?_, ?_⟩, ?_⟩
  · rw [hretries]
    exact h.counted.left
  · intro row'' hrow''
    rw [hrow'] at hrow''
    cases hrow''
    rw [hretries, hcount]
    exact h.counted.right row hrow
  · intro hnone
    rw [hrow'] at hnone
    cases hnone

theorem retriesSound_change {t : ArtifactStore} {allowedFrom : List ArtifactStatus}
    {change : ArtifactChange} {row : ArtifactRow} {call : ArtifactCall}
    (h : RetriesSound cfg s id) (hrow : s.row id = some row)
    (hsent : change.SentBy cfg call id allowedFrom)
    (hread : forall retries, change = .retry retries -> retries = row.retryCount + 1)
    (hrow' : t.row id = some (change.apply s.now row))
    (hevents : t.eventsOf id = change.events id ++ s.eventsOf id) : RetriesSound cfg t id := by
  cases change with
  | retry retries =>
      have hcounts : t.retries id = s.retries id + 1 := by
        unfold ArtifactStore.retries
        rw [hevents]
        exact List.count_cons_self
      have hretries : retries = s.retries id + 1 := by
        rw [hread retries rfl, h.counted.right row hrow]
      refine ⟨⟨?_, ?_⟩, ?_⟩
      · rw [hcounts, ← hretries]
        exact hsent.right.right
      · intro row' hchanged
        rw [hrow'] at hchanged
        cases hchanged
        rw [hcounts]
        exact hretries
      · intro hnone
        rw [hrow'] at hnone
        cases hnone
  | requeue => exact retriesSound_row h hrow hrow' (retries_cons hevents (fun h => by cases h)) rfl
  | missing => exact retriesSound_row h hrow hrow' (retries_cons hevents (fun h => by cases h)) rfl
  | queue jobId attempts =>
      exact retriesSound_row h hrow hrow' (congrArg _ hevents) rfl
  | moveTo status => exact retriesSound_row h hrow hrow' (congrArg _ hevents) rfl
  | ready objectKey thumbnailKey size checksum =>
      exact retriesSound_row h hrow hrow' (congrArg _ hevents) rfl
  | fail code => exact retriesSound_row h hrow hrow' (congrArg _ hevents) rfl

theorem retriesSound_same {t : ArtifactStore} (h : RetriesSound cfg s id)
    (hrow : t.row id = s.row id) (hretries : t.retries id = s.retries id) :
    RetriesSound cfg t id := by
  cases hold : s.row id with
  | some row => exact retriesSound_row h hold (hrow.trans hold) hretries rfl
  | none =>
      have hzero := h.absent hold
      refine ⟨⟨?_, ?_⟩, fun _ => hretries.trans hzero⟩
      · rw [hretries]
        exact h.counted.left
      · intro row hnew
        rw [hrow, hold] at hnew
        cases hnew

theorem retriesSound_exec {pool : ArtifactPool} {call : ArtifactCall} {o : ArtifactOp}
    {next : Option o.Res -> ArtifactProg ArtifactAnswer} (hsent : o.SentBy cfg call)
    (hread : RetriesWhatItRead pool ⟨call, .op o next⟩) (h : RetriesSound cfg pool.store id) :
    RetriesSound cfg (o.exec pool.store).2 id := by
  cases artifactStep_exec pool.store id o with
  | same hrow hevents => exact retriesSound_same h hrow (congrArg _ hevents)
  | submitted row job ho hanswer hrow hevents =>
      exact retriesSound_same h hrow (retries_cons hevents (fun h => by cases h))
  | registered new ref ho hnone hcontent hrow hevents =>
      subst ho
      have hzero := (retries_cons hevents (fun h => by cases h)).trans (h.absent hnone)
      refine ⟨⟨?_, ?_⟩, fun _ => hzero⟩
      · rw [hzero]
        exact Nat.zero_le _
      · intro row hnew
        rw [hrow] at hnew
        cases hnew
        rw [hzero]
        exact hsent.right.retries
  | claimed worker lease row ho hrow hactive hfree hput hevents =>
      exact retriesSound_row h hrow hput (retries_cons hevents (fun h => by cases h)) rfl
  | changed allowedFrom change row ho hrow hallowed hput hevents =>
      subst ho
      refine retriesSound_change h hrow hsent ?_ hput hevents
      intro retries hchange
      subst hchange
      apply hread id allowedFrom retries next row rfl hrow
      rw [hsent.right.left] at hallowed
      exact List.mem_singleton.mp hallowed
  | leased lease row ho hlease hrow hput hevents =>
      exact retriesSound_row h hrow hput (congrArg _ hevents) rfl

end Statements

/-!
# Runs
-/

section Runs

variable {svc : ArtifactService}

theorem taskProof_retries :
    Pool.TaskProof (artifactRules svc RetriesWhatItRead True)
      (fun s => forall id, RetriesSound svc.cfg s id)
      (fun t => Prog.AllOps (ArtifactOp.SentBy svc.cfg t.call) t.prog) where
  done pool call o next hsound hsent hpermits :=
    ⟨fun id => retriesSound_exec hsent.left hpermits (hsound id), hsent.right _⟩
  failed _ _ _ hsent _ := hsent.right none
  started _ _ _ _ := kind_program kind_sent
  moved s t hsound hmove := by
    intro id
    apply retriesSound_same (hsound id)
    · show t.artifacts.get id = s.artifacts.get id
      rw [hmove.artifacts]
    · show (t.history.filter _).count _ = (s.history.filter _).count _
      rw [hmove.history]

/--
In every run in which no retry finds the artifact failed with a count that it has not read,
the retries are counted and bounded.
-/
theorem manual_retries_bounded {pool : ArtifactPool}
    (hreach : Pool.Reaches (artifactRules svc RetriesWhatItRead True) ⟨.blank, []⟩ pool)
    (id : UUID) : RetriesCounted svc.cfg pool.store id := by
  have hblank : forall id, RetriesSound svc.cfg ArtifactStore.blank id :=
    fun _ => ⟨⟨Nat.zero_le _, fun _ h => by cases h⟩, fun _ => rfl⟩
  have hkeeps := Pool.keeps_reaches taskProof_retries hreach
    ⟨hblank, fun _ h => by cases h⟩
  exact (hkeeps.store id).counted

end Runs

/-!
# An animation that is retried
-/

def artifactOwner : UUID := .ofInt 1

def oneRetryService : ArtifactService :=
  ⟨{ ArtifactSettings.default with maxManualRetries := 1 }, id⟩

def animation : ArtifactService.Registration :=
  { owner := artifactOwner
    conversationId := .ofInt 2
    sourceMessageId := .ofInt 3
    artifactType := text "manim"
    content := .obj [(text "template", .str (text "t"))]
    blockId := []
    title := none }

def animationId : UUID := .ofInt 0x174f49fca3325fc0b85c80fd6c0600a1

def rejected : List (Pool.Act ArtifactCall) :=
  [.start (.register animation), .perform 0, .perform 0, .start (.advance animationId 1)] ++
    List.replicate 5 (.perform 1)

/-- Two retries read the row before either of them writes. -/
def retriedTwice : List (Pool.Act ArtifactCall) :=
  rejected ++
    [.start (.retry artifactOwner animationId), .start (.retry artifactOwner animationId),
      .perform 2, .perform 3, .perform 2, .start (.advance animationId 2)] ++
    List.replicate 5 (.perform 4) ++ [.perform 3]

def retriedPool (permits : ArtifactPool -> ArtifactTask -> Prop)
    (acts : List (Pool.Act ArtifactCall)) : ArtifactPool :=
  acts.foldl (Pool.play (artifactRules oneRetryService permits True)) ⟨.blank, []⟩

theorem allowsAll_artifacts (svc : ArtifactService) (pool : ArtifactPool)
    (acts : List (Pool.Act ArtifactCall)) :
    Pool.AllowsAll (artifactRules svc (fun _ _ => True) True) pool acts := by
  apply Pool.allowsAll_of_forall
  intro act hact pool
  cases act with
  | start call => trivial
  | perform i => exact fun _ _ => trivial
  | fault i => exact fun _ _ _ _ => trivial
  | stop i => exact fun _ _ => ⟨trivial, trivial⟩

/-- A retry whose read is out of date exceeds the limit and is not counted. -/
theorem stale_retry_uncounted :
    exists pool, Pool.Reaches (artifactRules oneRetryService (fun _ _ => True) True)
        ⟨.blank, []⟩ pool ∧
      pool.store.retries animationId = oneRetryService.cfg.maxManualRetries + 1 ∧
      (pool.store.row animationId).map ArtifactRow.retryCount = some 1 ∧
      ¬RetriesCounted oneRetryService.cfg pool.store animationId := by
  have hretries : (retriedPool (fun _ _ => True) retriedTwice).store.retries animationId = 2 := by
    decide +kernel
  have hrow : ((retriedPool (fun _ _ => True) retriedTwice).store.row animationId).map
      ArtifactRow.retryCount = some 1 := by
    decide +kernel
  refine ⟨_, Pool.reaches_schedule (allowsAll_artifacts _ _ retriedTwice), hretries, hrow, ?_⟩
  intro hcounted
  have hlimit : (2 : Nat) ≤ 1 := hretries ▸ hcounted.left
  omega

/-- The next operation of a task passes the test of `RetriesWhatItRead`. -/
def readsAgain (pool : ArtifactPool) (t : ArtifactTask) : Bool :=
  match t.prog with
  | .op (.cas id _ (.retry retries)) _ =>
      (pool.store.row id).all (fun row =>
        row.status != .failed || retries == row.retryCount + 1)
  | _ => true

theorem retriesWhatItRead_of_check {pool : ArtifactPool} {t : ArtifactTask}
    (h : readsAgain pool t = true) : RetriesWhatItRead pool t := by
  intro id allowedFrom retries next row hprog hrow hfailed
  unfold readsAgain at h
  rw [hprog] at h
  dsimp only at h
  rw [hrow] at h
  change (row.status != .failed || retries == row.retryCount + 1) = true at h
  rw [hfailed] at h
  simpa using h

def retriesChecked (pool : ArtifactPool) : Pool.Act ArtifactCall -> Bool
  | .perform i => (pool.tasks[i]?).all (readsAgain pool)
  | _ => true

theorem allows_of_retriesChecked (pool : ArtifactPool) (act : Pool.Act ArtifactCall)
    (h : retriesChecked pool act = true) :
    Pool.Allows (artifactRules oneRetryService RetriesWhatItRead True) pool act := by
  cases act with
  | start call => trivial
  | perform i =>
      intro t ht
      change (pool.tasks[i]?).all (readsAgain pool) = true at h
      rw [ht] at h
      exact retriesWhatItRead_of_check h
  | fault i => exact fun _ _ _ _ => trivial
  | stop i => exact fun _ _ => ⟨trivial, trivial⟩

/-- One retry after the other, with the second one refused. -/
def retriedInTurn : List (Pool.Act ArtifactCall) :=
  rejected ++ [.start (.retry artifactOwner animationId), .perform 2, .perform 2,
    .start (.advance animationId 2)] ++ List.replicate 5 (.perform 3) ++
    [.start (.retry artifactOwner animationId), .perform 4]

theorem manual_retries_bounded_in_turn :
    (retriedPool RetriesWhatItRead retriedInTurn).store.retries animationId = 1 ∧
      RetriesCounted oneRetryService.cfg
        (retriedPool RetriesWhatItRead retriedInTurn).store animationId := by
  have hretries : (retriedPool RetriesWhatItRead retriedInTurn).store.retries animationId =
      1 := by
    decide +kernel
  have hchecks : Pool.checks (artifactRules oneRetryService RetriesWhatItRead True)
      retriesChecked ⟨.blank, []⟩ retriedInTurn = true := by
    decide +kernel
  exact ⟨hretries, manual_retries_bounded
    (Pool.reaches_schedule (Pool.allowsAll_of_checks allows_of_retriesChecked hchecks)) _⟩

end ConversationService
