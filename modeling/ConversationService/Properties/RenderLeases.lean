import ConversationService.Properties.RenderLifecycle

/-!
# Leases on artifacts

A lease is a time without an owner. It keeps other workers away as long as nobody else
clears it or opens the artifact again, and a pending artifact is submitted once as long as
whoever submits it also records that.
-/

namespace ConversationService

open Python ClusteredTable Programs

/-- The task has claimed the artifact until `lease`, which has not passed, and still runs. -/
def HoldsUntil (s : ArtifactStore) (t : ArtifactTask) (id : UUID) (lease : Nat) : Prop :=
  t.prog.Running ∧ s.now ≤ lease ∧ exists worker, t.call = .advance id worker ∧
    .claimed id worker lease ∈ s.eventsOf id

/-- No claim succeeds while another worker holds the artifact. -/
def ExclusiveClaims (pool : ArtifactPool) : Prop :=
  forall t, t ∈ pool.tasks -> forall id worker period next row,
    t.prog = .op (.claim id worker period) next ->
    (ArtifactOp.exec (.claim id worker period) pool.store).1 = some row ->
    forall t', t' ∈ pool.tasks -> t'.call ≠ t.call -> forall lease,
      ¬HoldsUntil pool.store t' id lease

/-- The accepted submissions since the artifact last became pending. -/
def submissions : List ArtifactEvent -> Nat
  | [] => 0
  | .submitted _ :: earlier => submissions earlier + 1
  | .claimed _ _ _ :: earlier => submissions earlier
  | _ => 0

/-- The change makes a finished artifact pending again. -/
def ArtifactChange.Reopens : ArtifactChange -> Prop
  | .retry _ => True
  | .missing => True
  | _ => False

/--
While another worker holds the artifact, the task neither sets an earlier lease on it nor
opens it again.
-/
def SparesLeases (pool : ArtifactPool) (t : ArtifactTask) : Prop :=
  forall id o next row t' lease, t.prog = .op o next -> pool.store.row id = some row ->
    t' ∈ pool.tasks -> t'.call ≠ t.call -> HoldsUntil pool.store t' id lease ->
    (o.leased? = some id -> row.status ∈ ArtifactStatus.active ->
      exists later, o.lease? pool.store.now = some (some later) ∧ lease ≤ later) ∧
    forall allowedFrom change, o = .cas id allowedFrom change -> change.Reopens ->
      row.status ∉ allowedFrom

/--
A task submits an artifact only while it is pending and no task is about to record a
submission of it.
-/
def SubmitsAlone (pool : ArtifactPool) (t : ArtifactTask) : Prop :=
  forall id row next, t.prog = .op (.submit id row) next ->
    (exists current, pool.store.row id = some current ∧ current.status = .pending) ∧
    forall n, ¬IsRecording pool.tasks id n

def NumbersWorkers (pool : ArtifactPool) (call : ArtifactCall) : Prop :=
  forall id worker, call = .advance id worker ->
    (forall t, t ∈ pool.tasks -> t.call ≠ call) ∧
    forall lease, .claimed id worker lease ∉ pool.store.eventsOf id

/-- Anything may raise and any process may stop. -/
def renderLeaseRules (svc : ArtifactService) (permits : ArtifactPool -> ArtifactTask -> Prop) :
    Rules ArtifactCall artifactStorage ArtifactExc ArtifactAnswer ArtifactStore :=
  { artifactRules svc permits True with mayStart := NumbersWorkers }

/-- Between a submission and its record nothing raises and no process stops. -/
def submitRules (svc : ArtifactService) (permits : ArtifactPool -> ArtifactTask -> Prop) :
    Rules ArtifactCall artifactStorage ArtifactExc ArtifactAnswer ArtifactStore :=
  { artifactRules svc permits True with
    mayFail := fun o => forall id attempts, ¬ArtifactOp.QueuesAs o id attempts
    mayStart := NumbersWorkers
    mayStopAt := fun _ t => forall id attempts, ¬RecordsNext t id attempts }

/-!
# A worker ends with its lease
-/

section Programs

variable {svc : ArtifactService} {call : ArtifactCall} {id : UUID}

/-- Nothing is left of a program that has set a lease. -/
abbrev EndsWithLease {alpha : Type} (p : ArtifactProg alpha) (Q : alpha -> Prop) : Prop :=
  Prog.Closes (S := artifactStorage) ArtifactOp.SetsLease Q p

theorem not_setsLease_of_plain (o : ArtifactOp) (h : o.Plain svc.cfg call) :
    ¬o.SetsLease := by
  intro hsets
  apply h.ordinary
  cases o with
  | release id => trivial
  | backoff id delay => trivial
  | _ => exact hsets.elim

theorem stepKind_keepsLease : StepKind svc call
    (fun p => Prog.AllOps (fun o : ArtifactOp => ¬o.SetsLease) p) where
  plain h := Prog.allOps_mono h not_setsLease_of_plain
  adopt _ hcall := Prog.allOps_mono (closing_adopt hcall) (fun _ h => h.keepsLease)
  store _ row _ _ hcall hinfo :=
    Prog.allOps_mono (closing_storeVideo hcall row hinfo) (fun _ h => h.keepsLease)
  submit id row hcall _ := by
    refine Prog.allOps_bind (allOps_artifactCall False.elim) ?_
    intro answer
    cases answer with
    | ok job => exact allOps_artifactCall False.elim
    | error code =>
        exact Prog.allOps_bind (Prog.allOps_bind (allOps_artifactCall False.elim)
          (fun _ => trivial)) (fun _ => trivial)
  bind := Prog.allOps_bind

theorem endsWithLease_pause :
    EndsWithLease (ArtifactService.pause id) (fun keepLease => keepLease = true) := by
  constructor
  · exact fun _ _ => rfl
  · intro answer
    cases answer with
    | some r => trivial
    | none =>
        constructor
        · exact fun _ _ => trivial
        · intro answer
          cases answer with
          | some r => trivial
          | none => trivial

theorem endsWithLease_advanceClaimed (hcall : call.Advances id) (row : ArtifactRow) :
    EndsWithLease (svc.advanceClaimed id row) (fun _ => True) := by
  have hkind : StepKind svc call
      (fun p => Prog.AllOps (fun o : ArtifactOp => ¬o.SetsLease) p) := stepKind_keepsLease
  have hsteps := kind_steps hkind hcall 5 row
  refine Prog.closes_bind (Q := fun keepLease => keepLease = true) ?_ ?_ ?_
  · exact Prog.closes_tryCatch (Prog.allOps_bind hsteps (fun _ => trivial))
      (fun _ => endsWithLease_pause)
  · intro keepLease hkeep
    rw [hkeep]
    trivial
  · intro keepLease
    cases keepLease with
    | true => trivial
    | false =>
        constructor
        · exact fun _ _ => trivial
        · intro answer
          cases answer with
          | some r => trivial
          | none => trivial

theorem endsWithLease_program : EndsWithLease (call.program svc) (fun _ => True) := by
  have hplain : forall {alpha : Type} {p : ArtifactProg alpha} (f : alpha -> ArtifactAnswer),
      Prog.AllOps (ArtifactOp.Plain svc.cfg call) p ->
      EndsWithLease (p >>= fun a => .ret (f a)) (fun _ => True) :=
    fun f hp => Prog.closes_of_allOps (Prog.allOps_mono
      (Prog.allOps_bind hp (fun _ => trivial)) not_setsLease_of_plain)
  cases hcall : call with
  | advance id worker =>
      subst hcall
      refine Prog.closes_bind (Q := fun _ => True) ?_ (fun _ _ => trivial) (fun _ => trivial)
      refine ⟨False.elim, fun answer => ?_⟩
      match answer with
      | none => trivial
      | some none => trivial
      | some (some row) =>
          have hcall : (ArtifactCall.advance id worker).Advances id := ⟨worker, rfl⟩
          exact endsWithLease_advanceClaimed hcall row
  | register request =>
      subst hcall
      exact hplain _ (plain_register rfl)
  | retry owner id =>
      subst hcall
      exact hplain _ (plain_retry rfl)
  | markObjectMissing id =>
      subst hcall
      exact hplain _ (plain_markObjectMissing rfl)
  | deleteOrphanObjects =>
      subst hcall
      exact hplain _ plain_deleteOrphanObjects

end Programs

/-!
# Held artifacts
-/

section Holding

variable {svc : ArtifactService} {s : ArtifactStore} {t q : ArtifactTask} {o : ArtifactOp}
  {call : ArtifactCall} {id : UUID} {lease : Nat}

/-- No claim succeeds before the lease has passed. -/
def ArtifactStore.KeptUntil (s : ArtifactStore) (id : UUID) (lease : Nat) : Prop :=
  exists row, s.row id = some row ∧ (row.status ∈ ArtifactStatus.terminal ∨
    exists later, row.leaseUntil = some later ∧ lease ≤ later)

theorem not_active_of_terminal {status : ArtifactStatus} (h : status ∈ ArtifactStatus.terminal) :
    status ∉ ArtifactStatus.active := by
  rcases List.mem_cons.mp h with rfl | hfailed
  · simp [ArtifactStatus.active]
  · rw [List.mem_singleton.mp hfailed]
    simp [ArtifactStatus.active]

theorem active_of_not_terminal {status : ArtifactStatus}
    (h : status ∉ ArtifactStatus.terminal) : status ∈ ArtifactStatus.active := by
  cases status with
  | ready => exact absurd List.mem_cons_self h
  | failed => simp [ArtifactStatus.terminal] at h
  | _ => simp [ArtifactStatus.active]

theorem not_leaseFree {row : ArtifactRow} {later : Nat} (hlease : row.leaseUntil = some later)
    (hle : lease ≤ later) (hnow : s.now ≤ lease) : row.leaseFree s.now ≠ true := by
  intro hfree
  unfold ArtifactRow.leaseFree at hfree
  rw [hlease] at hfree
  have hlt : later < s.now := of_decide_eq_true hfree
  omega

theorem claim_of_kept {worker period : Nat} (h : s.KeptUntil id lease) (hnow : s.now ≤ lease) :
    (ArtifactOp.exec (.claim id worker period) s).1 = none := by
  rcases h with ⟨row, hrow, hkept⟩
  have hselect : ¬(ArtifactStatus.active.contains row.status && row.leaseFree s.now) = true := by
    intro hboth
    rcases Bool.and_eq_true_iff.mp hboth with ⟨hactive, hfree⟩
    rcases hkept with hterminal | ⟨later, hlease, hle⟩
    · exact not_active_of_terminal hterminal (List.contains_iff_mem.mp hactive)
    · exact not_leaseFree hlease hle hnow hfree
  unfold ArtifactOp.exec ArtifactStore.updateRow
  dsimp only
  rw [hrow]
  dsimp only
  rw [if_neg hselect]

theorem kept_change {cfg : ArtifactSettings} {allowedFrom : List ArtifactStatus}
    {change : ArtifactChange} {row : ArtifactRow} (hsent : change.SentBy cfg call id allowedFrom)
    (hkept : row.status ∈ ArtifactStatus.terminal ∨
      exists later, row.leaseUntil = some later ∧ lease ≤ later)
    (hallowed : row.status ∈ allowedFrom) (hreopens : ¬change.Reopens) :
    (change.apply s.now row).status ∈ ArtifactStatus.terminal ∨
      exists later, (change.apply s.now row).leaseUntil = some later ∧ lease ≤ later := by
  rcases hkept with hterminal | hlease
  · rcases terminal_change hsent hterminal hallowed with ⟨rfl, _⟩ | ⟨⟨retries, rfl⟩, _⟩
    · exact absurd trivial hreopens
    · exact absurd trivial hreopens
  · cases change with
    | ready objectKey thumbnailKey size checksum => exact Or.inl List.mem_cons_self
    | fail code => exact Or.inl (List.mem_cons_of_mem _ List.mem_cons_self)
    | retry retries => exact absurd trivial hreopens
    | missing => exact absurd trivial hreopens
    | _ => exact Or.inr hlease

/--
An operation keeps an artifact if it does not open it again and sets no earlier lease on it
while it is active.
-/
theorem kept_exec (h : s.KeptUntil id lease) (hsent : o.SentBy svc.cfg call)
    (hnow : s.now ≤ lease)
    (hleased : forall row, s.row id = some row -> o.leased? = some id ->
      row.status ∈ ArtifactStatus.active ->
      exists later, o.lease? s.now = some (some later) ∧ lease ≤ later)
    (hreopens : forall row allowedFrom change, s.row id = some row ->
      o = .cas id allowedFrom change -> change.Reopens -> row.status ∉ allowedFrom) :
    (o.exec s).2.KeptUntil id lease := by
  rcases h with ⟨row, hrow, hkept⟩
  cases artifactStep_exec s id o with
  | same hsame hevents => exact ⟨row, hsame.trans hrow, hkept⟩
  | submitted row' job ho hanswer hsame hevents => exact ⟨row, hsame.trans hrow, hkept⟩
  | registered new ref ho hnone hcontent hput hevents =>
      rw [hnone] at hrow
      cases hrow
  | claimed worker period old ho hold hactive hfree hput hevents =>
      rw [hold] at hrow
      cases hrow
      rcases hkept with hterminal | ⟨later, hlease, hle⟩
      · exact absurd hactive (not_active_of_terminal hterminal)
      · exact absurd hfree (not_leaseFree hlease hle hnow)
  | changed allowedFrom change old ho hold hallowed hput hevents =>
      rw [hold] at hrow
      cases hrow
      subst ho
      refine ⟨_, hput, kept_change hsent hkept hallowed ?_⟩
      intro hchange
      exact hreopens row allowedFrom change hold rfl hchange hallowed
  | leased new old ho hlease hold hput hevents =>
      rw [hold] at hrow
      cases hrow
      by_cases hterminal : row.status ∈ ArtifactStatus.terminal
      · exact ⟨_, hput, Or.inl hterminal⟩
      · rcases hleased row hold ho (active_of_not_terminal hterminal) with ⟨later, heq, hle⟩
        rw [hlease] at heq
        cases heq
        exact ⟨_, hput, Or.inr ⟨later, rfl, hle⟩⟩

/-- What the store and the number of a worker say about it. -/
structure LeaseKnown (svc : ArtifactService) (s : ArtifactStore) (t : ArtifactTask) : Prop where
  sent : Prog.AllOps (ArtifactOp.SentBy svc.cfg t.call) t.prog
  ends : EndsWithLease t.prog (fun _ => True)
  kept : forall id lease, HoldsUntil s t id lease -> s.KeptUntil id lease

def NumbersApart (p q : ArtifactTask) : Prop :=
  forall id worker, p.call = .advance id worker -> q.call ≠ .advance id worker

theorem claimed_exec {worker : Nat}
    (h : .claimed id worker lease ∈ (o.exec s).2.eventsOf id) :
    .claimed id worker lease ∈ s.eventsOf id ∨
      exists period, exists row : ArtifactRow, o = .claim id worker period ∧
        (o.exec s).2.row id = some { row with leaseUntil := some lease } := by
  cases artifactStep_exec s id o with
  | same hsame hevents =>
      rw [hevents] at h
      exact Or.inl h
  | submitted row job ho hanswer hsame hevents =>
      rw [hevents] at h
      rcases List.mem_cons.mp h with heq | hold
      · cases heq
      · exact Or.inl hold
  | registered new ref ho hnone hcontent hput hevents =>
      rw [hevents] at h
      rcases List.mem_cons.mp h with heq | hold
      · cases heq
      · exact Or.inl hold
  | claimed worker' period row ho hrow hactive hfree hput hevents =>
      rw [hevents] at h
      rcases List.mem_cons.mp h with heq | hold
      · cases heq
        exact Or.inr ⟨period, row, ho, hput⟩
      · exact Or.inl hold
  | changed allowedFrom change row ho hrow hallowed hput hevents =>
      rw [hevents] at h
      rcases List.mem_append.mp h with hevent | hold
      · cases change with
        | requeue => cases List.mem_singleton.mp hevent
        | retry retries => cases List.mem_singleton.mp hevent
        | missing => cases List.mem_singleton.mp hevent
        | _ => cases hevent
      · exact Or.inl hold
  | leased new row ho hlease hrow hput hevents =>
      rw [hevents] at h
      exact Or.inl h

end Holding

/-!
# Runs with leases
-/

section Runs

variable {svc : ArtifactService} {before after : List ArtifactTask} {call : ArtifactCall}
  {o : ArtifactOp} {next : Option o.Res -> ArtifactProg ArtifactAnswer} {s : ArtifactStore}

theorem now_updateRow (id : UUID) (select : ArtifactRow -> Bool)
    (change : ArtifactRow -> ArtifactRow) (events : List ArtifactEvent) :
    (s.updateRow id select change events).2.now = s.now := by
  unfold ArtifactStore.updateRow
  cases s.row id with
  | none => rfl
  | some row =>
      dsimp only
      split
      · rfl
      · rfl

theorem now_artifactOp (s : ArtifactStore) (o : ArtifactOp) : (o.exec s).2.now = s.now := by
  cases o with
  | register id new ref =>
      unfold ArtifactOp.exec
      dsimp only
      split
      · rfl
      · split
        · rfl
        · rfl
  | claim id worker period => exact now_updateRow _ _ _ _
  | cas id allowedFrom change => exact now_updateRow _ _ _ _
  | release id => exact now_updateRow _ _ _ _
  | backoff id delay => exact now_updateRow _ _ _ _
  | submit id row =>
      unfold ArtifactOp.exec
      dsimp only
      cases s.backend.submit with
      | ok job => rfl
      | error code => rfl
  | _ => rfl

abbrev LeasesHold (svc : ArtifactService) (pool : ArtifactPool) : Prop :=
  Pool.Holds (fun _ => True) (LeaseKnown svc) NumbersApart pool

theorem leaseKnown_next
    (h : LeaseKnown svc s ⟨call, .op o next⟩) :
    LeaseKnown svc (o.exec s).2 ⟨call, next (some (o.exec s).1)⟩ := by
  refine ⟨h.sent.right _, h.ends.right _, ?_⟩
  intro id lease hholds
  have hsent : o.SentBy svc.cfg call := h.sent.left
  have hnotSet : ¬o.SetsLease := by
    intro hsets
    have hended := h.ends.left hsets (o.exec s).1
    cases hnext : next (some (o.exec s).1) with
    | ret a =>
        have hrunning := hholds.left
        rw [hnext] at hrunning
        exact hrunning
    | raise e =>
        have hrunning := hholds.left
        rw [hnext] at hrunning
        exact hrunning
    | op o' next' =>
        rw [hnext] at hended
        exact hended
  rcases hholds with ⟨hrunning, hle, worker, hcall, hclaimed⟩
  change call = .advance id worker at hcall
  subst hcall
  rw [now_artifactOp] at hle
  rcases claimed_exec hclaimed with hold | ⟨period, row, rfl, hput⟩
  · refine kept_exec (h.kept id lease ⟨trivial, hle, worker, rfl, hold⟩) hsent hle ?_ ?_
    · intro row _ hleased _
      cases o with
      | release id' => exact absurd trivial hnotSet
      | backoff id' delay => exact absurd trivial hnotSet
      | _ => cases hleased
    · intro row allowedFrom change _ ho hreopens
      subst ho
      cases change with
      | retry retries =>
          rcases hsent.left with ⟨owner, hcall⟩
          cases hcall
      | missing => cases hsent.left
      | _ => exact hreopens.elim
  · exact ⟨_, hput, Or.inr ⟨lease, rfl, Nat.le_refl _⟩⟩

theorem leaseKnown_other {pool : ArtifactPool} {q : ArtifactTask} (h : LeasesHold svc pool)
    (hmem : ⟨call, .op o next⟩ ∈ pool.tasks) (hpermits : SparesLeases pool ⟨call, .op o next⟩)
    (hq : q ∈ pool.tasks) (hapart : NumbersApart ⟨call, .op o next⟩ q) :
    LeaseKnown svc (o.exec pool.store).2 q := by
  have hknown := h.each q hq
  have hsent : o.SentBy svc.cfg call := (h.each _ hmem).sent.left
  refine ⟨hknown.sent, hknown.ends, ?_⟩
  intro id lease hholds
  rcases hholds with ⟨hrunning, hle, worker, hcall, hclaimed⟩
  rw [now_artifactOp] at hle
  rcases claimed_exec hclaimed with hold | ⟨period, row, rfl, hput⟩
  · have hbefore : HoldsUntil pool.store q id lease := ⟨hrunning, hle, worker, hcall, hold⟩
    have hdiffer : q.call ≠ call := by
      intro heq
      exact hapart id worker (heq ▸ hcall) hcall
    refine kept_exec (hknown.kept id lease hbefore) hsent hle ?_ ?_
    · intro row hrow
      exact (hpermits id o next row q lease rfl hrow hq hdiffer hbefore).left
    · intro row allowedFrom change hrow
      exact (hpermits id o next row q lease rfl hrow hq hdiffer hbefore).right allowedFrom change
  · exact absurd hcall (hapart id worker hsent)

theorem localProof_leases :
    Pool.LocalProof (renderLeaseRules svc SparesLeases) (fun _ => True) (LeaseKnown svc)
      NumbersApart where
  symm p q hpq id worker hq hp := hpq id worker hp hq
  own before after call o next s h _ :=
    ⟨trivial, leaseKnown_next (h.each ⟨call, .op o next⟩ (by simp))⟩
  ownFault before after call o next s h _ := by
    have hknown := h.each ⟨call, .op o next⟩ (by simp)
    refine ⟨trivial, hknown.sent.right none, hknown.ends.right none, ?_⟩
    rintro id lease ⟨_, hle, hclaimed⟩
    exact hknown.kept id lease ⟨trivial, hle, hclaimed⟩
  stable pool call o next q h hmem hpermits hq hapart :=
    leaseKnown_other h hmem hpermits hq hapart
  apartNext pool call o next q h hmem _ hq hapart := hapart
  apartFault pool call o next q h hmem _ hq hapart := hapart
  stopped _ _ _ _ _ _ _ _ _ := trivial
  started pool call h hstart := by
    refine ⟨trivial, ⟨kind_program kind_sent, endsWithLease_program, ?_⟩, ?_⟩
    · rintro id lease ⟨_, _, worker, hcall, hclaimed⟩
      exact absurd hclaimed ((hstart id worker hcall).right lease)
    · intro q hq id worker hqcall hcall
      exact (hstart id worker hcall).left q hq (hqcall.trans hcall.symm)
  moved tasks s t h hmove := by
    refine ⟨trivial, fun q hq => ?_⟩
    have hknown := h.each q hq
    refine ⟨hknown.sent, hknown.ends, ?_⟩
    rintro id lease ⟨hrunning, hle, worker, hcall, hclaimed⟩
    have hevents : t.eventsOf id = s.eventsOf id := by
      show t.history.filter _ = s.history.filter _
      rw [hmove.history]
    rw [hevents] at hclaimed
    rcases hknown.kept id lease
      ⟨hrunning, Nat.le_trans hmove.now hle, worker, hcall, hclaimed⟩ with ⟨row, hrow, hkept⟩
    refine ⟨row, ?_, hkept⟩
    show t.artifacts.get id = some row
    rw [hmove.artifacts]
    exact hrow

theorem exclusiveClaims_of_reaches {pool : ArtifactPool}
    (hreach : Pool.Reaches (renderLeaseRules svc SparesLeases) ⟨.blank, []⟩ pool) :
    ExclusiveClaims pool := by
  have hempty : LeasesHold svc ⟨.blank, []⟩ :=
    ⟨trivial, fun _ h => (by cases h), List.Pairwise.nil⟩
  have h := Pool.holds_reaches localProof_leases hreach hempty
  intro t _ id worker period next row hprog hanswer t' ht' _ lease hholds
  rw [claim_of_kept ((h.each t' ht').kept id lease hholds) hholds.right.left] at hanswer
  cases hanswer

end Runs

/-!
# Runs with submissions
-/

section Submissions

variable {svc : ArtifactService} {before after : List ArtifactTask} {call : ArtifactCall}
  {o : ArtifactOp} {next : Option o.Res -> ArtifactProg ArtifactAnswer}
  {s t : ArtifactStore} {tasks tasks' : List ArtifactTask} {id : UUID}

/-- A pending artifact has not been submitted, unless that is about to be recorded. -/
structure SubmittedOnce (s : ArtifactStore) (tasks : List ArtifactTask) (id : UUID) :
    Prop where
  once : submissions (s.eventsOf id) ≤ 1
  absent : s.row id = none -> submissions (s.eventsOf id) = 0
  pending : forall row, s.row id = some row -> row.status = .pending ->
    submissions (s.eventsOf id) = 0 ∨ exists n, IsRecording tasks id n

structure SubmitKnown (svc : ArtifactService) (t : ArtifactTask) : Prop where
  sent : Prog.AllOps (ArtifactOp.SentBy svc.cfg t.call) t.prog
  records : RecordsAtOnce t.prog

abbrev SubmitsHold (svc : ArtifactService) (pool : ArtifactPool) : Prop :=
  Pool.Holds (fun pool => forall id, SubmittedOnce pool.store pool.tasks id)
    (fun _ t => SubmitKnown svc t) (fun _ _ => True) pool

theorem submittedOnce_row {row row' : ArtifactRow} (h : SubmittedOnce s tasks id)
    (hrow : s.row id = some row) (hrow' : t.row id = some row')
    (hstatus : row'.status = .pending -> row.status = .pending)
    (hevents : submissions (t.eventsOf id) = submissions (s.eventsOf id))
    (hrecords : forall n, IsRecording tasks id n -> IsRecording tasks' id n) :
    SubmittedOnce t tasks' id := by
  constructor
  · rw [hevents]
    exact h.once
  · intro hnone
    rw [hrow'] at hnone
    cases hnone
  · intro row'' hrow'' hpending
    rw [hrow'] at hrow''
    cases hrow''
    rw [hevents]
    rcases h.pending row hrow (hstatus hpending) with hzero | ⟨n, hn⟩
    · exact Or.inl hzero
    · exact Or.inr ⟨n, hrecords n hn⟩

theorem submittedOnce_same (h : SubmittedOnce s tasks id) (hrow : t.row id = s.row id)
    (hevents : t.eventsOf id = s.eventsOf id)
    (hrecords : forall n, IsRecording tasks id n -> IsRecording tasks' id n) :
    SubmittedOnce t tasks' id := by
  cases hold : s.row id with
  | some row =>
      exact submittedOnce_row h hold (hrow.trans hold) (fun h => h)
        (congrArg submissions hevents) hrecords
  | none =>
      have hzero : submissions (t.eventsOf id) = 0 := by
        rw [hevents]
        exact h.absent hold
      exact ⟨hzero ▸ Nat.zero_le 1, fun _ => hzero, fun _ _ _ => Or.inl hzero⟩

theorem submittedOnce_fresh (hevents : submissions (t.eventsOf id) = 0) :
    SubmittedOnce t tasks id :=
  ⟨hevents ▸ Nat.zero_le 1, fun _ => hevents, fun _ _ _ => Or.inl hevents⟩

theorem submittedOnce_moved {row : ArtifactRow} (h : SubmittedOnce s tasks id)
    (hrow : t.row id = some row) (hstatus : row.status ≠ .pending)
    (hevents : t.eventsOf id = s.eventsOf id) : SubmittedOnce t tasks' id := by
  constructor
  · rw [hevents]
    exact h.once
  · intro hnone
    rw [hrow] at hnone
    cases hnone
  · intro row' hrow' hpending
    rw [hrow] at hrow'
    cases hrow'
    exact absurd hpending hstatus

/-- Whether it takes effect or not, behind a record of a submission nothing is pending. -/
theorem submittedOnce_queue {n : Nat} (h : SubmittedOnce s tasks id)
    (hsent : o.SentBy svc.cfg call) (hq : o.QueuesAs id n) :
    SubmittedOnce (o.exec s).2 tasks' id := by
  cases o with
  | cas id' allowedFrom change =>
      cases change with
      | queue jobId attempts =>
          rcases hq with ⟨rfl, rfl⟩
          have hallowed : allowedFrom = [.pending] := hsent.right.left
          cases artifactStep_exec s id' (.cas id' allowedFrom (.queue jobId attempts)) with
          | same hsame hevents =>
              constructor
              · rw [hevents]
                exact h.once
              · intro hnone
                rw [hevents]
                exact h.absent (hsame.symm.trans hnone)
              · intro row hrow hpending
                have hmem : row.status ∈ allowedFrom := by
                  rw [hallowed, hpending]
                  exact List.mem_singleton_self _
                have hput := (cas_exec (.queue jobId attempts) (hsame.symm.trans hrow)
                  hmem).right.left
                rw [hrow] at hput
                rw [Option.some.inj hput] at hpending
                cases hpending
          | changed allowedFrom' change' row ho hrow hmem hput hevents =>
              cases ho
              exact submittedOnce_moved h hput (fun hpending => by cases hpending) hevents
          | submitted row job ho hanswer hsame hevents => cases ho
          | registered new ref ho hnone hcontent hput hevents => cases ho
          | claimed worker period row ho hrow hactive hfree hput hevents => cases ho
          | leased new row ho hlease hrow hput hevents => cases ho
      | _ => exact hq.elim
  | _ => exact hq.elim

theorem submittedOnce_perform
    (h : SubmitsHold svc ⟨s, before ++ ⟨call, .op o next⟩ :: after⟩)
    (hpermits : SubmitsAlone ⟨s, before ++ ⟨call, .op o next⟩ :: after⟩ ⟨call, .op o next⟩)
    (id : UUID) :
    SubmittedOnce (o.exec s).2 (before ++ ⟨call, next (some (o.exec s).1)⟩ :: after) id := by
  have hknown := h.each ⟨call, .op o next⟩ (by simp)
  have hsent : o.SentBy svc.cfg call := hknown.sent.left
  have honce : SubmittedOnce s (before ++ ⟨call, .op o next⟩ :: after) id := h.shared id
  by_cases hqueues : exists n, o.QueuesAs id n
  · rcases hqueues with ⟨n, hq⟩
    exact submittedOnce_queue honce hsent hq
  · have hrecords : forall n, IsRecording (before ++ ⟨call, .op o next⟩ :: after) id n ->
        IsRecording (before ++ ⟨call, next (some (o.exec s).1)⟩ :: after) id n :=
      fun n hn => isRecording_replace hn (fun hnext => hqueues ⟨n, hnext⟩)
    cases artifactStep_exec s id o with
    | same hsame hevents => exact submittedOnce_same honce hsame hevents hrecords
    | submitted row job ho hanswer hsame hevents =>
        subst ho
        rcases hpermits id row next rfl with ⟨⟨current, hcurrent, hpending⟩, hnobody⟩
        have hzero : submissions (s.eventsOf id) = 0 := by
          rcases honce.pending current hcurrent hpending with hzero | ⟨n, hn⟩
          · exact hzero
          · exact absurd hn (hnobody n)
        constructor
        · rw [hevents]
          show submissions (s.eventsOf id) + 1 ≤ 1
          rw [hzero]
        · intro hnone
          rw [hsame, show s.row id = some current from hcurrent] at hnone
          cases hnone
        · intro row' _ _
          refine Or.inr ⟨row.attemptCount + 1, ⟨call, next (some (.ok job))⟩, ?_, ?_⟩
          · have hexec : (ArtifactOp.exec (.submit id row) s).1 = .ok job := hanswer
            rw [hexec]
            simp
          · exact hknown.records.left (.ok job) trivial
    | registered new ref ho hnone hcontent hput hevents =>
        exact submittedOnce_fresh (congrArg submissions hevents)
    | claimed worker period row ho hrow hactive hfree hput hevents =>
        exact submittedOnce_row honce hrow hput (fun h => h) (by rw [hevents]; rfl) hrecords
    | changed allowedFrom change row ho hrow hallowed hput hevents =>
        subst ho
        cases change with
        | queue jobId attempts => exact absurd ⟨attempts, rfl, rfl⟩ hqueues
        | retry retries => exact submittedOnce_fresh (congrArg submissions hevents)
        | missing => exact submittedOnce_fresh (congrArg submissions hevents)
        | requeue => exact submittedOnce_fresh (congrArg submissions hevents)
        | moveTo status =>
            refine submittedOnce_moved honce hput ?_ hevents
            intro hpending
            have hstatus := hsent.right.right
            rw [show status = .pending from hpending] at hstatus
            simp at hstatus
        | ready objectKey thumbnailKey size checksum =>
            exact submittedOnce_moved honce hput (fun hpending => by cases hpending) hevents
        | fail code =>
            exact submittedOnce_moved honce hput (fun hpending => by cases hpending) hevents
    | leased new row ho hlease hrow hput hevents =>
        exact submittedOnce_row honce hrow hput (fun h => h) (congrArg submissions hevents)
          hrecords

theorem localProof_submissions :
    Pool.LocalProof (submitRules svc SubmitsAlone)
      (fun pool => forall id, SubmittedOnce pool.store pool.tasks id)
      (fun _ t => SubmitKnown svc t) (fun _ _ => True) where
  symm _ _ _ := trivial
  own before after call o next s h hpermits := by
    have hknown := h.each ⟨call, .op o next⟩ (by simp)
    exact ⟨submittedOnce_perform h hpermits, hknown.sent.right _, hknown.records.right _⟩
  ownFault before after call o next s h hfail := by
    have hknown := h.each ⟨call, .op o next⟩ (by simp)
    refine ⟨fun id => ?_, hknown.sent.right none, hknown.records.right none⟩
    exact submittedOnce_same (h.shared id) rfl rfl
      (fun n hn => isRecording_replace hn (fun hnext => hfail id n hnext))
  stable pool call o next q h hmem _ hq _ := h.each q hq
  apartNext _ _ _ _ _ _ _ _ _ _ := trivial
  apartFault _ _ _ _ _ _ _ _ _ _ := trivial
  stopped before after call o next s h _ hat id := by
    refine submittedOnce_same (h.shared id) rfl rfl ?_
    rintro n ⟨q, hmem, hrecords⟩
    rcases Pool.mem_replace hmem with rfl | hother
    · exact absurd hrecords (hat id n)
    · exact ⟨q, hother, hrecords⟩
  started pool call h hstart := by
    refine ⟨fun id => ?_, ⟨kind_program kind_sent, kind_program kind_recordsAtOnce⟩,
      fun _ _ => trivial⟩
    refine submittedOnce_same (h.shared id) rfl rfl ?_
    rintro n ⟨q, hmem, hrecords⟩
    exact ⟨q, List.mem_append_left _ hmem, hrecords⟩
  moved tasks s t h hmove := by
    refine ⟨fun id => submittedOnce_same (h.shared id) ?_ ?_ (fun _ hn => hn), h.each⟩
    · show t.artifacts.get id = s.artifacts.get id
      rw [hmove.artifacts]
    · show t.history.filter _ = s.history.filter _
      rw [hmove.history]

theorem submissions_of_reaches {pool : ArtifactPool}
    (hreach : Pool.Reaches (submitRules svc SubmitsAlone) ⟨.blank, []⟩ pool) (id : UUID) :
    submissions (pool.store.eventsOf id) ≤ 1 := by
  have hempty : SubmitsHold svc ⟨.blank, []⟩ :=
    ⟨fun _ => submittedOnce_fresh rfl, fun _ h => (by cases h), List.Pairwise.nil⟩
  exact ((Pool.holds_reaches localProof_submissions hreach hempty).shared id).once

end Submissions

/--
No claim succeeds while another worker holds the artifact, in every run whose steps spare
the leases of others, and a pending artifact is submitted once, in every run whose steps
submit alone.
-/
theorem one_worker_at_a_time (svc : ArtifactService) :
    (forall pool, Pool.Reaches (renderLeaseRules svc SparesLeases) ⟨.blank, []⟩ pool ->
      ExclusiveClaims pool) ∧
    forall pool, Pool.Reaches (submitRules svc SubmitsAlone) ⟨.blank, []⟩ pool ->
      forall id, submissions (pool.store.eventsOf id) ≤ 1 :=
  ⟨fun _ hreach => exclusiveClaims_of_reaches hreach,
    fun _ hreach => submissions_of_reaches hreach⟩

/-!
# A lease that is cleared by its former holder
-/

def ArtifactCall.isRun (call : ArtifactCall) (id : UUID) (worker : Nat) : Bool :=
  match call with
  | .advance id' worker' => id' = id && worker' = worker
  | _ => false

theorem eq_of_isRun {call : ArtifactCall} {id : UUID} {worker : Nat}
    (h : call.isRun id worker = true) : call = .advance id worker := by
  cases call with
  | advance id' worker' =>
      rcases Bool.and_eq_true_iff.mp h with ⟨hid, hworker⟩
      rw [of_decide_eq_true hid, of_decide_eq_true hworker]
  | _ => cases h

/-- A worker gets a number that no task and no claim has. -/
def isNumbered (pool : ArtifactPool) (call : ArtifactCall) : Bool :=
  match call with
  | .advance id worker =>
      pool.tasks.all (fun t => !t.call.isRun id worker) &&
        (pool.store.eventsOf id).all (fun e =>
          match e with
          | .claimed _ worker' _ => worker' != worker
          | _ => true)
  | _ => true

theorem numbersWorkers_of_check {pool : ArtifactPool} {call : ArtifactCall}
    (h : isNumbered pool call = true) : NumbersWorkers pool call := by
  intro id worker hcall
  subst hcall
  rcases Bool.and_eq_true_iff.mp h with ⟨htasks, hevents⟩
  constructor
  · intro t ht heq
    have hnot := List.all_eq_true.mp htasks t ht
    rw [heq] at hnot
    simp [ArtifactCall.isRun] at hnot
  · intro lease hclaimed
    have hnot := List.all_eq_true.mp hevents _ hclaimed
    simp at hnot

/-- Renders are accepted and do not begin. -/
def ArtifactStore.waiting : ArtifactStore :=
  { ArtifactStore.blank with
    backend :=
      { rendererVersion := []
        submit := .ok ⟨text "j", text "pending", none⟩
        status := some ⟨text "j", text "pending", none⟩
        download := .gone
        thumbnail := none } }

/-- The first worker submits the animation. -/
def firstWorker : List (Pool.Act ArtifactCall) :=
  [.start (.register animation), .perform 0, .perform 0, .start (.advance animationId 1),
    .perform 1, .perform 1, .perform 1]

/-- The second one submits it as well, and the first one records, looks and releases. -/
def secondWorker : List (Pool.Act ArtifactCall) :=
  [.start (.advance animationId 2), .perform 2, .perform 2, .perform 2, .perform 1, .perform 1,
    .perform 1, .perform 1]

def freeRules : Rules ArtifactCall artifactStorage ArtifactExc ArtifactAnswer ArtifactStore :=
  renderLeaseRules artifactService (fun _ _ => True)

def submittedPool : ArtifactPool :=
  firstWorker.foldl (Pool.play freeRules) ⟨.waiting, []⟩

/-- The first lease has passed. -/
def lapsedPool : ArtifactPool :=
  ⟨{ submittedPool.store with now := 61 * second }, submittedPool.tasks⟩

def clearedPool : ArtifactPool :=
  secondWorker.foldl (Pool.play freeRules) lapsedPool

def freelyNumbered (pool : ArtifactPool) : Pool.Act ArtifactCall -> Bool
  | .start call => isNumbered pool call
  | _ => true

theorem allows_of_freelyNumbered (pool : ArtifactPool) (act : Pool.Act ArtifactCall)
    (h : freelyNumbered pool act = true) : Pool.Allows freeRules pool act := by
  cases act with
  | start call => exact numbersWorkers_of_check h
  | perform i => exact fun _ _ => trivial
  | fault i => exact fun _ _ _ _ => trivial
  | stop i => exact fun _ _ => ⟨trivial, trivial⟩

theorem step_later {pool : ArtifactPool} {now : Nat} (h : pool.store.now ≤ now) :
    Pool.Step freeRules pool ⟨{ pool.store with now := now }, pool.tasks⟩ :=
  Pool.Step.move pool.tasks pool.store _ ⟨h, rfl, rfl, Or.inl trivial⟩

theorem step_advance {pool : ArtifactPool} {id : UUID} {worker : Nat}
    (h : isNumbered pool (.advance id worker) = true) :
    Pool.Step freeRules pool ⟨pool.store, pool.tasks ++ [⟨.advance id worker,
      (ArtifactCall.advance id worker).program artifactService⟩]⟩ :=
  Pool.Step.start pool.tasks _ pool.store (numbersWorkers_of_check h)

theorem not_exclusive {pool : ArtifactPool} {holder : ArtifactTask} {id : UUID}
    {worker lease : Nat} (hmem : holder ∈ pool.tasks)
    (hholds : HoldsUntil pool.store holder id lease) (hcall : holder.call ≠ .advance id worker)
    (hclaim : (ArtifactOp.exec (.claim id worker artifactService.cfg.leaseSeconds)
      pool.store).1.isSome = true) :
    ¬ExclusiveClaims ⟨pool.store, pool.tasks ++ [⟨.advance id worker,
      (ArtifactCall.advance id worker).program artifactService⟩]⟩ := by
  intro hexclusive
  rcases Option.isSome_iff_exists.mp hclaim with ⟨row, hrow⟩
  exact hexclusive _ (List.mem_append_right _ (List.mem_singleton_self _)) id worker _ _ row rfl
    hrow holder (List.mem_append_left _ hmem) hcall lease hholds

theorem reaches_clearedPool : Pool.Reaches freeRules ⟨.blank, []⟩ clearedPool := by
  have hfirst : Pool.checks freeRules freelyNumbered ⟨.waiting, []⟩ firstWorker = true := by
    decide +kernel
  have hsecond : Pool.checks freeRules freelyNumbered lapsedPool secondWorker = true := by
    decide +kernel
  have hnow : submittedPool.store.now ≤ 61 * second := by
    decide +kernel
  have hbackend : Pool.Step freeRules ⟨.blank, []⟩ ⟨.waiting, []⟩ :=
    Pool.Step.move [] _ _ ⟨Nat.le_refl _, rfl, rfl, Or.inl trivial⟩
  have hlapse : Pool.Step freeRules submittedPool lapsedPool := step_later hnow
  have hsubmitted : Pool.Reaches freeRules ⟨.waiting, []⟩ submittedPool :=
    Pool.reaches_schedule (Pool.allowsAll_of_checks allows_of_freelyNumbered hfirst)
  have hcleared : Pool.Reaches freeRules lapsedPool clearedPool :=
    Pool.reaches_schedule (Pool.allowsAll_of_checks allows_of_freelyNumbered hsecond)
  exact (Relation.ReflTransGen.single hbackend).trans
    ((hsubmitted.tail hlapse).trans hcleared)

/--
Behind the lease of the first worker a second one claims and submits the animation; the
first one then clears the second lease, and a third worker can claim.
-/
theorem lease_cleared_by_another :
    exists pool, Pool.Reaches (renderLeaseRules artifactService (fun _ _ => True))
        ⟨.blank, []⟩ pool ∧ ¬ExclusiveClaims pool ∧
      submissions (pool.store.eventsOf animationId) = 2 := by
  have hfacts : isNumbered clearedPool (.advance animationId 3) = true ∧
      submissions (clearedPool.store.eventsOf animationId) = 2 ∧
      (clearedPool.tasks[2]?).any (fun t =>
        decide t.prog.Running && t.call.isRun animationId 2) = true ∧
      .claimed animationId 2 (121 * second) ∈ clearedPool.store.eventsOf animationId ∧
      clearedPool.store.now ≤ 121 * second ∧
      (ArtifactOp.exec (.claim animationId 3 artifactService.cfg.leaseSeconds)
        clearedPool.store).1.isSome = true := by
    decide +kernel
  rcases hfacts with ⟨hnumbered, hsubmitted, hholder, hclaimed, hnow, hclaim⟩
  rcases (Option.any_eq_true _ _).mp hholder with ⟨holder, hget, hboth⟩
  rcases Bool.and_eq_true_iff.mp hboth with ⟨hrunning, hrun⟩
  have hcall := eq_of_isRun hrun
  have hholds : HoldsUntil clearedPool.store holder animationId (121 * second) :=
    ⟨of_decide_eq_true hrunning, hnow, 2, hcall, hclaimed⟩
  have hother : holder.call ≠ .advance animationId 3 := by
    rw [hcall]
    intro heq
    cases heq
  refine ⟨_, reaches_clearedPool.tail (step_advance hnumbered),
    not_exclusive (List.mem_of_getElem? hget) hholds hother hclaim, ?_⟩
  dsimp only
  exact hsubmitted

/-!
# A worker that is alone
-/

/-- The animation is registered, and one worker submits it and looks at the render. -/
def oneWorker : List (Pool.Act ArtifactCall) :=
  [.start (.register animation), .perform 0, .perform 0, .start (.advance animationId 1)] ++
    List.replicate 7 (.perform 1)

def workedPool : ArtifactPool :=
  oneWorker.foldl (Pool.play (renderLeaseRules artifactService SparesLeases)) ⟨.waiting, []⟩

/-- No other task runs, and only a pending artifact is submitted. -/
def isAlone (pool : ArtifactPool) : Pool.Act ArtifactCall -> Bool
  | .start call => isNumbered pool call
  | .perform i =>
      (pool.tasks.eraseIdx i).all (fun t => !decide t.prog.Running) &&
        (pool.tasks[i]?).all (fun t =>
          match t.prog with
          | .op (.submit id _) _ => (pool.store.row id).any (fun row => row.status == .pending)
          | _ => true)
  | _ => false

theorem eq_of_isAlone {pool : ArtifactPool} {i : Nat} {t t' : ArtifactTask}
    (h : isAlone pool (.perform i) = true) (ht : pool.tasks[i]? = some t)
    (ht' : t' ∈ pool.tasks) (hrunning : t'.prog.Running) : t' = t := by
  have hothers := (Bool.and_eq_true_iff.mp h).left
  rcases Pool.split_of_getElem? ht with ⟨before, after, htasks, _, herase⟩
  rw [htasks] at ht'
  rcases Pool.mem_replace ht' with heq | hother
  · exact heq
  · rw [herase] at hothers
    have hended := List.all_eq_true.mp hothers t' hother
    simp [hrunning] at hended

theorem sparesLeases_of_isAlone {pool : ArtifactPool} {i : Nat} {t : ArtifactTask}
    (h : isAlone pool (.perform i) = true) (ht : pool.tasks[i]? = some t) :
    SparesLeases pool t := by
  intro id o next row t' lease _ _ ht' hcall hholds
  exact absurd (congrArg Task.call (eq_of_isAlone h ht ht' hholds.left)) hcall

theorem submitsAlone_of_isAlone {pool : ArtifactPool} {i : Nat} {t : ArtifactTask}
    (h : isAlone pool (.perform i) = true) (ht : pool.tasks[i]? = some t) :
    SubmitsAlone pool t := by
  intro id row next hprog
  constructor
  · have hpending := (Bool.and_eq_true_iff.mp h).right
    rw [ht] at hpending
    change (match t.prog with
      | .op (.submit id _) _ => (pool.store.row id).any (fun row => row.status == .pending)
      | _ => true) = true at hpending
    rw [hprog] at hpending
    rcases (Option.any_eq_true _ _).mp hpending with ⟨current, hcurrent, hstatus⟩
    exact ⟨current, hcurrent, beq_iff_eq.mp hstatus⟩
  · rintro n ⟨t', ht', hrecords⟩
    have hrunning : t'.prog.Running := by
      cases hprog' : t'.prog with
      | op o next' => trivial
      | ret a =>
          unfold RecordsNext at hrecords
          rw [hprog'] at hrecords
          exact hrecords
      | raise e =>
          unfold RecordsNext at hrecords
          rw [hprog'] at hrecords
          exact hrecords
    rw [eq_of_isAlone h ht ht' hrunning] at hrecords
    unfold RecordsNext at hrecords
    rw [hprog] at hrecords
    exact hrecords

theorem allows_of_isAlone (pool : ArtifactPool) (act : Pool.Act ArtifactCall)
    (h : isAlone pool act = true) :
    Pool.Allows (renderLeaseRules artifactService SparesLeases) pool act ∧
      Pool.Allows (submitRules artifactService SubmitsAlone) pool act := by
  cases act with
  | start call => exact ⟨numbersWorkers_of_check h, numbersWorkers_of_check h⟩
  | perform i =>
      exact ⟨fun _ ht => sparesLeases_of_isAlone h ht, fun _ ht => submitsAlone_of_isAlone h ht⟩
  | fault i => cases h
  | stop i => cases h

theorem one_worker_at_a_time_waiting :
    submissions (workedPool.store.eventsOf animationId) = 1 ∧ ExclusiveClaims workedPool ∧
      submissions (workedPool.store.eventsOf animationId) ≤ 1 := by
  have hsubmissions : submissions (workedPool.store.eventsOf animationId) = 1 := by
    decide +kernel
  have hleases : Pool.checks (renderLeaseRules artifactService SparesLeases) isAlone
      ⟨.waiting, []⟩ oneWorker = true := by
    decide +kernel
  have hsubmits : Pool.checks (submitRules artifactService SubmitsAlone) isAlone
      ⟨.waiting, []⟩ oneWorker = true := by
    decide +kernel
  have hbackend : ArtifactMoves True ArtifactStore.blank ArtifactStore.waiting :=
    ⟨Nat.le_refl _, rfl, rfl, Or.inl trivial⟩
  have hfirst : Pool.Reaches (renderLeaseRules artifactService SparesLeases) ⟨.blank, []⟩
      workedPool :=
    Relation.ReflTransGen.head (Pool.Step.move [] _ _ hbackend) (Pool.reaches_schedule
      (Pool.allowsAll_of_checks (fun pool act h => (allows_of_isAlone pool act h).left) hleases))
  have hsecond : Pool.Reaches (submitRules artifactService SubmitsAlone) ⟨.blank, []⟩
      workedPool :=
    Relation.ReflTransGen.head (Pool.Step.move [] _ _ hbackend) (Pool.reaches_schedule
      (Pool.allowsAll_of_checks (fun pool act h => (allows_of_isAlone pool act h).right)
        hsubmits))
  exact ⟨hsubmissions, (one_worker_at_a_time artifactService).left _ hfirst,
    (one_worker_at_a_time artifactService).right _ hsecond animationId⟩

end ConversationService
