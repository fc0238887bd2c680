import ConversationService.Effects.OutboxPasses

/-!
# Bucket leases

A worker takes the lease of a bucket with one command and remembers the bucket. It gives a
lease back, and renews it, after it has read in a command of its own that the key has its
id, and it works on a bucket that it remembers. The key may reach its expiry in between.
-/

namespace ConversationService

open Python Programs

/-!
# The calls of a worker
-/

def OutboxCall.worker : OutboxCall -> Option Worker
  | .turn _ worker _ _ _ => some worker
  | .renewal _ worker => some worker
  | .shutDown _ worker => some worker
  | _ => none

def OutboxCall.IsShutDown : OutboxCall -> Prop
  | .shutDown _ _ => True
  | _ => False

instance (call : OutboxCall) : Decidable call.IsShutDown := by
  cases call
  case shutDown => exact isTrue trivial
  all_goals exact isFalse id

/--
`start` releases the locks of a worker after its last scan and after the end of the
renewal task.
-/
def Excludes (call call' : OutboxCall) : Prop :=
  (call.IsShutDown ∨ call'.IsShutDown) ∧ call.worker.isSome = true ∧
    call.worker = call'.worker

instance (call call' : OutboxCall) : Decidable (Excludes call call') :=
  inferInstanceAs (Decidable (_ ∧ _))

theorem excludes_symm {call call' : OutboxCall} (h : Excludes call call') :
    Excludes call' call :=
  ⟨h.left.symm, h.right.right ▸ h.right.left, h.right.right.symm⟩

/-- The call does not come upon one that has to end before it. -/
def InTurn (c : OutboxPool) (call : OutboxCall) : Prop :=
  forall t, t ∈ c.tasks -> t.prog.Running -> ¬Excludes t.call call

instance (c : OutboxPool) (call : OutboxCall) : Decidable (InTurn c call) :=
  inferInstanceAs (Decidable (forall t, t ∈ c.tasks -> _))

def leaseRules (outboxBuckets : Nat) (permits : OutboxPool -> OutboxTask -> Prop) :
    Rules OutboxCall outboxStorage PyExc Unit OutboxWorld :=
  outboxRules outboxBuckets permits InTurn

/-!
# Acts on a lease
-/

/-- On the way into `process_bucket`, from the moment the lease was found or taken. -/
def Enters : OutboxOp -> Nat -> Prop
  | .addLocked _ bucket, bucket' => bucket = bucket'
  | .fetchUnpublished bucket _, bucket' => bucket = bucket'
  | _, _ => False

def ActsOnKey (kind : WorkerKind) : OutboxOp -> Nat -> Prop
  | .expireLease kind' bucket, bucket' => kind' = kind ∧ bucket = bucket'
  | .deleteLease kind' bucket, bucket' => kind' = kind ∧ bucket = bucket'
  | _, _ => False

def ShowsLease (worker : Worker) :
    forall o : outboxStorage.Op, outboxStorage.Res o -> Nat -> Prop
  | .getLease _ bucket, owner, bucket' => bucket = bucket' ∧ owner = some worker.workerId
  | .setLease _ bucket, acquired, bucket' => bucket = bucket' ∧ acquired = true
  | .isLocked _ bucket, mine, bucket' => bucket = bucket' ∧ mine = true
  | .addLocked _ bucket, _, bucket' => bucket = bucket'
  | _, _, _ => False

def EntersNext (t : OutboxTask) (bucket : Nat) : Prop :=
  Prog.HeadNeeds Enters bucket t.prog

def ActsNext (kind : WorkerKind) (t : OutboxTask) (bucket : Nat) : Prop :=
  Prog.HeadNeeds (ActsOnKey kind) bucket t.prog

def OutboxWorld.Holds (w : OutboxWorld) (worker : Worker) (bucket : Nat) : Prop :=
  w.leases (worker.kind, bucket) = some worker.workerId

instance (w : OutboxWorld) (worker : Worker) (bucket : Nat) :
    Decidable (w.Holds worker bucket) :=
  inferInstanceAs (Decidable (_ = _))

/--
A scan finds a bucket among the locked ones only while its key has the id of the worker,
no key reaches its expiry while its worker is on the way into the bucket, and no worker
takes the key of a bucket while another one is about to renew or to release it.
-/
structure Timely (c : OutboxPool) (t : OutboxTask) : Prop where
  found : forall worker bucket next, t.prog = .op (.isLocked worker bucket) next ->
    bucket ∈ c.store.locked worker -> c.store.Holds worker bucket
  lapses : forall kind bucket next, t.prog = .op (.lapse kind bucket) next ->
    forall t' worker, t' ∈ c.tasks -> t'.call.worker = some worker -> worker.kind = kind ->
      ¬EntersNext t' bucket
  takes : forall worker bucket next, t.prog = .op (.setLease worker bucket) next ->
    forall t' worker', t' ∈ c.tasks -> t'.call.worker = some worker' -> worker' ≠ worker ->
      ¬ActsNext worker.kind t' bucket

structure Exclusive (c : OutboxPool) : Prop where
  /-- a key that is renewed or released is gone or has the id of the worker -/
  acts : forall t kind bucket, t ∈ c.tasks -> ActsNext kind t bucket ->
    exists worker, t.call.worker = some worker ∧ worker.kind = kind ∧
      (c.store.leases (kind, bucket) = none ∨ c.store.Holds worker bucket)
  /-- a worker keeps its lease until it releases it or the key reaches its expiry -/
  keeps : forall t o next worker bucket, t ∈ c.tasks -> t.prog = .op o next ->
    c.store.Holds worker bucket ->
    (o.exec c.store).2.Holds worker bucket ∨ o = .lapse worker.kind bucket ∨
      (o = .deleteLease worker.kind bucket ∧ t.call.worker = some worker)
  /-- and nobody else takes it meanwhile -/
  refuses : forall worker worker' bucket, worker.kind = worker'.kind ->
    c.store.Holds worker bucket ->
    ((OutboxOp.setLease worker' bucket).exec c.store).1 = false
  /-- a bucket is processed by the worker that has its lease -/
  enters : forall t bucket limit next, t ∈ c.tasks ->
    t.prog = .op (.fetchUnpublished bucket limit) next ->
    exists worker, t.call.worker = some worker ∧ c.store.Holds worker bucket

/-!
# What the programs of a worker do
-/

/-- The operations on leases that a call has, and whose they are. -/
def BelongsTo (call : OutboxCall) : OutboxOp -> Prop
  | .setLease worker _ => call.worker = some worker
  | .getLease kind _ => exists worker, call.worker = some worker ∧ worker.kind = kind
  | .expireLease kind _ => exists worker, call.worker = some worker ∧ worker.kind = kind
  | .deleteLease kind _ =>
      call.IsShutDown ∧ exists worker, call.worker = some worker ∧ worker.kind = kind
  | .isLocked worker _ => call.worker = some worker
  | .addLocked worker _ => call.worker = some worker
  | .fetchUnpublished _ _ => call.worker.isSome = true
  | _ => True

theorem belongsTo_event {call : OutboxCall} {o : OutboxOp} (h : o.IsEventOp) :
    BelongsTo call o := by
  cases o <;> trivial

theorem belongsTo_pass {call : OutboxCall} (hworker : call.worker.isSome = true)
    {o : OutboxOp} (h : o.IsPassOp) : BelongsTo call o := by
  cases o with
  | fetchUnpublished bucket limit => exact hworker
  | _ => exact belongsTo_event h

theorem belongsTo_lease {call : OutboxCall} {worker : Worker}
    (hworker : call.worker = some worker) {o : OutboxOp} (h : o.IsLeaseOpOf worker) :
    BelongsTo call o := by
  cases o with
  | setLease worker' bucket => exact hworker.trans (congrArg some h.symm)
  | isLocked worker' bucket => exact hworker.trans (congrArg some h.symm)
  | addLocked worker' bucket => exact hworker.trans (congrArg some h.symm)
  | getLease kind bucket => exact ⟨worker, hworker, h.symm⟩
  | expireLease kind bucket => exact ⟨worker, hworker, h.symm⟩
  | deleteLease kind bucket => exact h.elim
  | fetchUnpublished bucket limit => exact h.elim
  | _ => trivial

theorem belongsTo_release {redis : Bool} {worker : Worker} {o : OutboxOp}
    (h : o.IsReleaseOpOf worker) : BelongsTo (.shutDown redis worker) o := by
  cases o with
  | getLease kind bucket => exact ⟨worker, rfl, h.symm⟩
  | deleteLease kind bucket => exact ⟨trivial, worker, rfl, h.symm⟩
  | discardLocked worker' bucket => trivial
  | lockedBuckets worker' => trivial
  | stopRunning worker' => trivial
  | _ => exact h.elim

theorem belongsTo_program (call : OutboxCall) :
    Prog.AllOps (BelongsTo call) call.program := by
  have hwriter : forall {alpha : Type} (p : Py alpha),
      Prog.AllOps (BelongsTo call) (onStore p) :=
    fun p => allOps_onStore (Prog.allOps_of_forall (fun _ => trivial) p)
  cases call with
  | createMessage now c m sender content status eventId eventType payload fileIds =>
      exact hwriter _
  | createConversation now c userId title status eventId eventType payload parent branch =>
      exact hwriter _
  | updateConversation now c title status eventId eventType payload => exact hwriter _
  | turn redis worker threshold now bucket =>
      exact allOps_processWithLease (fun o ho => belongsTo_lease rfl ho) redis
        (allOps_processBucket worker.kind threshold now bucket
          (fun o ho => belongsTo_pass rfl ho))
  | renewal redis worker => exact allOps_renewLocks (fun o ho => belongsTo_lease rfl ho) redis
  | shutDown redis worker => exact allOps_shutDown (fun o ho => belongsTo_release ho) redis
  | crash worker => exact allOps_work trivial
  | lapse kind bucket => exact allOps_work trivial

def NeedsLease (o : OutboxOp) (bucket : Nat) : Prop :=
  Enters o bucket ∨ exists kind, ActsOnKey kind o bucket

/-- Whatever needs a lease comes right behind an answer that shows it. -/
def LooksFirst {alpha : Type} (worker : Worker) (p : Work alpha) : Prop :=
  Prog.Backed (S := outboxStorage) NeedsLease (ShowsLease worker) p

def Free (o : OutboxOp) : Prop :=
  forall bucket, ¬NeedsLease o bucket

theorem free_of {o : OutboxOp} (henters : forall bucket, ¬Enters o bucket)
    (hacts : forall kind bucket, ¬ActsOnKey kind o bucket) : Free o := by
  intro bucket h
  rcases h with henter | ⟨kind, hact⟩
  · exact henters bucket henter
  · exact hacts kind bucket hact

theorem free_event {o : OutboxOp} (h : o.IsEventOp) : Free o := by
  cases o with
  | markPublished bucket eventId => exact free_of (fun _ => id) (fun _ _ => id)
  | publish eventId topic key value => exact free_of (fun _ => id) (fun _ _ => id)
  | logFailure kind eventId => exact free_of (fun _ => id) (fun _ _ => id)
  | _ => exact h.elim

section Programs

variable {alpha : Type} {worker : Worker}

theorem looksFirst_processBucket (kind : WorkerKind) (threshold : Int) (now : Datetime)
    (bucket : Nat) : LooksFirst worker (kind.processBucket threshold now bucket) := by
  rcases processBucket_fetches kind threshold now bucket (fun o ho => free_event ho) with
    ⟨limit, next, hprog, hnext⟩
  rw [hprog]
  exact Prog.backed_op hnext

theorem bucket_of_headNeeds {kind : WorkerKind} {threshold : Int} {now : Datetime}
    {bucket bucket' : Nat}
    (h : Prog.HeadNeeds NeedsLease bucket' (kind.processBucket threshold now bucket)) :
    bucket = bucket' := by
  rcases processBucket_fetches kind threshold now bucket (fun o ho => free_event ho) with
    ⟨limit, next, hprog, _⟩
  rw [hprog] at h
  rcases h with henters | ⟨kind', hacts⟩
  · exact henters
  · exact hacts.elim

theorem looksFirst_turn (redis : Bool) (threshold : Int) (now : Datetime) (bucket : Nat) :
    LooksFirst worker (Leases.processWithLease redis worker
      (worker.kind.processBucket threshold now) bucket) := by
  have hpass : LooksFirst worker (worker.kind.processBucket threshold now bucket) :=
    looksFirst_processBucket _ threshold now bucket
  refine ⟨fun b => id, ?_, ?_⟩
  · intro mine b hneeds
    cases mine with
    | true => exact ⟨bucket_of_headNeeds hneeds, rfl⟩
    | false =>
        cases redis with
        | false => exact hneeds.elim
        | true => exact absurd hneeds (free_of (fun _ => id) (fun _ _ => id) b)
  · intro answer
    match answer, redis with
    | none, _ => trivial
    | some true, _ => exact hpass
    | some false, false => trivial
    | some false, true =>
        -- the answer to `SET ... NX EX`
        refine ⟨fun b => id, ?_, ?_⟩
        · intro acquired b hneeds
          cases acquired with
          | true =>
              rcases hneeds with henters | ⟨kind, hacts⟩
              · exact ⟨henters, rfl⟩
              · exact hacts.elim
          | false => exact hneeds.elim
        · intro answer
          match answer with
          | none => trivial
          | some false => trivial
          | some true =>
              refine ⟨fun b => id, fun _ b hneeds => bucket_of_headNeeds hneeds, ?_⟩
              intro answer
              cases answer with
              | none => trivial
              | some _ => exact hpass

theorem looksFirst_renewLock (bucket : Nat) :
    LooksFirst worker (Leases.renewLock worker bucket) := by
  refine ⟨fun b => id, ?_, ?_⟩
  · intro owner b hneeds
    change Prog.HeadNeeds NeedsLease b (Prog.tryCatch
      (if owner = some worker.workerId then work (.expireLease worker.kind bucket)
        else work (.discardLocked worker bucket)) _) at hneeds
    split at hneeds
    · rename_i howner
      rcases hneeds with henters | ⟨kind, hacts⟩
      · exact henters.elim
      · exact ⟨hacts.right, howner⟩
    · exact absurd hneeds (free_of (fun _ => id) (fun _ _ => id) b)
  · intro answer
    cases answer with
    | none => trivial
    | some owner =>
        show LooksFirst worker (Prog.tryCatch
          (if owner = some worker.workerId then work (.expireLease worker.kind bucket)
            else work (.discardLocked worker bucket)) _)
        split
        · apply Prog.backed_op
          intro answer
          cases answer <;> trivial
        · apply Prog.backed_op
          intro answer
          cases answer <;> trivial

theorem looksFirst_releaseLock (redis : Bool) (bucket : Nat) :
    LooksFirst worker (Leases.releaseLock redis worker bucket) := by
  cases redis with
  | false => trivial
  | true =>
      refine ⟨fun b => id, ?_, ?_⟩
      · intro owner b hneeds
        change Prog.HeadNeeds NeedsLease b (Prog.tryCatch
          (if owner = some worker.workerId then do
              work (.deleteLease worker.kind bucket)
              work (.discardLocked worker bucket)
            else pure ()) _) at hneeds
        split at hneeds
        · rename_i howner
          rcases hneeds with henters | ⟨kind, hacts⟩
          · exact henters.elim
          · exact ⟨hacts.right, howner⟩
        · exact hneeds.elim
      · intro answer
        cases answer with
        | none => trivial
        | some owner =>
            show LooksFirst worker (Prog.tryCatch
              (if owner = some worker.workerId then do
                  work (.deleteLease worker.kind bucket)
                  work (.discardLocked worker bucket)
                else pure ()) _)
            split
            · apply Prog.backed_op
              intro answer
              cases answer with
              | none => trivial
              | some _ =>
                  refine ⟨free_of (fun _ => id) (fun _ _ => id), ?_⟩
                  intro answer
                  cases answer <;> trivial
            · trivial

theorem looksFirst_renewLocks (redis : Bool) :
    LooksFirst worker (Leases.renewLocks redis worker) := by
  have hhead : forall buckets b,
      ¬Prog.HeadNeeds NeedsLease b (Leases.renewEach worker buckets) := by
    intro buckets b
    cases buckets with
    | nil => exact id
    | cons bucket rest => exact free_of (fun _ => id) (fun _ _ => id) b
  have hloop : forall buckets, LooksFirst worker (Leases.renewEach worker buckets) := by
    intro buckets
    induction buckets with
    | nil => trivial
    | cons bucket rest ih =>
        exact Prog.backed_bind (looksFirst_renewLock bucket) (fun _ => ih)
          (fun _ => hhead rest)
  cases redis with
  | false => trivial
  | true =>
      refine ⟨fun b => id, fun buckets b hneeds => absurd hneeds (hhead buckets b), ?_⟩
      intro answer
      cases answer with
      | none => trivial
      | some buckets => exact hloop buckets

theorem looksFirst_shutDown (redis : Bool) :
    LooksFirst worker (Leases.shutDown redis worker) := by
  have hhead : forall buckets b,
      ¬Prog.HeadNeeds NeedsLease b (Leases.releaseEach redis worker buckets) := by
    intro buckets b
    induction buckets with
    | nil => exact id
    | cons bucket rest ih =>
        cases redis with
        | false => exact ih
        | true => exact free_of (fun _ => id) (fun _ _ => id) b
  have hloop : forall buckets,
      LooksFirst worker (Leases.releaseEach redis worker buckets) := by
    intro buckets
    induction buckets with
    | nil => trivial
    | cons bucket rest ih =>
        exact Prog.backed_bind (looksFirst_releaseLock redis bucket) (fun _ => ih)
          (fun _ => hhead rest)
  refine ⟨fun b => id, fun _ b => free_of (fun _ => id) (fun _ _ => id) b, ?_⟩
  intro answer
  cases answer with
  | none => trivial
  | some _ =>
      refine ⟨fun b => id, fun buckets b hneeds => absurd hneeds (hhead buckets b), ?_⟩
      intro answer
      cases answer with
      | none => trivial
      | some buckets => exact hloop buckets

end Programs

theorem looksFirst_program {call : OutboxCall} (h : call.worker = some worker) :
    LooksFirst worker call.program := by
  cases call with
  | turn redis worker' threshold now bucket =>
      cases h
      exact looksFirst_turn redis threshold now bucket
  | renewal redis worker' =>
      cases h
      exact looksFirst_renewLocks redis
  | shutDown redis worker' =>
      cases h
      exact looksFirst_shutDown redis
  | _ => cases h

/-!
# The invariant
-/

/-- What is known of a task and of the key of the bucket that it is about to act on. -/
structure Entitled (w : OutboxWorld) (t : OutboxTask) : Prop where
  ops : Prog.AllOps (BelongsTo t.call) t.prog
  looks : forall worker, t.call.worker = some worker -> LooksFirst worker t.prog
  enters : forall worker bucket, t.call.worker = some worker -> EntersNext t bucket ->
    w.Holds worker bucket
  acts : forall worker bucket, t.call.worker = some worker ->
    ActsNext worker.kind t bucket ->
    w.leases (worker.kind, bucket) = none ∨ w.Holds worker bucket

/-- Of two running tasks none has to end before the other one. -/
def Apart (t t' : OutboxTask) : Prop :=
  t.prog.Running -> t'.prog.Running -> ¬Excludes t.call t'.call

section Steps

variable {w : OutboxWorld} {worker : Worker} {bucket : Nat} {call : OutboxCall}
  {o : OutboxOp} {next : Option (outboxStorage.Res o) -> Work Unit}

theorem needsLease_of_enters {t : OutboxTask} (h : EntersNext t bucket) :
    Prog.HeadNeeds NeedsLease bucket t.prog := by
  rcases t with ⟨call, prog⟩
  cases prog with
  | op o next => exact Or.inl h
  | _ => exact h

theorem needsLease_of_acts {t : OutboxTask} {kind : WorkerKind} (h : ActsNext kind t bucket) :
    Prog.HeadNeeds NeedsLease bucket t.prog := by
  rcases t with ⟨call, prog⟩
  cases prog with
  | op o next => exact Or.inr ⟨kind, h⟩
  | _ => exact h

def WritesKey (kind : WorkerKind) (bucket : Nat) : OutboxOp -> Prop
  | .setLease worker bucket' => worker.kind = kind ∧ bucket' = bucket
  | .deleteLease kind' bucket' => kind' = kind ∧ bucket' = bucket
  | .lapse kind' bucket' => kind' = kind ∧ bucket' = bucket
  | _ => False

theorem leases_setLease {kind kind' : WorkerKind} {bucket' : Nat} {value : Option Text}
    (h : ¬(kind' = kind ∧ bucket' = bucket)) :
    (w.setLease kind' bucket' value).leases (kind, bucket) = w.leases (kind, bucket) := by
  unfold OutboxWorld.setLease
  dsimp only
  apply Function.update_of_ne
  intro heq
  cases heq
  exact h ⟨rfl, rfl⟩

theorem leases_exec {kind : WorkerKind} (h : ¬WritesKey kind bucket o) :
    (o.exec w).2.leases (kind, bucket) = w.leases (kind, bucket) := by
  cases o with
  | setLease worker bucket' => exact leases_setLease h
  | deleteLease kind' bucket' => exact leases_setLease h
  | lapse kind' bucket' => exact leases_setLease h
  | storage o' =>
      show (w.stage o').leases (kind, bucket) = _
      unfold OutboxWorld.stage
      split
      · rfl
      · rfl
  | markPublished bucket' eventId =>
      show (w.markPublished bucket' eventId).leases (kind, bucket) = _
      unfold OutboxWorld.markPublished
      split
      · rfl
      · rfl
  | _ => rfl

theorem eq_of_holds {worker' : Worker} (hkind : worker'.kind = worker.kind)
    (h' : w.Holds worker' bucket) (h : w.Holds worker bucket) : worker' = worker := by
  unfold OutboxWorld.Holds at h h'
  rw [hkind, h] at h'
  cases worker
  cases worker'
  cases hkind
  exact congrArg _ (Option.some.inj h').symm

theorem holds_exec_setLease {worker' : Worker} {bucket' : Nat} (h : w.Holds worker bucket) :
    ((OutboxOp.setLease worker' bucket').exec w).2.Holds worker bucket := by
  by_cases hkey : worker'.kind = worker.kind ∧ bucket' = bucket
  · rcases hkey with ⟨hkind, rfl⟩
    unfold OutboxWorld.Holds at h ⊢
    simp [OutboxOp.exec, OutboxWorld.setLease, hkind, h]
  · exact (leases_setLease hkey).trans h

theorem holds_of_shows {c : OutboxPool} (htimely : Timely c ⟨call, .op o next⟩)
    (h : Entitled c.store ⟨call, .op o next⟩) (hworker : call.worker = some worker)
    (hshows : ShowsLease worker o (o.exec c.store).1 bucket) :
    (o.exec c.store).2.Holds worker bucket := by
  have hmine := h.ops.left
  cases o with
  | getLease kind bucket' =>
      rcases hshows with ⟨rfl, howner⟩
      rcases hmine with ⟨worker', hworker', rfl⟩
      cases hworker.symm.trans hworker'
      exact howner
  | setLease worker' bucket' =>
      rcases hshows with ⟨rfl, hacquired⟩
      cases hworker.symm.trans hmine
      have hfree : c.store.leases (worker.kind, bucket') = none :=
        Option.isNone_iff_eq_none.mp hacquired
      simp [OutboxOp.exec, OutboxWorld.setLease, OutboxWorld.Holds, hfree]
  | isLocked worker' bucket' =>
      rcases hshows with ⟨rfl, hlocked⟩
      cases hworker.symm.trans hmine
      exact htimely.found worker bucket' next rfl (List.contains_iff_mem.mp hlocked)
  | addLocked worker' bucket' =>
      cases hshows
      exact h.enters worker bucket hworker rfl
  | _ => exact hshows.elim

theorem entitled_other {c : OutboxPool} {t : OutboxTask}
    (htimely : Timely c ⟨call, .op o next⟩) (hmem : t ∈ c.tasks)
    (hother : Entitled c.store ⟨call, .op o next⟩) (hapart : Apart ⟨call, .op o next⟩ t)
    (h : Entitled c.store t) : Entitled (o.exec c.store).2 t := by
  have hrunning : forall {needs : OutboxOp -> Nat -> Prop} {b : Nat},
      Prog.HeadNeeds (S := outboxStorage) needs b t.prog -> t.prog.Running := by
    intro needs b hneeds
    rcases t with ⟨call', prog⟩
    cases prog with
    | op o' next' => trivial
    | _ => exact hneeds.elim
  refine ⟨h.ops, h.looks, ?_, ?_⟩
  · intro worker bucket hworker hneeds
    have hholds := h.enters worker bucket hworker hneeds
    by_cases hwrites : WritesKey worker.kind bucket o
    · cases o with
      | setLease worker' bucket' => exact holds_exec_setLease hholds
      | deleteLease kind bucket' =>
          exfalso
          rcases hwrites with ⟨rfl, rfl⟩
          rcases hother.ops.left with ⟨hdown, worker', hworker', hkind⟩
          have hown : worker' = worker := by
            rcases hother.acts worker' bucket' hworker' ⟨hkind.symm, rfl⟩ with hnone | hid
            · rw [hkind, hholds] at hnone
              cases hnone
            · exact eq_of_holds hkind hid hholds
          subst hown
          apply hapart trivial (hrunning hneeds)
          exact ⟨Or.inl hdown, by rw [hworker']; rfl, hworker'.trans hworker.symm⟩
      | lapse kind bucket' =>
          exfalso
          rcases hwrites with ⟨rfl, rfl⟩
          exact htimely.lapses worker.kind bucket' next rfl t worker hmem hworker rfl hneeds
      | _ => exact hwrites.elim
    · exact (leases_exec hwrites).trans hholds
  · intro worker bucket hworker hneeds
    by_cases hwrites : WritesKey worker.kind bucket o
    · cases o with
      | setLease worker' bucket' =>
          rcases hwrites with ⟨hkind, rfl⟩
          rcases h.acts worker bucket' hworker hneeds with hnone | hholds
          · by_cases hsame : worker = worker'
            · subst hsame
              right
              simp [OutboxOp.exec, OutboxWorld.setLease, OutboxWorld.Holds, hnone]
            · rw [← hkind] at hneeds
              exact absurd hneeds
                (htimely.takes worker' bucket' next rfl t worker hmem hworker hsame)
          · exact Or.inr (holds_exec_setLease hholds)
      | deleteLease kind bucket' =>
          rcases hwrites with ⟨rfl, rfl⟩
          left
          simp [OutboxOp.exec, OutboxWorld.setLease]
      | lapse kind bucket' =>
          rcases hwrites with ⟨rfl, rfl⟩
          left
          simp [OutboxOp.exec, OutboxWorld.setLease]
      | _ => exact hwrites.elim
    · unfold OutboxWorld.Holds
      rw [leases_exec hwrites]
      exact h.acts worker bucket hworker hneeds

end Steps

theorem apart_symm (t t' : OutboxTask) (h : Apart t t') : Apart t' t :=
  fun hrunning hrunning' hexcludes => h hrunning' hrunning (excludes_symm hexcludes)

theorem entitled_start (w : OutboxWorld) (call : OutboxCall) :
    Entitled w ⟨call, call.program⟩ := by
  have hfirst : forall (worker : Worker) bucket, call.worker = some worker ->
      ¬Prog.HeadNeeds NeedsLease bucket call.program := by
    intro worker bucket hworker
    cases call with
    | turn redis worker' threshold now bucket' =>
        exact free_of (fun _ => id) (fun _ _ => id) bucket
    | renewal redis worker' =>
        cases redis with
        | false => exact id
        | true => exact free_of (fun _ => id) (fun _ _ => id) bucket
    | shutDown redis worker' => exact free_of (fun _ => id) (fun _ _ => id) bucket
    | _ => cases hworker
  refine ⟨belongsTo_program call, fun _ hworker => looksFirst_program hworker, ?_, ?_⟩
  · intro worker bucket hworker henters
    exact absurd (needsLease_of_enters henters) (hfirst worker bucket hworker)
  · intro worker bucket hworker hacts
    exact absurd (needsLease_of_acts hacts) (hfirst worker bucket hworker)

/-- The steps of all tasks keep the leases that the tasks are about to act on. -/
theorem leaseProof (n : Nat) :
    Pool.LocalProof (leaseRules n Timely) (fun _ => True) Entitled Apart where
  symm := apart_symm
  own := by
    intro before after call o next s h hpermits
    refine ⟨trivial, ?_⟩
    have hmine : Entitled s ⟨call, .op o next⟩ := h.each _ (by simp)
    have hshown : forall worker bucket, call.worker = some worker ->
        Prog.HeadNeeds NeedsLease bucket (next (some (o.exec s).1)) ->
        (o.exec s).2.Holds worker bucket := by
      intro worker bucket hworker hneeds
      exact holds_of_shows hpermits.right hmine hworker
        ((hmine.looks worker hworker).right.left _ bucket hneeds)
    refine ⟨hmine.ops.right _, ?_, ?_, ?_⟩
    · intro worker hworker
      exact (hmine.looks worker hworker).right.right _
    · intro worker bucket hworker henters
      exact hshown worker bucket hworker (needsLease_of_enters henters)
    · intro worker bucket hworker hacts
      exact Or.inr (hshown worker bucket hworker (needsLease_of_acts hacts))
  ownFault := by
    intro before after call o next s h _
    refine ⟨trivial, ?_⟩
    have hmine : Entitled s ⟨call, .op o next⟩ := h.each _ (by simp)
    refine ⟨hmine.ops.right _, ?_, ?_, ?_⟩
    · intro worker hworker
      exact (hmine.looks worker hworker).right.right _
    · intro worker bucket hworker henters
      exact absurd (needsLease_of_enters henters) ((hmine.looks worker hworker).left bucket)
    · intro worker bucket hworker hacts
      exact absurd (needsLease_of_acts hacts) ((hmine.looks worker hworker).left bucket)
  stable := by
    intro c call o next q h hmem hpermits hq hapart
    exact entitled_other hpermits.right hq (h.each _ hmem) hapart (h.each q hq)
  apartNext := by
    intro c call o next q _ _ _ _ hapart _ hrunning
    exact hapart trivial hrunning
  apartFault := by
    intro c call o next q _ _ _ _ hapart _ hrunning
    exact hapart trivial hrunning
  stopped := fun _ _ _ _ _ _ _ _ _ => trivial
  started := by
    intro c call _ hstart
    refine ⟨trivial, entitled_start c.store call, ?_⟩
    intro q hq hrunning _
    exact hstart.right q hq hrunning
  moved := fun _ _ _ _ hmoves => hmoves.elim

theorem exclusive_of_holds {c : OutboxPool}
    (h : Pool.Holds (fun _ => True) Entitled Apart c) : Exclusive c := by
  constructor
  · intro t kind bucket ht hacts
    have hmine := h.each t ht
    have hworker : exists worker, t.call.worker = some worker ∧ worker.kind = kind := by
      rcases t with ⟨call, prog⟩
      cases prog with
      | op o next =>
          have hop := hmine.ops.left
          cases o with
          | expireLease kind' bucket' =>
              rcases hacts with ⟨rfl, _⟩
              exact hop
          | deleteLease kind' bucket' =>
              rcases hacts with ⟨rfl, _⟩
              exact hop.right
          | _ => exact hacts.elim
      | _ => exact hacts.elim
    rcases hworker with ⟨worker, hworker, rfl⟩
    exact ⟨worker, hworker, rfl, hmine.acts worker bucket hworker hacts⟩
  · intro t o next worker bucket ht hprog hholds
    have hmine := h.each t ht
    have hop : BelongsTo t.call o := by
      have hops := hmine.ops
      rw [hprog] at hops
      exact hops.left
    by_cases hwrites : WritesKey worker.kind bucket o
    · cases o with
      | setLease worker' bucket' => exact Or.inl (holds_exec_setLease hholds)
      | lapse kind bucket' =>
          rcases hwrites with ⟨rfl, rfl⟩
          exact Or.inr (Or.inl rfl)
      | deleteLease kind bucket' =>
          rcases hwrites with ⟨rfl, rfl⟩
          rcases hop with ⟨_, worker', hworker', hkind⟩
          have hnext : ActsNext worker'.kind t bucket' := by
            unfold ActsNext
            rw [hprog]
            exact ⟨hkind.symm, rfl⟩
          right
          right
          refine ⟨rfl, ?_⟩
          rw [hworker']
          rcases hmine.acts worker' bucket' hworker' hnext with hnone | hid
          · rw [hkind, hholds] at hnone
            cases hnone
          · exact congrArg some (eq_of_holds hkind hid hholds)
      | _ => exact hwrites.elim
    · exact Or.inl ((leases_exec hwrites).trans hholds)
  · intro worker worker' bucket hkind hholds
    unfold OutboxWorld.Holds at hholds
    simp [OutboxOp.exec, ← hkind, hholds]
  · intro t bucket limit next ht hprog
    have hmine := h.each t ht
    have hworker : t.call.worker.isSome = true := by
      have hops := hmine.ops
      rw [hprog] at hops
      exact hops.left
    rcases Option.isSome_iff_exists.mp hworker with ⟨worker, hworker⟩
    refine ⟨worker, hworker, hmine.enters worker bucket hworker ?_⟩
    unfold EntersNext
    rw [hprog]
    rfl

/-- Leases that do not run out under an act are exclusive. -/
theorem leases_exclusive (n : Nat) (start : OutboxWorld) {c : OutboxPool}
    (hreach : Pool.Reaches (leaseRules n Timely) ⟨start, []⟩ c) : Exclusive c := by
  apply exclusive_of_holds
  apply Pool.holds_reaches (leaseProof n) hreach
  refine ⟨trivial, ?_, List.Pairwise.nil⟩
  intro t ht
  cases ht

/-!
# Two workers at one bucket
-/

def workerA : Worker where
  kind := .outbox
  workerId := text "worker_A"

def workerB : Worker where
  kind := .outbox
  workerId := text "worker_B"

/-- A test of the acts of workers on the first 32 buckets. -/
def leaseActs (timely : Bool) (c : OutboxPool) : Pool.Act OutboxCall -> Bool
  | .start (.turn redis worker threshold now bucket) =>
      decide (bucket < 32) && decide (InTurn c (.turn redis worker threshold now bucket))
  | .start (.shutDown redis worker) => decide (InTurn c (.shutDown redis worker))
  | .start (.lapse _ _) => true
  | .start _ => false
  | .perform i =>
      match c.tasks[i]? with
      | some ⟨_, .op (.storage _) _⟩ => false
      | some ⟨_, .op (.isLocked worker bucket) _⟩ =>
          !timely || !(c.store.locked worker).contains bucket ||
            decide (c.store.leases (worker.kind, bucket) = some worker.workerId)
      | some ⟨_, .op (.lapse _ _) _⟩ => !timely
      | some ⟨_, .op (.setLease worker _) _⟩ =>
          !timely || c.tasks.all (fun t => t.call.worker = some worker || !t.prog.Running)
      | _ => true
  | .fault _ => false
  | .stop _ => true

theorem allows_of_leaseActs {timely : Bool} {permits : OutboxPool -> OutboxTask -> Prop}
    (hpermits : forall c t, timely = false ∨ Timely c t -> permits c t)
    {c : OutboxPool} {act : Pool.Act OutboxCall} (h : leaseActs timely c act = true) :
    Pool.Allows (leaseRules 32 permits) c act := by
  cases act with
  | start call =>
      cases call with
      | turn redis worker threshold now bucket =>
          rcases Bool.and_eq_true_iff.mp h with ⟨hbucket, hturn⟩
          have hscans : bucket < 32 := of_decide_eq_true hbucket
          exact ⟨hscans, of_decide_eq_true hturn⟩
      | shutDown redis worker => exact ⟨trivial, of_decide_eq_true h⟩
      | lapse kind bucket =>
          refine ⟨trivial, ?_⟩
          intro t _ _ hexcludes
          have hnone := hexcludes.right.right ▸ hexcludes.right.left
          cases hnone
      | _ => cases h
  | perform i =>
      intro t ht
      unfold leaseActs at h
      dsimp only at h
      rw [ht] at h
      rcases t with ⟨call, prog⟩
      refine ⟨?_, hpermits c _ ?_⟩
      · intro o next e hprog
        dsimp only at hprog
        rw [hprog] at h
        cases h
      · cases timely with
        | false => exact Or.inl rfl
        | true =>
            right
            refine ⟨?_, ?_, ?_⟩
            · intro worker bucket next hprog hlocked
              dsimp only at hprog
              rw [hprog] at h
              have hheld : bucket ∉ c.store.locked worker ∨ c.store.leases
                  (worker.kind, bucket) = some worker.workerId := by
                simpa using h
              exact hheld.resolve_left (fun hnot => hnot hlocked)
            · intro kind bucket next hprog
              dsimp only at hprog
              rw [hprog] at h
              cases h
            · intro worker bucket next hprog t' worker' ht' hworker' hne hacts
              dsimp only at hprog
              rw [hprog] at h
              have hidle : t'.call.worker = some worker ∨ ¬t'.prog.Running := by
                simpa using List.all_eq_true.mp h t' ht'
              rcases hidle with hsame | hended
              · rw [hworker'] at hsame
                exact hne (Option.some.inj hsame)
              · rcases t' with ⟨call', prog'⟩
                cases prog' with
                | op o' next' => exact hended trivial
                | _ => exact hacts
  | fault i => cases h
  | stop i => exact fun _ _ => ⟨trivial, trivial⟩

/-- A worker processes a bucket, is asked to end, and another one takes the bucket. -/
def handsBucketOver : List (Pool.Act OutboxCall) :=
  let now : Datetime := ⟨0, true⟩
  [.start (.turn true workerA 0 now 0), .perform 0, .perform 0, .perform 0, .perform 0,
    .start (.turn true workerB 0 now 0), .perform 1, .perform 1,
    .start (.shutDown true workerA), .perform 2, .perform 2, .perform 2, .perform 2,
    .perform 2, .start (.turn true workerB 0 now 0), .perform 3, .perform 3, .perform 3]

theorem handsBucketOver_exclusive : exists c,
    Pool.Reaches (leaseRules 32 Timely) ⟨.blank, []⟩ c ∧ c.store.Holds workerB 0 ∧
    Exclusive c := by
  let c := handsBucketOver.foldl (Pool.play (leaseRules 32 Timely)) ⟨.blank, []⟩
  have hchecks : Pool.checks (leaseRules 32 Timely) (leaseActs true) ⟨.blank, []⟩
      handsBucketOver = true := by
    decide
  have hreach : Pool.Reaches (leaseRules 32 Timely) ⟨.blank, []⟩ c :=
    Pool.reaches_schedule (Pool.allowsAll_of_checks
      (fun _ _ h => allows_of_leaseActs (fun _ _ ht => ht.resolve_left (by simp)) h) hchecks)
  have hholds : c.store.Holds workerB 0 := by
    decide
  exact ⟨c, hreach, hholds, leases_exclusive 32 .blank hreach⟩

/-- The lease of the first worker lapses while the worker releases it. -/
def lapsesOnRelease : List (Pool.Act OutboxCall) :=
  let now : Datetime := ⟨0, true⟩
  [.start (.turn true workerA 0 now 0), .perform 0, .perform 0, .perform 0, .perform 0,
    .start (.shutDown true workerA), .perform 1, .perform 1, .perform 1,
    .start (.lapse .outbox 0), .perform 2,
    .start (.turn true workerB 0 now 0), .perform 3, .perform 3, .perform 3]

/-- The next command of a task, with the kind and the bucket when it deletes a key. -/
def OutboxTask.deletesNext : OutboxTask -> Option (WorkerKind × Nat)
  | ⟨_, .op (.deleteLease kind bucket) _⟩ => some (kind, bucket)
  | _ => none

theorem lapsed_lease_released :
    ¬forall (start : OutboxWorld) (c : OutboxPool),
      Pool.Reaches (leaseRules 32 (fun _ _ => True)) ⟨start, []⟩ c -> Exclusive c := by
  intro hall
  let rules := leaseRules 32 (fun _ _ => True)
  let c := lapsesOnRelease.foldl (Pool.play rules) ⟨.blank, []⟩
  have hchecks : Pool.checks rules (leaseActs false) ⟨.blank, []⟩ lapsesOnRelease = true := by
    decide
  have hreach : Pool.Reaches rules ⟨.blank, []⟩ c :=
    Pool.reaches_schedule (Pool.allowsAll_of_checks
      (fun _ _ h => allows_of_leaseActs (fun _ _ _ => trivial) h) hchecks)
  have hnext : c.tasks[1]?.bind OutboxTask.deletesNext = some (.outbox, 0) := by
    decide
  have hcall : c.tasks[1]?.map (fun t => t.call.worker) = some (some workerA) := by
    decide
  have hlease : c.store.leases (.outbox, 0) = some workerB.workerId := by
    decide
  rcases Option.bind_eq_some_iff.mp hnext with ⟨t, ht, hdeletes⟩
  rw [ht] at hcall
  have hworker : t.call.worker = some workerA := Option.some.inj hcall
  have hacts : ActsNext .outbox t 0 := by
    unfold OutboxTask.deletesNext at hdeletes
    split at hdeletes
    · cases hdeletes
      exact ⟨rfl, rfl⟩
    · cases hdeletes
  rcases (hall .blank c hreach).acts t .outbox 0 (List.mem_of_getElem? ht) hacts with
    ⟨worker, hown, _, hleft⟩
  cases hworker.symm.trans hown
  rw [OutboxWorld.Holds, show workerA.kind = .outbox from rfl, hlease] at hleft
  exact absurd hleft (by decide)

end ConversationService
