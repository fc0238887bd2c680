import ConversationService.Model.HierarchyService
import ConversationService.Python.Sha256

/-!
# Export jobs (`app/models/artifact_models.py`, statements of `app/exports/service.py`)

The table `export_jobs`, the objects under `exports/` and what `ExportService` reads from
the other stores. Every statement and every call of the object store is atomic. What a
transaction of several statements writes takes effect when it commits.
-/

namespace ConversationService

open Python ClusteredTable Programs

inductive ExportScope where
  | conversation
  | hierarchy
deriving DecidableEq, Repr

inductive ExportFormat where
  | markdown
  | pdf
deriving DecidableEq, Repr

inductive JobStatus where
  | pending
  | processing
  | ready
  | failed
  | expired
deriving DecidableEq, Repr

/-- The latest message of each conversation, `"<message id>:<status>"` by conversation id. -/
abbrev Snapshot : Type := List (Text × Text)

/-- What `request_key` is the hash of, with the items of the snapshot in order. -/
structure RequestKey where
  owner : UUID
  conversationId : UUID
  scope : ExportScope
  format : ExportFormat
  includeMedia : Bool
  snapshot : Snapshot
deriving DecidableEq, Repr

/-- A row of `export_jobs` outside its primary key. -/
structure ExportJob where
  ownerUserId : UUID
  conversationId : UUID
  scope : ExportScope
  format : ExportFormat
  includeMedia : Bool
  requestKey : RequestKey
  snapshot : Snapshot
  status : JobStatus
  progressDone : Nat
  progressTotal : Nat
  objectKey : Option Text
  filename : Option Text
  contentType : Option Text
  sizeBytes : Option Nat
  checksumSha256 : Option Text
  failureCode : Option Text
  attemptCount : Nat
  leaseUntil : Option Nat
  expiresAt : Option Nat
  createdAt : Nat
  updatedAt : Nat
deriving DecidableEq, Repr

structure StoredObject where
  bytes : Bytes
  contentType : Text
  metadata : List (Text × Text)
  lastModified : Nat
deriving DecidableEq, Repr

structure ObjectInfo where
  key : Text
  size : Nat
  lastModified : Nat
deriving DecidableEq, Repr

/-- The file that a renderer has written, with the name it is to be served under. -/
structure RenderedFile where
  bytes : Bytes
  filename : Text
  contentType : Text
deriving DecidableEq, Repr

inductive RenderFailure where
  | pdfUnavailable
  | other
deriving DecidableEq, Repr

/--
`now` is the clock of the database, the object store and the service, in microseconds.
`renderer` and `rendering` are what the next lookup of the renderer and the next rendering
give.
-/
structure ExportStore where
  now : Nat
  sources : Store
  jobs : Partition UUID ExportJob
  objects : Partition Text StoredObject
  renderer : Text × Text
  rendering : Except RenderFailure RenderedFile

namespace ExportJob

def isUnfinished (j : ExportJob) : Bool :=
  j.status == .pending || j.status == .processing

/-- `status IN LIVE` -/
def isLive (j : ExportJob) : Bool :=
  j.isUnfinished || j.status == .ready

/-- `lease_until IS NULL OR lease_until < now()` -/
def leaseFree (j : ExportJob) (now : Nat) : Bool :=
  j.leaseUntil.all (fun lease => lease < now)

/-- `status = 'ready' AND expires_at < now()` -/
def isLapsed (j : ExportJob) (now : Nat) : Bool :=
  j.status == .ready && j.expiresAt.any (fun expiry => expiry < now)

/-- The rows on which the partial unique index speaks of one request. -/
def isRequest (j : ExportJob) (owner : UUID) (key : RequestKey) : Bool :=
  j.ownerUserId == owner && j.requestKey == key

end ExportJob

/-- What an `INSERT` of a job sets; the other columns take their defaults. -/
structure NewJob where
  jobId : UUID
  ownerUserId : UUID
  conversationId : UUID
  scope : ExportScope
  format : ExportFormat
  includeMedia : Bool
  requestKey : RequestKey
  snapshot : Snapshot
  progressTotal : Nat
deriving DecidableEq, Repr

def NewJob.row (job : NewJob) (now : Nat) : ExportJob :=
  { ownerUserId := job.ownerUserId
    conversationId := job.conversationId
    scope := job.scope
    format := job.format
    includeMedia := job.includeMedia
    requestKey := job.requestKey
    snapshot := job.snapshot
    status := .pending
    progressDone := 0
    progressTotal := job.progressTotal
    objectKey := none
    filename := none
    contentType := none
    sizeBytes := none
    checksumSha256 := none
    failureCode := none
    attemptCount := 0
    leaseUntil := none
    expiresAt := none
    createdAt := now
    updatedAt := now }

/-- The values that `_set` is called with. -/
inductive JobChange where
  | progress (done total : Nat)
  | ready (objectKey filename contentType : Text) (size : Nat) (checksum : Text)
      (conversations retention : Nat)
  | fail (code : Text)
  | release (delay : Nat)
  | expire
deriving DecidableEq, Repr

def JobChange.apply (now : Nat) : JobChange -> ExportJob -> ExportJob
  | .progress done total, j =>
      { j with progressDone := done, progressTotal := total, updatedAt := now }
  | .ready objectKey filename contentType size checksum conversations retention, j =>
      { j with
        status := .ready
        objectKey := some objectKey
        filename := some filename
        contentType := some contentType
        sizeBytes := some size
        checksumSha256 := some checksum
        failureCode := none
        leaseUntil := none
        progressDone := conversations
        progressTotal := conversations
        expiresAt := some (now + retention)
        updatedAt := now }
  | .fail code, j =>
      { j with
        status := .failed, failureCode := some code, leaseUntil := none, updatedAt := now }
  | .release delay, j =>
      { j with status := .pending, leaseUntil := some (now + delay), updatedAt := now }
  | .expire, j => { j with status := .expired, objectKey := none, updatedAt := now }

namespace ExportStore

def job (s : ExportStore) (id : UUID) : Option ExportJob :=
  s.jobs.get id

/-- `UPDATE export_jobs SET ... WHERE ...` -/
def updateJobs (s : ExportStore) (select : UUID -> ExportJob -> Bool)
    (change : ExportJob -> ExportJob) : ExportStore :=
  { s with jobs := s.jobs.mapRows (fun id j => if select id j then change j else j) }

/-- An `UPDATE` of one job, with the row that `RETURNING` gives. -/
def updateJob (s : ExportStore) (id : UUID) (select : ExportJob -> Bool)
    (change : ExportJob -> ExportJob) : Option ExportJob × ExportStore :=
  (((s.job id).filter select).map change,
    s.updateJobs (fun id' j => id' == id && select j) change)

def insertRow (s : ExportStore) (id : UUID) (j : ExportJob) : ExportStore :=
  { s with jobs := s.jobs.upsert id (fun _ => j) }

def putObject (s : ExportStore) (key : Text) (object : StoredObject) : ExportStore :=
  { s with objects := s.objects.upsert key (fun _ => object) }

def deleteObject (s : ExportStore) (key : Text) : ExportStore :=
  { s with objects := s.objects.erase key }

/-- The jobs that a query selects, in the order of the table. -/
def selectJobs (s : ExportStore) (select : UUID -> ExportJob -> Bool) :
    List (UUID × ExportJob) :=
  s.jobs.rows.filter (fun e => select e.1 e.2)

/-- The first `UPDATE` of a creation takes effect. -/
def expireLapsed (s : ExportStore) (lapsed : List UUID) : ExportStore :=
  s.updateJobs (fun id j => lapsed.contains id && j.status == .ready)
    (fun j => { j with status := .expired })

@[simp] theorem job_updateJobs (s : ExportStore) (select : UUID -> ExportJob -> Bool)
    (change : ExportJob -> ExportJob) (id : UUID) :
    (s.updateJobs select change).job id =
      (s.job id).map (fun j => if select id j then change j else j) :=
  Partition.get_mapRows _ _ _

@[simp] theorem job_expireLapsed (s : ExportStore) (lapsed : List UUID) (id : UUID) :
    (s.expireLapsed lapsed).job id =
      (s.job id).map (fun j =>
        if (lapsed.contains id && j.status == .ready) = true then
          { j with status := .expired }
        else j) :=
  job_updateJobs s _ _ id

theorem job_insertRow (s : ExportStore) (id id' : UUID) (j : ExportJob) :
    (s.insertRow id j).job id' = if id' = id then some j else s.job id' := by
  unfold insertRow job
  by_cases h : id' = id
  · rw [h, if_pos rfl]
    exact Partition.get_upsert_self _ _ _
  · rw [if_neg h]
    exact Partition.get_upsert_ne _ _ h

theorem mem_selectJobs {s : ExportStore} {select : UUID -> ExportJob -> Bool} {id : UUID}
    {j : ExportJob} :
    (id, j) ∈ s.selectJobs select <-> s.job id = some j ∧ select id j = true := by
  unfold selectJobs job
  rw [List.mem_filter, Partition.get_eq_some_iff]

end ExportStore

inductive ExportOp where
  /-- an operation on the stores of the conversations and messages -/
  | source (o : Op)
  | currentRenderer
  | render
  | time
  -- the transaction of `create`
  | selectLapsed (owner : UUID) (key : RequestKey)
  -- the key says which creation counts; the statement does not read it
  | countUnfinished (owner : UUID) (key : RequestKey)
  | selectReusable (owner : UUID) (key : RequestKey) (lapsed : List UUID)
  | commitLapsed (lapsed : List UUID)
  | insertJob (job : NewJob) (lapsed : List UUID)
  -- the other statements
  | claimJob (jobId : UUID) (maxAttempts lease : Nat)
  | setJob (jobId : UUID) (allowed : List JobStatus) (change : JobChange)
  | selectWaiting
  | failExhausted (maxAttempts : Nat)
  | selectDue
  | pruneJobs (age : Nat)
  | selectStatus (jobId : UUID)
  -- the object store
  | putFile (key : Text) (file : RenderedFile) (metadata : List (Text × Text))
  | statObject (key : Text)
  | deleteObject (key : Text)
  | listObjects (start : Text)

@[reducible] def ExportOp.Res : ExportOp -> Type
  | .source o => o.Res
  | .currentRenderer => Text × Text
  | .render => Except RenderFailure RenderedFile
  | .time => Nat
  | .selectLapsed _ _ => List UUID
  | .countUnfinished _ _ => Nat
  | .selectReusable _ _ _ => Option (UUID × ExportJob)
  | .insertJob _ _ => Option ExportJob
  | .claimJob _ _ _ => Option ExportJob
  | .setJob _ _ _ => Bool
  | .selectWaiting => List UUID
  | .selectDue => List (UUID × Option Text)
  | .pruneJobs _ => List UUID
  | .selectStatus _ => Option JobStatus
  | .statObject _ => Option ObjectInfo
  | .listObjects _ => List ObjectInfo
  | _ => Unit

abbrev exportStorage : Signature where
  Op := ExportOp
  Res := ExportOp.Res

def StoredObject.info (key : Text) (object : StoredObject) : ObjectInfo :=
  { key := key, size := object.bytes.length, lastModified := object.lastModified }

def ExportOp.exec : (o : ExportOp) -> ExportStore -> o.Res × ExportStore
  | .source o, s => ((o.exec s.sources).1, { s with sources := (o.exec s.sources).2 })
  | .currentRenderer, s => (s.renderer, s)
  | .render, s => (s.rendering, s)
  | .time, s => (s.now, s)
  | .selectLapsed owner key, s =>
      ((s.selectJobs (fun _ j => j.isRequest owner key && j.isLapsed s.now)).map Prod.fst, s)
  | .countUnfinished owner _, s =>
      ((s.selectJobs (fun _ j => j.ownerUserId == owner && j.isUnfinished)).length, s)
  | .selectReusable owner key lapsed, s =>
      ((s.selectJobs (fun id j =>
        j.isRequest owner key && j.isLive && !lapsed.contains id)).head?, s)
  | .commitLapsed lapsed, s => ((), s.expireLapsed lapsed)
  | .insertJob job lapsed, s =>
      let t := s.expireLapsed lapsed
      -- ON CONFLICT DO NOTHING, on the primary key or on the partial unique index
      if (t.job job.jobId).isSome ||
          !(t.selectJobs (fun _ j =>
            j.isRequest job.ownerUserId job.requestKey && j.isLive)).isEmpty then (none, s)
      else (some (job.row s.now), t.insertRow job.jobId (job.row s.now))
  | .claimJob jobId maxAttempts lease, s =>
      s.updateJob jobId
        (fun j => j.isUnfinished && j.attemptCount < maxAttempts && j.leaseFree s.now)
        (fun j =>
          { j with
            status := .processing
            attemptCount := j.attemptCount + 1
            leaseUntil := some (s.now + lease)
            updatedAt := s.now })
  | .setJob jobId allowed change, s =>
      let result := s.updateJob jobId (fun j => allowed.contains j.status) (change.apply s.now)
      (result.1.isSome, result.2)
  | .selectWaiting, s =>
      -- ORDER BY created_at LIMIT 10
      ((((s.selectJobs (fun _ j => j.isUnfinished && j.leaseFree s.now)).insertionSort
        (fun a b => a.2.createdAt ≤ b.2.createdAt)).take 10).map Prod.fst, s)
  | .failExhausted maxAttempts, s =>
      ((), s.updateJobs
        (fun _ j => j.isUnfinished && maxAttempts ≤ j.attemptCount && j.leaseFree s.now)
        (JobChange.apply s.now (.fail (text "export_error"))))
  | .selectDue, s =>
      (((s.selectJobs (fun _ j => j.isLapsed s.now)).take 100).map
        (fun e => (e.1, e.2.objectKey)), s)
  | .pruneJobs age, s =>
      let old := fun (j : ExportJob) =>
        (j.status == .failed || j.status == .expired) && j.updatedAt + age < s.now
      ((s.selectJobs (fun _ j => old j)).map Prod.fst,
        { s with jobs := s.jobs.filterRows (fun _ j => !old j) })
  | .selectStatus jobId, s => ((s.job jobId).map ExportJob.status, s)
  | .putFile key file metadata, s =>
      ((), s.putObject key
        { bytes := file.bytes
          contentType := file.contentType
          metadata := metadata
          lastModified := s.now })
  | .statObject key, s => ((s.objects.get key).map (StoredObject.info key), s)
  | .deleteObject key, s => ((), s.deleteObject key)
  | .listObjects start, s =>
      ((s.objects.rows.reverse.filter (fun e => start.isPrefixOf e.1)).map
        (fun e => e.2.info e.1), s)

def exportMachine : Machine exportStorage ExportStore where
  exec := ExportOp.exec

end ConversationService
