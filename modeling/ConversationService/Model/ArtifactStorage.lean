import ConversationService.Model.ExportJobs
import ConversationService.Model.Fingerprint
import ConversationService.Model.Media

/-!
# Artifact registry (`app/models/artifact_models.py`, statements of `app/artifacts/service.py`)

The tables `artifacts` and `artifact_refs`, the object store and the render backend, whose
answers are whatever it gives next. Every statement and every call is atomic; the inserts of
a registration take effect together.
-/

namespace ConversationService

open Python ClusteredTable Programs

inductive ArtifactStatus where
  | pending
  | queued
  | rendering
  | uploading
  | ready
  | failed
deriving DecidableEq, Repr

namespace ArtifactStatus

/-- `TERMINAL` -/
def terminal : List ArtifactStatus := [.ready, .failed]

/-- `ACTIVE` -/
def active : List ArtifactStatus := [.pending, .queued, .rendering, .uploading]

end ArtifactStatus

/-- A row of `artifacts` outside its primary key. -/
structure ArtifactRow where
  ownerUserId : UUID
  artifactType : ArtifactType
  title : Text
  fingerprint : Text
  specText : Text
  status : ArtifactStatus
  renderJobId : Option Text
  objectKey : Option Text
  thumbnailKey : Option Text
  mimeType : Option Text
  sizeBytes : Option Nat
  checksumSha256 : Option Text
  failureCode : Option Text
  attemptCount : Nat
  retryCount : Nat
  leaseUntil : Option Nat
  updatedAt : Nat
deriving DecidableEq, Repr

/-- Where an artifact appears. -/
structure ArtifactRef where
  artifactId : UUID
  conversationId : UUID
  sourceMessageId : UUID
  blockId : Text
  ownerUserId : UUID
deriving DecidableEq, Repr

structure RenderJob where
  jobId : Text
  state : Text
  failure : Option Text
deriving DecidableEq, Repr

/-- What the download of a rendered video gives, unless the backend is unavailable. -/
inductive Download where
  | file (bytes : Bytes)
  | gone
  | rejected (code : Text)
deriving DecidableEq, Repr

/-- The next answers of the render backend. -/
structure RenderBackend where
  rendererVersion : Text
  /-- a job, or the code of a rejection -/
  submit : Except Text RenderJob
  status : Option RenderJob
  download : Download
  thumbnail : Option Bytes

/--
What happened to the artifacts: how they came into a status from which they are rendered,
which submissions were accepted, and who claimed them until when.
-/
inductive ArtifactEvent where
  | registered (artifactId : UUID)
  | retried (artifactId : UUID)
  | missed (artifactId : UUID)
  | requeued (artifactId : UUID)
  | submitted (artifactId : UUID)
  | claimed (artifactId : UUID) (worker lease : Nat)
deriving DecidableEq, Repr

def ArtifactEvent.artifactId : ArtifactEvent -> UUID
  | .registered id => id
  | .retried id => id
  | .missed id => id
  | .requeued id => id
  | .submitted id => id
  | .claimed id _ _ => id

/-- `history` lists the events, newest first; no statement reads it. -/
structure ArtifactStore where
  now : Nat
  artifacts : Partition UUID ArtifactRow
  refs : List ArtifactRef
  objects : Partition Text StoredObject
  backend : RenderBackend
  history : List ArtifactEvent

/-- `lease_until IS NULL OR lease_until < now()` -/
def ArtifactRow.leaseFree (row : ArtifactRow) (now : Nat) : Bool :=
  row.leaseUntil.all (fun lease => lease < now)

/-- The values that `_cas` is called with. -/
inductive ArtifactChange where
  | queue (jobId : Text) (attempts : Nat)
  | moveTo (status : ArtifactStatus)
  | requeue
  | ready (objectKey : Text) (thumbnailKey : Option Text) (size : Nat) (checksum : Text)
  | fail (code : Text)
  | retry (retries : Nat)
  | missing
deriving DecidableEq, Repr

def ArtifactChange.apply (now : Nat) : ArtifactChange -> ArtifactRow -> ArtifactRow
  | .queue jobId attempts, row =>
      { row with
        status := .queued
        renderJobId := some jobId
        attemptCount := attempts
        failureCode := none
        updatedAt := now }
  | .moveTo status, row => { row with status := status, updatedAt := now }
  | .requeue, row => { row with status := .pending, renderJobId := none, updatedAt := now }
  | .ready objectKey thumbnailKey size checksum, row =>
      { row with
        status := .ready
        objectKey := some objectKey
        thumbnailKey := thumbnailKey
        mimeType := some (text "video/mp4")
        sizeBytes := some size
        checksumSha256 := some checksum
        failureCode := none
        leaseUntil := none
        updatedAt := now }
  | .fail code, row =>
      { row with
        status := .failed
        failureCode := some (code.take 48)
        leaseUntil := none
        updatedAt := now }
  | .retry retries, row =>
      { row with
        status := .pending
        failureCode := none
        attemptCount := 0
        retryCount := retries
        renderJobId := none
        leaseUntil := none
        updatedAt := now }
  | .missing, row =>
      { row with
        status := .pending
        objectKey := none
        checksumSha256 := none
        sizeBytes := none
        mimeType := none
        renderJobId := none
        attemptCount := 0
        failureCode := none
        leaseUntil := none
        updatedAt := now }

def ArtifactChange.events (artifactId : UUID) : ArtifactChange -> List ArtifactEvent
  | .requeue => [.requeued artifactId]
  | .retry _ => [.retried artifactId]
  | .missing => [.missed artifactId]
  | _ => []

namespace ArtifactStore

def row (s : ArtifactStore) (id : UUID) : Option ArtifactRow :=
  s.artifacts.get id

def putRow (s : ArtifactStore) (id : UUID) (row : ArtifactRow) : ArtifactStore :=
  { s with artifacts := s.artifacts.upsert id (fun _ => row) }

/-- What happened to one artifact, newest first. -/
def eventsOf (s : ArtifactStore) (id : UUID) : List ArtifactEvent :=
  s.history.filter (fun e => e.artifactId == id)

def record (s : ArtifactStore) (events : List ArtifactEvent) : ArtifactStore :=
  { s with history := events ++ s.history }

/-- An `UPDATE` of one artifact, with the row that `RETURNING` gives. -/
def updateRow (s : ArtifactStore) (id : UUID) (select : ArtifactRow -> Bool)
    (change : ArtifactRow -> ArtifactRow) (events : List ArtifactEvent) :
    Option ArtifactRow × ArtifactStore :=
  match s.row id with
  | some row =>
      if select row then (some (change row), (s.putRow id (change row)).record events)
      else (none, s)
  | none => (none, s)

def addRef (s : ArtifactStore) (ref : ArtifactRef) : ArtifactStore :=
  { s with
    refs :=
      if s.refs.any (fun r => r.artifactId == ref.artifactId &&
          r.conversationId == ref.conversationId &&
          r.sourceMessageId == ref.sourceMessageId && r.blockId == ref.blockId) then s.refs
      else ref :: s.refs }

/-- Some artifact has this owner, type and fingerprint. -/
def hasContent (s : ArtifactStore) (row : ArtifactRow) : Bool :=
  s.artifacts.rows.any (fun e => e.2.ownerUserId == row.ownerUserId &&
    e.2.artifactType == row.artifactType && e.2.fingerprint == row.fingerprint)

def putObject (s : ArtifactStore) (key : Text) (object : StoredObject) : ArtifactStore :=
  { s with objects := s.objects.upsert key (fun _ => object) }

def deleteObject (s : ArtifactStore) (key : Text) : ArtifactStore :=
  { s with objects := s.objects.erase key }

@[simp] theorem row_record (s : ArtifactStore) (events : List ArtifactEvent) (id : UUID) :
    (s.record events).row id = s.row id := rfl

@[simp] theorem row_putRow_self (s : ArtifactStore) (id : UUID) (row : ArtifactRow) :
    (s.putRow id row).row id = some row :=
  Partition.get_upsert_self _ _ _

theorem row_putRow_ne (s : ArtifactStore) {id id' : UUID} (row : ArtifactRow)
    (h : id' ≠ id) : (s.putRow id row).row id' = s.row id' :=
  Partition.get_upsert_ne _ _ h

end ArtifactStore

/-- The calls on the backend name the artifact on whose behalf they are made. -/
inductive ArtifactOp where
  -- PostgreSQL
  | register (artifactId : UUID) (new : ArtifactRow) (ref : ArtifactRef)
  | selectOwned (owner artifactId : UUID)
  | selectKnown (artifactId : UUID)
  | claim (artifactId : UUID) (worker lease : Nat)
  | cas (artifactId : UUID) (allowedFrom : List ArtifactStatus) (change : ArtifactChange)
  | release (artifactId : UUID)
  | backoff (artifactId : UUID) (delay : Nat)
  -- the render backend
  | rendererVersion
  | submit (artifactId : UUID) (row : ArtifactRow)
  | status (artifactId : UUID) (row : ArtifactRow)
  | download (artifactId : UUID) (row : ArtifactRow)
  | downloadThumbnail (artifactId : UUID) (row : ArtifactRow)
  -- the object store
  | statObject (key : Text)
  | getObject (key : Text)
  | putObject (key : Text) (bytes : Bytes) (contentType : Text)
      (metadata : List (Text × Text))
  | deleteObject (key : Text)
  | listObjects (start : Text)
  | time

@[reducible] def ArtifactOp.Res : ArtifactOp -> Type
  | .register _ _ _ => Option (ArtifactRow × Bool)
  | .selectOwned _ _ => Option ArtifactRow
  | .selectKnown _ => Bool
  | .claim _ _ _ => Option ArtifactRow
  | .cas _ _ _ => Option ArtifactRow
  | .rendererVersion => Text
  | .submit _ _ => Except Text RenderJob
  | .status _ _ => Option RenderJob
  | .download _ _ => Download
  | .downloadThumbnail _ _ => Option Bytes
  | .statObject _ => Option ObjectInfo
  | .getObject _ => Option Bytes
  | .listObjects _ => List ObjectInfo
  | .time => Nat
  | _ => Unit

abbrev artifactStorage : Signature where
  Op := ArtifactOp
  Res := ArtifactOp.Res

def ArtifactOp.exec : (o : ArtifactOp) -> ArtifactStore -> o.Res × ArtifactStore
  | .register id new ref, s =>
      match s.row id with
      | some row => (some (row, false), s.addRef ref)
      | none =>
          -- the row that is read back is missing when another id has the same content
          if s.hasContent new then (none, s)
          else
            let row := { new with updatedAt := s.now }
            (some (row, true), ((s.putRow id row).record [.registered id]).addRef ref)
  | .selectOwned owner id, s => ((s.row id).filter (fun row => row.ownerUserId == owner), s)
  | .selectKnown id, s => ((s.row id).isSome, s)
  | .claim id worker lease, s =>
      s.updateRow id
        (fun row => ArtifactStatus.active.contains row.status && row.leaseFree s.now)
        (fun row => { row with leaseUntil := some (s.now + lease) })
        [.claimed id worker (s.now + lease)]
  | .cas id allowedFrom change, s =>
      s.updateRow id (fun row => allowedFrom.contains row.status) (change.apply s.now)
        (change.events id)
  | .release id, s =>
      ((), (s.updateRow id (fun _ => true) (fun row => { row with leaseUntil := none }) []).2)
  | .backoff id delay, s =>
      ((), (s.updateRow id (fun _ => true)
        (fun row => { row with leaseUntil := some (s.now + delay) }) []).2)
  | .rendererVersion, s => (s.backend.rendererVersion, s)
  | .submit id _, s =>
      (s.backend.submit,
        match s.backend.submit with
        | .ok _ => s.record [.submitted id]
        | .error _ => s)
  | .status _ _, s => (s.backend.status, s)
  | .download _ _, s => (s.backend.download, s)
  | .downloadThumbnail _ _, s => (s.backend.thumbnail, s)
  | .statObject key, s => ((s.objects.get key).map (StoredObject.info key), s)
  | .getObject key, s => ((s.objects.get key).map StoredObject.bytes, s)
  | .putObject key bytes contentType metadata, s =>
      ((), s.putObject key
        { bytes := bytes
          contentType := contentType
          metadata := metadata
          lastModified := s.now })
  | .deleteObject key, s => ((), s.deleteObject key)
  | .listObjects start, s =>
      ((s.objects.rows.reverse.filter (fun e => start.isPrefixOf e.1)).map
        (fun e => e.2.info e.1), s)
  | .time, s => (s.now, s)

def artifactMachine : Machine artifactStorage ArtifactStore where
  exec := ArtifactOp.exec

end ConversationService
