import ConversationService.Library.Pools
import ConversationService.Model.ArtifactStorage

/-!
# Artifact service (`app/artifacts/service.py`)

Registration, the steps with which a worker advances an artifact under a lease, explicit
retries, and the janitor.
-/

namespace ConversationService

open Python Programs

inductive ArtifactExc where
  | artifactSpecError
  | artifactNotFound
  | retryLimitReached
  | noResultFound
  | unicodeError
  | osError
  | unavailable
deriving DecidableEq, Repr

abbrev ArtifactProg (alpha : Type) : Type := Prog artifactStorage ArtifactExc alpha

/-- A statement, or a call of the backend or of the object store. -/
def artifactCall (o : ArtifactOp) : ArtifactProg o.Res :=
  Prog.perform (S := artifactStorage) .unavailable o

/-- The settings `ARTIFACT_...`, with times in microseconds. -/
structure ArtifactSettings where
  leaseSeconds : Nat
  maxAutoAttempts : Nat
  maxManualRetries : Nat
  maxActiveSeconds : Nat
  maxVideoBytes : Nat
  maxManimSpecChars : Nat
  maxMermaidChars : Nat
  renderQuality : Text
deriving DecidableEq, Repr

def ArtifactSettings.default : ArtifactSettings :=
  { leaseSeconds := 60 * second
    maxAutoAttempts := 3
    maxManualRetries := 5
    maxActiveSeconds := 900 * second
    maxVideoBytes := 50 * 1024 * 1024
    maxManimSpecChars := 4000
    maxMermaidChars := 8000
    renderQuality := text "l" }

structure ArtifactService where
  cfg : ArtifactSettings
  /-- `unicodedata.normalize("NFC", _)` -/
  nfc : Text -> Text

/-- `_BACKOFF_SECONDS` -/
def backoffSeconds : Nat := 10 * second

/-- `MAX_THUMBNAIL_BYTES` -/
def maxThumbnailBytes : Nat := 2 * 1024 * 1024

/-- `_PNG_MAGIC` -/
def pngMagic : Bytes := [0x89, 0x50, 0x4E, 0x47, 0x0D, 0x0A, 0x1A, 0x0A]

namespace ArtifactService

/-!
# Registration
-/

structure Registration where
  owner : UUID
  conversationId : UUID
  sourceMessageId : UUID
  artifactType : Text
  content : Json
  blockId : Text
  title : Option Text

/-- What is registered: the canonical text, and what it will be rendered with. -/
structure Source where
  type : ArtifactType
  canonical : Text
  title : Text
  rendererVersion : Text
  quality : Text

/-- The first line of a diagram that is no comment. -/
def diagramLine (canonical : Text) : Text :=
  (((canonical.splitOn 0x0A).map strip).find? (fun line =>
    !line.isEmpty && !(text "%%").isPrefixOf line)).getD []

/-- `title_for("mermaid", canonical, None)` -/
def diagramTitle (canonical : Text) : Text :=
  let kind := (diagramLine canonical).takeWhile (fun c => !isSpace c)
  (text "Mermaid " ++ (if kind.isEmpty then text "diagram" else kind)).take 200

/-- `title_for("manim", canonical, None)` -/
def animationTitle (canonical : Json) : Text :=
  match canonical with
  | .obj fields =>
      match Json.get fields (text "title") with
      | .str title => (if title.isEmpty then text "Animation" else title).take 200
      | _ => text "Animation"
  | _ => text "Animation"

/-- A supplied title that is not blank takes precedence. -/
def titleFor (supplied : Option Text) (own : Text) : Text :=
  match supplied with
  | some title =>
      if (strip title).isEmpty then own else (Fingerprint.collapse title).take 200
  | none => own

variable (svc : ArtifactService)

def mermaidSource (request : Registration) : ArtifactProg Source :=
  match Fingerprint.canonicalMermaidSource svc.nfc request.content svc.cfg.maxMermaidChars with
  | some canonical =>
      pure
        { type := .mermaid
          canonical := canonical
          title := titleFor request.title (diagramTitle canonical)
          rendererVersion := []
          quality := [] }
  | none => Prog.raise .artifactSpecError

def manimSource (request : Registration) : ArtifactProg Source :=
  match Fingerprint.canonicalSpec svc.nfc request.content,
    Fingerprint.canonicalManimSpec svc.nfc request.content svc.cfg.maxManimSpecChars with
  | some spec, some canonical => do
      let version : Text <- artifactCall .rendererVersion
      pure
        { type := .manim
          canonical := canonical
          title := titleFor request.title (animationTitle spec)
          rendererVersion := version
          quality := svc.cfg.renderQuality }
  | _, _ => Prog.raise .artifactSpecError

def sourceOf (request : Registration) : ArtifactProg Source :=
  if request.artifactType = text "mermaid" then svc.mermaidSource request
  else if request.artifactType = text "manim" then svc.manimSource request
  else Prog.raise .artifactSpecError

def newRow (owner : UUID) (source : Source) (fingerprint : Text) : ArtifactRow :=
  { ownerUserId := owner
    artifactType := source.type
    title := source.title
    fingerprint := fingerprint
    specText := source.canonical
    status := if source.type = .mermaid then .ready else .pending
    renderJobId := none
    objectKey := none
    thumbnailKey := none
    mimeType := none
    sizeBytes := none
    checksumSha256 := none
    failureCode := none
    attemptCount := 0
    retryCount := 0
    leaseUntil := none
    updatedAt := 0 }

/-- The row of the artifact, and whether it is a new one. -/
def register (request : Registration) : ArtifactProg (ArtifactRow × Bool) := do
  let source <- svc.sourceOf request
  match Fingerprint.computeFingerprint source.type source.canonical source.rendererVersion
    source.quality with
  | some fingerprint => do
      let id := Fingerprint.artifactIdFor request.owner source.type fingerprint
      let registered : Option (ArtifactRow × Bool) <-
        artifactCall (.register id (newRow request.owner source fingerprint)
          { artifactId := id
            conversationId := request.conversationId
            sourceMessageId := request.sourceMessageId
            blockId := request.blockId.take 64
            ownerUserId := request.owner })
      match registered with
      | some registered => pure registered
      | none => Prog.raise .noResultFound
  | none => Prog.raise .unicodeError

/-!
# Explicit changes
-/

def cas (id : UUID) (allowedFrom : List ArtifactStatus) (change : ArtifactChange) :
    ArtifactProg (Option ArtifactRow) :=
  artifactCall (.cas id allowedFrom change)

def fail (id : UUID) (code : Text) : ArtifactProg Unit := do
  let _ <- cas id ArtifactStatus.active (.fail code)
  pure ()

def get (owner id : UUID) : ArtifactProg (Option ArtifactRow) :=
  artifactCall (.selectOwned owner id)

def retryFailed (owner id : UUID) (row : ArtifactRow) :
    ArtifactProg (Option ArtifactRow × Bool) := do
  let updated <- cas id [.failed] (.retry (row.retryCount + 1))
  match updated with
  | some updated => pure (some updated, true)
  | none => do
      let current <- get owner id
      pure (current, false)

def retry (owner id : UUID) : ArtifactProg (Option ArtifactRow × Bool) := do
  let row <- get owner id
  match row with
  | none => Prog.raise .artifactNotFound
  | some row =>
      if row.status ≠ .failed ∨ row.artifactType ≠ .manim then pure (some row, false)
      else if svc.cfg.maxManualRetries ≤ row.retryCount then Prog.raise .retryLimitReached
      else retryFailed owner id row

def markObjectMissing (id : UUID) : ArtifactProg Unit := do
  let _ <- cas id [.ready] .missing
  pure ()

/-!
# Steps
-/

/-- A verified object makes the artifact ready; the preview is there or not. -/
def adopt (id : UUID) (info : MediaInfo) : ArtifactProg (Option ArtifactRow) := do
  let thumb : Option ObjectInfo <-
    artifactCall (.statObject (Fingerprint.thumbnailObjectKey id))
  cas id ArtifactStatus.active
    (.ready (Fingerprint.videoObjectKey id)
      (thumb.map (fun _ => Fingerprint.thumbnailObjectKey id)) info.size info.sha256)

def adoptExistingObject (id : UUID) : ArtifactProg (Option ArtifactRow) := do
  let stored : Option ObjectInfo <-
    artifactCall (.statObject (Fingerprint.videoObjectKey id))
  match stored with
  | none => pure none
  | some _ => do
      let file : Option Bytes <- artifactCall (.getObject (Fingerprint.videoObjectKey id))
      match file with
      | none => Prog.raise .osError
      | some file =>
          match Media.validateMp4 file svc.cfg.maxVideoBytes with
          | some info => adopt id info
          | none => do
              artifactCall (.deleteObject (Fingerprint.videoObjectKey id))
              pure none

def submit (id : UUID) (row : ArtifactRow) : ArtifactProg (Option ArtifactRow) := do
  let answer : Except Text RenderJob <- artifactCall (.submit id row)
  match answer with
  | .ok job => cas id [.pending] (.queue job.jobId (row.attemptCount + 1))
  | .error code => do
      fail id code
      pure none

def dispatch (id : UUID) (row : ArtifactRow) : ArtifactProg (Option ArtifactRow) := do
  let adopted <- svc.adoptExistingObject id
  match adopted with
  | some adopted => pure (some adopted)
  | none =>
      if svc.cfg.maxAutoAttempts ≤ row.attemptCount then do
        fail id (text "attempts_exhausted")
        pure none
      else submit id row

/-- A lost render begins again, unless the attempts are used up. -/
def beginAgain (id : UUID) (row : ArtifactRow) (allowedFrom : List ArtifactStatus) :
    ArtifactProg (Option ArtifactRow) :=
  if svc.cfg.maxAutoAttempts ≤ row.attemptCount then do
    fail id (text "render_job_lost")
    pure none
  else cas id allowedFrom .requeue

/-- The states of a render job behind which nothing more comes. -/
def endedStates : List Text := [text "failed", text "cancelled", text "expired"]

/-- `job.failure or job.state` -/
def failureOf (job : RenderJob) : Text :=
  match job.failure with
  | some failure => if failure.isEmpty then job.state else failure
  | none => job.state

def follow (id : UUID) (row : ArtifactRow) (wanted : ArtifactStatus) :
    ArtifactProg (Option ArtifactRow) :=
  if row.status ≠ wanted then cas id [.queued, .rendering] (.moveTo wanted)
  else pure (some row)

def pollJob (id : UUID) (row : ArtifactRow) (age : Nat) (job : RenderJob) :
    ArtifactProg (Option ArtifactRow) :=
  if job.state = text "ready" then cas id [.queued, .rendering] (.moveTo .uploading)
  else if endedStates.contains job.state then do
    fail id (failureOf job)
    pure none
  else if svc.cfg.maxActiveSeconds < age then do
    fail id (text "timed_out")
    pure none
  else follow id row (if job.state = text "pending" then .queued else .rendering)

def poll (id : UUID) (row : ArtifactRow) : ArtifactProg (Option ArtifactRow) := do
  let now : Nat <- artifactCall .time
  let job : Option RenderJob <- artifactCall (.status id row)
  match job with
  | none => svc.beginAgain id row [.queued, .rendering]
  | some job => svc.pollJob id row (now - row.updatedAt) job

/-- Any problem with the preview simply means that there is none. -/
def storeThumbnail (id : UUID) (row : ArtifactRow) : ArtifactProg (Option Text) :=
  Prog.tryCatch
    (do
      let data : Option Bytes <- artifactCall (.downloadThumbnail id row)
      match data with
      | none => pure none
      | some data =>
          if !pngMagic.isPrefixOf data || maxThumbnailBytes < data.length then pure none
          else do
            artifactCall (.putObject (Fingerprint.thumbnailObjectKey id) data
              (text "image/png") [])
            pure (some (Fingerprint.thumbnailObjectKey id)))
    (fun _ => pure none)

/-- The statuses from which an upload makes an artifact ready. -/
def uploadedFrom : List ArtifactStatus := [.uploading, .pending, .queued, .rendering]

def storeVideo (id : UUID) (row : ArtifactRow) (file : Bytes) (info : MediaInfo) :
    ArtifactProg (Option ArtifactRow) := do
  let key := Fingerprint.videoObjectKey id
  artifactCall (.putObject key file (text "video/mp4") [(text "sha256", info.sha256)])
  let stored : Option ObjectInfo <- artifactCall (.statObject key)
  if stored.any (fun object => object.size = info.size) then do
    let thumb <- storeThumbnail id row
    cas id uploadedFrom (.ready key thumb info.size info.sha256)
  else Prog.raise .osError

def upload (id : UUID) (row : ArtifactRow) : ArtifactProg (Option ArtifactRow) := do
  let adopted <- svc.adoptExistingObject id
  match adopted with
  | some adopted => pure (some adopted)
  | none => do
      let download : Download <- artifactCall (.download id row)
      match download with
      | .gone => svc.beginAgain id row [.uploading]
      | .rejected code => do
          fail id code
          pure none
      | .file file =>
          match Media.validateMp4 file svc.cfg.maxVideoBytes with
          | some info => storeVideo id row file info
          | none => do
              fail id (text "invalid_output")
              pure none

def step (id : UUID) (row : ArtifactRow) : ArtifactProg (Option ArtifactRow) :=
  match row.status with
  | .pending => svc.dispatch id row
  | .queued => svc.poll id row
  | .rendering => svc.poll id row
  | .uploading => svc.upload id row
  | _ => pure none

/-- The loop over at most so many steps. -/
def steps (id : UUID) : Nat -> ArtifactRow -> ArtifactProg Unit
  | 0, _ => pure ()
  | rounds + 1, row => do
      let next <- svc.step id row
      match next with
      | none => pure ()
      | some next =>
          if ArtifactStatus.terminal.contains next.status ∨ next.status = row.status then
            pure ()
          else steps id rounds next

/-- The `except` clauses, which keep the lease; `finally` releases it when they raise. -/
def pause (id : UUID) : ArtifactProg Bool :=
  Prog.tryCatch
    (do
      artifactCall (.backoff id backoffSeconds)
      pure true)
    (fun e => do
      artifactCall (.release id)
      Prog.raise e)

/-- What a worker does with an artifact that it has claimed. -/
def advanceClaimed (id : UUID) (row : ArtifactRow) : ArtifactProg Unit := do
  let keepLease <-
    Prog.tryCatch
      (do
        svc.steps id 5 row
        pure false)
      (fun _ => pause id)
  if keepLease then pure () else artifactCall (.release id)

def advance (id : UUID) (worker : Nat) : ArtifactProg Unit := do
  let row : Option ArtifactRow <- artifactCall (.claim id worker svc.cfg.leaseSeconds)
  match row with
  | none => pure ()
  | some row => svc.advanceClaimed id row

/-!
# Janitor
-/

/-- The artifact that an object in `artifacts/` is named after. -/
def artifactOf (info : ObjectInfo) : Option UUID :=
  match info.key.splitOn 0x2F with
  | [_, part, _] => UUID.parse part
  | _ => none

def deleteOrphan (info : ObjectInfo) (id : UUID) : ArtifactProg Unit := do
  let known : Bool <- artifactCall (.selectKnown id)
  if known then pure () else artifactCall (.deleteObject info.key)

def deleteOrphans (cutoff : Int) : List ObjectInfo -> ArtifactProg Unit
  | [] => pure ()
  | info :: rest => do
      (match artifactOf info with
        | some id => if cutoff < info.lastModified then pure () else deleteOrphan info id
        | none => pure ())
      deleteOrphans cutoff rest

/-- With the grace period of a day. -/
def deleteOrphanObjects : ArtifactProg Unit := do
  let now : Nat <- artifactCall .time
  let objects : List ObjectInfo <- artifactCall (.listObjects (text "artifacts/"))
  deleteOrphans ((now : Int) - 86400 * (second : Int)) objects

end ArtifactService

/-!
# Pools of artifact calls
-/

/-- Every run of `advance` is a worker of its own. -/
inductive ArtifactCall where
  | register (request : ArtifactService.Registration)
  | advance (artifactId : UUID) (worker : Nat)
  | retry (owner artifactId : UUID)
  | markObjectMissing (artifactId : UUID)
  | deleteOrphanObjects

inductive ArtifactAnswer where
  | registered (row : ArtifactRow) (created : Bool)
  | retried (row : Option ArtifactRow) (restarted : Bool)
  | done
deriving DecidableEq, Repr

def ArtifactCall.program (svc : ArtifactService) : ArtifactCall -> ArtifactProg ArtifactAnswer
  | .register request =>
      svc.register request >>= fun answer => .ret (.registered answer.1 answer.2)
  | .advance id worker => svc.advance id worker >>= fun _ => .ret .done
  | .retry owner id => svc.retry owner id >>= fun answer => .ret (.retried answer.1 answer.2)
  | .markObjectMissing id => ArtifactService.markObjectMissing id >>= fun _ => .ret .done
  | .deleteOrphanObjects => ArtifactService.deleteOrphanObjects >>= fun _ => .ret .done

abbrev ArtifactTask : Type := Task ArtifactCall artifactStorage ArtifactExc ArtifactAnswer

abbrev ArtifactPool : Type :=
  Pool ArtifactCall artifactStorage ArtifactExc ArtifactAnswer ArtifactStore

/-- Time passes and the backend answers as it likes; whether objects change is a parameter. -/
structure ArtifactMoves (objectsMove : Prop) (s t : ArtifactStore) : Prop where
  now : s.now ≤ t.now
  artifacts : t.artifacts = s.artifacts
  history : t.history = s.history
  objects : objectsMove ∨ t.objects = s.objects

/-- Any operation may raise, any call may be made, and any process may stop at any time. -/
def artifactRules (svc : ArtifactService) (permits : ArtifactPool -> ArtifactTask -> Prop)
    (objectsMove : Prop) :
    Rules ArtifactCall artifactStorage ArtifactExc ArtifactAnswer ArtifactStore where
  machine := artifactMachine
  program := ArtifactCall.program svc
  permits := permits
  mayFail _ := True
  mayStart _ _ := True
  mayStop _ := True
  moves := ArtifactMoves objectsMove

/-- Empty tables. -/
def ArtifactStore.blank : ArtifactStore :=
  { now := 0
    artifacts := .empty
    refs := []
    objects := .empty
    backend :=
      { rendererVersion := []
        submit := .error []
        status := none
        download := .gone
        thumbnail := none }
    history := [] }

end ConversationService
