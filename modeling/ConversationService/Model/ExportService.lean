import ConversationService.Library.Pools
import ConversationService.Model.ExportJobs
import ConversationService.Model.System

/-!
# Export service (`app/exports/service.py`, `app/exports/collector.py`)

Creation of export jobs, their processing under leases, and retention. Renderers and the
matching of artifacts are outside; a rendering gives a file or fails.
-/

namespace ConversationService

open Python Programs

inductive ExportExc where
  | sourceMissing
  | exportTooLarge
  | exportLimitReached
  | pdfUnavailable
  | noResultFound
  | osError
  | python (e : PyExc)
  | other
deriving DecidableEq, Repr

abbrev ExportProg (alpha : Type) : Type := Prog exportStorage ExportExc alpha

/-- A statement or a call of the object store. -/
def exportCall (o : ExportOp) : ExportProg o.Res :=
  Prog.perform (S := exportStorage) .other o

/-- A program on the stores of the conversations and messages. -/
def fromSources {alpha : Type} (p : Py alpha) : ExportProg alpha :=
  (p.mapOps (T := exportStorage) ExportOp.source (fun _ r => r)).mapExc ExportExc.python

/-- The settings `EXPORT_...`, with times in microseconds. -/
structure ExportSettings where
  leaseSeconds : Nat
  retentionHours : Nat
  maxConversations : Nat
  maxMessagesPerConversation : Nat
  maxArchiveBytes : Nat
  maxAttempts : Nat
  maxLivePerUser : Nat
deriving DecidableEq, Repr

def ExportSettings.default : ExportSettings :=
  { leaseSeconds := 300 * second
    retentionHours := 24 * 3600 * second
    maxConversations := 500
    maxMessagesPerConversation := 5000
    maxArchiveBytes := 500 * 1024 * 1024
    maxAttempts := 3
    maxLivePerUser := 10 }

structure ExportService where
  cfg : ExportSettings
  /-- the cache of the conversation service -/
  cache : Option CacheService
deriving DecidableEq, Repr

/-- `MessageStatus.value` -/
def MessageStatus.value : MessageStatus -> Text
  | .pending => text "pending"
  | .sent => text "sent"
  | .failed => text "failed"

/-!
# Collector
-/

structure ExportConversation where
  conversation : Conversation
  depth : Nat
  messages : List Message
  parentId : Option UUID
  missingParentId : Option UUID
  branchMessageId : Option UUID
  children : List UUID
deriving DecidableEq, Repr

structure ExportBundle where
  selectedId : UUID
  rootId : UUID
  conversations : List ExportConversation
deriving DecidableEq, Repr

namespace ExportCollector

/-- `PAGE` -/
def page : Nat := 100

def latestMarker (messagesDesc : List Message) : Text :=
  match messagesDesc with
  | m :: _ => m.messageId.toText ++ text ":" ++ m.status.value
  | [] => []

def snapshot : List UUID -> ExportProg Snapshot
  | [] => pure []
  | id :: rest => do
      let latest <- fromSources (MessageRepository.history id 1 none)
      let others <- snapshot rest
      pure ((id.toText, latestMarker latest) :: others)

/--
The loop over the pages, newest first. Every page that does not end it brings a message,
so that it runs at most `maxMessages` times.
-/
def pages (maxMessages : Nat) (id : UUID) :
    Nat -> List Message -> Option UUID -> ExportProg (List Message)
  | 0, collected, _ => pure collected
  | rounds + 1, collected, cursor =>
      if collected.length < maxMessages then do
        let messages <- fromSources (MessageRepository.history id page cursor)
        match messages.getLast? with
        | none => pure collected
        | some last =>
            pages maxMessages id rounds (collected ++ messages) (some last.messageId)
      else pure collected

/-- `collected[: ids.index(limit_id) + 1]` if the id is among them. -/
def cutAt (limitId : Text) (collected : List Message) : List Message :=
  if limitId.isEmpty then collected
  else if collected.any (fun m => m.messageId.toText = limitId) then
    collected.take (collected.findIdx (fun m => m.messageId.toText = limitId) + 1)
  else collected

/-- The sent messages that are not blank, each id once. -/
def sentOnce : List UUID -> List Message -> List Message
  | _, [] => []
  | seen, m :: rest =>
      if m.status ≠ .sent ∨ (strip (m.content.getD [])).isEmpty ∨ seen.contains m.messageId then
        sentOnce seen rest
      else m :: sentOnce (m.messageId :: seen) rest

/-- `snapshot_marker.split(":")[0]` -/
def limitId (snapshotMarker : Text) : Text :=
  snapshotMarker.takeWhile (fun c => c ≠ 0x3A)

def messages (maxMessages : Nat) (id : UUID) (snapshotMarker : Text) :
    ExportProg (List Message) := do
  let collected <- pages maxMessages id maxMessages [] none
  pure (sentOnce [] (cutAt (limitId snapshotMarker) collected.reverse))

/-- `snapshot.get(key)` -/
def marker (snapshot : Snapshot) (id : UUID) : Option Text :=
  snapshot.lookup id.toText

def exportConversation (h : Hierarchy) (rootId : UUID) (inScope : List UUID) (id : UUID)
    (node : Conversation) (full : Option Conversation) (messages : List Message) :
    ExportConversation :=
  { conversation := full.getD node
    depth := h.depthOf id rootId
    messages := messages
    parentId := node.parentConversationId.filter h.has
    missingParentId := node.parentConversationId.filter (fun parent => !h.has parent)
    branchMessageId := full.bind Conversation.branchMessageId
    children := (h.childrenOf id).filter inScope.contains }

/-- The loop over the conversations in scope. -/
def collectAll (svc : ExportService) (owner : UUID) (h : Hierarchy) (rootId : UUID)
    (inScope : List UUID) (snapshot : Snapshot) (progress : Nat -> Nat -> ExportProg Unit) :
    List UUID -> List ExportConversation -> ExportProg (List ExportConversation)
  | [], convs => pure convs
  | id :: rest, convs => do
      let full <- fromSources (ConversationReads.get svc.cache id)
      if full.any (fun conv => conv.userId ≠ some owner) then
        collectAll svc owner h rootId inScope snapshot progress rest convs
      else do
        let msgs <- messages svc.cfg.maxMessagesPerConversation id
          ((marker snapshot id).getD [])
        progress (convs.length + 1) inScope.length
        match h.node? id with
        | some node =>
            collectAll svc owner h rootId inScope snapshot progress rest
              (convs ++ [exportConversation h rootId inScope id node full msgs])
        -- every id in scope is a node
        | none => collectAll svc owner h rootId inScope snapshot progress rest convs

def collect (svc : ExportService) (owner : UUID) (h : Hierarchy) (selectedId : UUID)
    (ids : List UUID) (snapshot : Snapshot) (progress : Nat -> Nat -> ExportProg Unit) :
    ExportProg ExportBundle :=
  if h.has selectedId then do
    let rootId := (h.rootOf selectedId).1
    let inScope := ids.filter h.has
    let convs <- collectAll svc owner h rootId inScope snapshot progress inScope []
    pure { selectedId := selectedId, rootId := rootId, conversations := convs }
  else Prog.raise .sourceMissing

end ExportCollector

/-!
# Creation
-/

namespace ExportService

variable (svc : ExportService)

def loadHierarchy (owner : UUID) : ExportProg Hierarchy :=
  fromSources (HierarchyService.load (svc.cfg.maxConversations * 4) owner)

/-- The conversations that a scope selects in a hierarchy. -/
def selectedIds (h : Hierarchy) (conversationId : UUID) (scope : ExportScope) : List UUID :=
  match scope with
  | .conversation => [conversationId]
  | .hierarchy => h.subtree (h.rootOf conversationId).1

def scopeIds (owner conversationId : UUID) (scope : ExportScope) :
    ExportProg (List UUID) := do
  let h <- svc.loadHierarchy owner
  if h.has conversationId then
    let ids := selectedIds h conversationId scope
    if svc.cfg.maxConversations < ids.length then Prog.raise .exportTooLarge
    else pure ids
  else Prog.raise .sourceMissing

/-- What a request asks for. -/
structure Request where
  owner : UUID
  conversationId : UUID
  scope : ExportScope
  format : ExportFormat
  includeMedia : Bool
deriving DecidableEq, Repr

/-- Media only travel in the ZIP. -/
def Request.media (request : Request) : Bool :=
  request.includeMedia && request.scope == .hierarchy && request.format == .markdown

def Request.key (request : Request) (snapshot : Snapshot) : RequestKey :=
  { owner := request.owner
    conversationId := request.conversationId
    scope := request.scope
    format := request.format
    includeMedia := request.media
    snapshot := snapshot.insertionSort (fun a b => toLex a ≤ toLex b) }

def Request.newJob (request : Request) (jobId : UUID) (snapshot : Snapshot)
    (total : Nat) : NewJob :=
  { jobId := jobId
    ownerUserId := request.owner
    conversationId := request.conversationId
    scope := request.scope
    format := request.format
    includeMedia := request.media
    requestKey := request.key snapshot
    snapshot := snapshot
    progressTotal := total }

/-- The end of the transaction behind an `INSERT` that may have done nothing. -/
def reread (owner : UUID) (key : RequestKey) (lapsed : List UUID)
    (inserted : Option ExportJob) (jobId : UUID) :
    ExportProg (UUID × ExportJob × Bool) :=
  match inserted with
  | some row => pure (jobId, row, true)
  | none => do
      let row : Option (UUID × ExportJob) <- exportCall (.selectReusable owner key lapsed)
      match row with
      | some row => do
          exportCall (.commitLapsed lapsed)
          pure (row.1, row.2, false)
      | none => Prog.raise .noResultFound

/-- The transaction of a creation; an exception rolls it back. -/
def findOrInsert (request : Request) (job : NewJob) :
    ExportProg (UUID × ExportJob × Bool) := do
  let lapsed : List UUID <- exportCall (.selectLapsed request.owner job.requestKey)
  let live : Nat <- exportCall (.countUnfinished request.owner job.requestKey)
  let existing : Option (UUID × ExportJob) <-
    exportCall (.selectReusable request.owner job.requestKey lapsed)
  match existing with
  | some row => do
      exportCall (.commitLapsed lapsed)
      pure (row.1, row.2, false)
  | none =>
      if svc.cfg.maxLivePerUser ≤ live then Prog.raise .exportLimitReached
      else do
        let inserted : Option ExportJob <- exportCall (.insertJob job lapsed)
        reread request.owner job.requestKey lapsed inserted job.jobId

/-- `jobId` is what `uuid.uuid4()` gives. -/
def create (request : Request) (jobId : UUID) : ExportProg (UUID × ExportJob × Bool) := do
  let ids <- svc.scopeIds request.owner request.conversationId request.scope
  let snapshot <- ExportCollector.snapshot ids
  svc.findOrInsert request (request.newJob jobId snapshot ids.length)

/-!
# Processing
-/

def setJob (jobId : UUID) (allowed : List JobStatus) (change : JobChange) :
    ExportProg Bool :=
  exportCall (.setJob jobId allowed change)

def fail (jobId : UUID) (code : Text) : ExportProg Unit := do
  let _ <- setJob jobId [.pending, .processing] (.fail code)
  pure ()

def progress (jobId : UUID) (done total : Nat) : ExportProg Unit := do
  let _ <- setJob jobId [.processing] (.progress done total)
  pure ()

/-- `f"exports/{job.job_id}/{filename}"` -/
def objectKey (jobId : UUID) (filename : Text) : Text :=
  text "exports/" ++ jobId.toText ++ text "/" ++ filename

def render : ExportProg RenderedFile := do
  let rendered : Except RenderFailure RenderedFile <- exportCall .render
  match rendered with
  | .ok file => pure file
  | .error .pdfUnavailable => Prog.raise .pdfUnavailable
  | .error .other => Prog.raise .other

/-- The file is in the store with the size that it has here. -/
def confirm (key : Text) (size : Nat) : ExportProg Unit := do
  let stored : Option ObjectInfo <- exportCall (.statObject key)
  if stored.any (fun info => info.size = size) then pure ()
  else Prog.raise .osError

def readyChange (key : Text) (file : RenderedFile) (conversations : Nat) : JobChange :=
  .ready key file.filename file.contentType file.bytes.length (sha256Hex file.bytes)
    conversations svc.cfg.retentionHours

/-- The upload of a rendered file and the end of its job. -/
def publish (jobId : UUID) (file : RenderedFile) (conversations : Nat) :
    ExportProg Unit :=
  if svc.cfg.maxArchiveBytes < file.bytes.length then Prog.raise .exportTooLarge
  else do
    let key := objectKey jobId file.filename
    exportCall (.putFile key file [(text "sha256", sha256Hex file.bytes)])
    confirm key file.bytes.length
    let ok <- setJob jobId [.processing] (svc.readyChange key file conversations)
    if ok then pure () else exportCall (.deleteObject key)

/-- The conversations to export: for a hierarchy exactly those of the snapshot. -/
def producedIds (h : Hierarchy) (job : ExportJob) : List UUID :=
  match job.scope with
  | .conversation => [job.conversationId]
  | .hierarchy =>
      (h.subtree (h.rootOf job.conversationId).1).filter
        (fun id => (ExportCollector.marker job.snapshot id).isSome)

def produce (jobId : UUID) (job : ExportJob) : ExportProg Unit := do
  let h <- svc.loadHierarchy job.ownerUserId
  if h.has job.conversationId then do
    let _renderer : Text × Text <- exportCall .currentRenderer
    let bundle <-
      ExportCollector.collect svc job.ownerUserId h job.conversationId (producedIds h job)
        job.snapshot (progress jobId)
    let file <- render
    svc.publish jobId file bundle.conversations.length
  else Prog.raise .sourceMissing

/-- What `process` does with an exception of `_produce`. -/
def handle (jobId : UUID) (job : ExportJob) : ExportExc -> ExportProg Unit
  | .sourceMissing => fail jobId (text "source_missing")
  | .exportTooLarge => fail jobId (text "too_large")
  | .pdfUnavailable => fail jobId (text "pdf_unavailable")
  | _ =>
      if svc.cfg.maxAttempts ≤ job.attemptCount then fail jobId (text "export_error")
      else do
        let _ <- setJob jobId [.processing] (.release (10 * second))
        pure ()

def process (jobId : UUID) : ExportProg Unit := do
  let job : Option ExportJob <-
    exportCall (.claimJob jobId svc.cfg.maxAttempts svc.cfg.leaseSeconds)
  match job with
  | some job => (svc.produce jobId job).tryCatch (svc.handle jobId job)
  | none => pure ()

/-!
# Worker and retention
-/

def failExhausted : ExportProg Unit :=
  exportCall (.failExhausted svc.cfg.maxAttempts)

def processAll : List UUID -> ExportProg Unit
  | [] => pure ()
  | jobId :: rest => do
      svc.process jobId
      processAll rest

def runOnce : ExportProg Unit := do
  let ids : List UUID <- exportCall .selectWaiting
  svc.processAll ids
  svc.failExhausted

/-- `if key: await self.store.delete(key)` -/
def deleteKey (key : Option Text) : ExportProg Unit :=
  match key with
  | some key => if key.isEmpty then pure () else exportCall (.deleteObject key)
  | none => pure ()

/-- The objects of jobs past their retention go first, then the status of the row. -/
def expireDue : List (UUID × Option Text) -> ExportProg Unit
  | [] => pure ()
  | (jobId, key) :: rest => do
      deleteKey key
      let _ <- setJob jobId [.ready] .expire
      expireDue rest

/-- The parts of `key.split("/")`. -/
def splitSlash (key : Text) : List Text :=
  key.splitOn 0x2F

/-- The job that an object in `exports/` is named after. -/
def jobOf (info : ObjectInfo) : Option UUID :=
  match splitSlash info.key with
  | _ :: part :: _ :: _ => UUID.parse part
  | _ => none

/-- An object that belongs to no ready or processing job goes. -/
def deleteOrphan (info : ObjectInfo) (jobId : UUID) : ExportProg Unit := do
  let status : Option JobStatus <- exportCall (.selectStatus jobId)
  if status = some .ready ∨ status = some .processing then pure ()
  else exportCall (.deleteObject info.key)

/-- Only objects more than an hour old are looked at. -/
def sweepObject (info : ObjectInfo) : ExportProg Unit := do
  let now : Nat <- exportCall .time
  match jobOf info with
  | some jobId =>
      if now < info.lastModified + 3600 * second then pure () else deleteOrphan info jobId
  | none => pure ()

def sweep : List ObjectInfo -> ExportProg Unit
  | [] => pure ()
  | info :: rest => do
      sweepObject info
      sweep rest

def cleanup : ExportProg Unit := do
  let due : List (UUID × Option Text) <- exportCall .selectDue
  expireDue due
  let _pruned : List UUID <- exportCall (.pruneJobs (svc.cfg.retentionHours * 7))
  let objects : List ObjectInfo <- exportCall (.listObjects (text "exports/"))
  sweep objects

end ExportService

/-!
# Pools of export calls
-/

inductive ExportCall where
  | create (request : ExportService.Request) (jobId : UUID)
  | process (jobId : UUID)
  | runOnce
  | failExhausted
  | cleanup
deriving DecidableEq, Repr

/-- What a creation returns; the other calls return nothing. -/
abbrev ExportAnswer : Type := Option (UUID × ExportJob × Bool)

def ExportCall.program (svc : ExportService) : ExportCall -> ExportProg ExportAnswer
  | .create request jobId => svc.create request jobId >>= fun answer => .ret (some answer)
  | .process jobId => svc.process jobId >>= fun _ => .ret none
  | .runOnce => svc.runOnce >>= fun _ => .ret none
  | .failExhausted => svc.failExhausted >>= fun _ => .ret none
  | .cleanup => svc.cleanup >>= fun _ => .ret none

abbrev ExportTask : Type := Task ExportCall exportStorage ExportExc ExportAnswer

abbrev ExportPool : Type := Pool ExportCall exportStorage ExportExc ExportAnswer ExportStore

/--
Time passes, and whatever the exports are made from changes. Jobs and objects do not
change by themselves.
-/
structure ExportMoves (s t : ExportStore) : Prop where
  now : s.now ≤ t.now
  jobs : t.jobs = s.jobs
  objects : t.objects = s.objects

/-- Any number of calls; every operation may raise, and every process may stop. -/
def exportRules (svc : ExportService) (permits : ExportPool -> ExportTask -> Prop) :
    Rules ExportCall exportStorage ExportExc ExportAnswer ExportStore where
  machine := exportMachine
  program := ExportCall.program svc
  permits := permits
  mayFail _ := True
  mayStart _ _ := True
  mayStop _ := True
  moves := ExportMoves

/-- No jobs and no objects under `exports/` yet. -/
def ExportStore.blank : ExportStore :=
  { now := 0
    sources := Store.blank
    jobs := .empty
    objects := .empty
    renderer := ([], [])
    rendering := .error .other }

end ConversationService
