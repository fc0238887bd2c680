import ConversationService.Model.Naming
import ConversationService.Model.RenderMarkdown

/-!
# Export archives (`app/exports/archive.py`)

Where the conversations of a bundle go in an archive, and the members that are added to it.
What is written into a member is a parameter, as is what the object store answers.
-/

namespace ConversationService

open Python

namespace ExportArchive

/-- The paths that are taken, the newest first, and what they are for. -/
structure Plan where
  dirs : List (UUID × Text)
  used : List Text
deriving DecidableEq, Repr

namespace Plan

def empty : Plan := { dirs := [], used := [] }

/-- `cid in dirs` -/
def has (plan : Plan) (id : UUID) : Bool :=
  plan.dirs.any (fun dir => dir.1 = id)

def add (plan : Plan) (id : UUID) (path : Text) : Plan :=
  { dirs := (id, path) :: plan.dirs, used := path :: plan.used }

end Plan

/-- The path of a name that is not used, with as many `x` behind the name as that takes. -/
def freshPath (used : List Text) (base : Text) : Nat -> Text -> Text
  | 0, name => base ++ text "/" ++ name
  | tries + 1, name =>
      if used.contains (base ++ text "/" ++ name) then
        freshPath used base tries (name ++ text "x")
      else base ++ text "/" ++ name

section Paths

variable (nfkd : Text -> Text) (conversations : List ExportConversation)

/-- `by_id.get(id)`; a later conversation replaces an earlier one with the same id. -/
def byId (id : UUID) : Option ExportConversation :=
  conversations.reverse.find? (fun ec => ec.conversation.conversationId = id)

/-- `place(cid, base)`, with at most so many calls inside each other. -/
def place : Nat -> UUID -> Text -> Plan -> Plan
  | 0, _, _, plan => plan
  | depth + 1, id, base, plan =>
      match byId conversations id with
      -- every caller has looked the id up
      | none => plan
      | some ec =>
          let path := freshPath plan.used base plan.used.length
            (Naming.conversationDir nfkd ec.conversation.title id)
          ec.children.foldl (fun plan child =>
            if (byId conversations child).isSome && !plan.has child then
              place depth child (path ++ text "/branches") plan
            else plan) (plan.add id path)

/-- The conversations without a parent in the bundle. -/
def roots : List UUID :=
  (conversations.filter (fun ec =>
    ec.parentId.all (fun parent => (byId conversations parent).isNone))).map
      (fun ec => ec.conversation.conversationId)

def placeAll (depth : Nat) (ids : List UUID) (plan : Plan) : Plan :=
  ids.foldl (fun plan id =>
    if plan.has id then plan
    else place nfkd conversations depth id (text "conversations") plan) plan

/-- The directories of the conversations: the roots first, then what no root leads to. -/
def planDirs (depth : Nat) : Plan :=
  placeAll nfkd conversations depth
    (conversations.map (fun ec => ec.conversation.conversationId))
    (placeAll nfkd conversations depth (roots conversations) .empty)

/-- `plan_paths(bundle)` -/
def planPaths : List (UUID × Text) :=
  (planDirs nfkd conversations conversations.length).dirs.map (fun dir =>
    (dir.1, dir.2 ++ text "/conversation.md"))

end Paths

/-!
# The members
-/

inductive ArchiveExc where
  | unsafeArchivePath
  | indexError
  | python (e : PyExc)
deriving DecidableEq, Repr

/-- A file that the object store has handed over. -/
structure Fetched where
  size : Nat
  sha256 : Text
deriving DecidableEq, Repr

/-- What is asked of an archive, and what the object store answers (nothing: it raises). -/
structure ArchiveRequest where
  includeMedia : Bool
  maxBytes : Nat
  maxVideoBytes : Nat
  video : UUID -> Option Fetched
  thumbnail : UUID -> Option Fetched

/-- An archive that is being written. -/
structure Archive where
  total : Nat
  members : List Text
  bundledVideo : List (UUID × Text)
  bundledThumb : List (UUID × Text)
  omitted : List (UUID × Text)
deriving DecidableEq, Repr

namespace Archive

def empty : Archive :=
  { total := 0, members := [], bundledVideo := [], bundledThumb := [], omitted := [] }

/-- `add_bytes` and `add_file`: the path is validated before anything is written. -/
def add (archive : Archive) (path : Text) (size : Nat) : Except ArchiveExc Archive :=
  if Naming.isSafeArchivePath path then
    .ok { archive with total := archive.total + size, members := archive.members ++ [path] }
  else .error .unsafeArchivePath

def leaveOut (archive : Archive) (id : UUID) (reason : Text) : Archive :=
  { archive with omitted := archive.omitted ++ [(id, reason)] }

end Archive

def videoPath (id : UUID) : Text := text "assets/videos/" ++ id.toText ++ text ".mp4"

def thumbnailPath (id : UUID) : Text := text "assets/thumbnails/" ++ id.toText ++ text ".png"

/-- The artifacts that are referenced, once each: `setdefault` keeps the first row of an id. -/
def referenced : List (Text × UUID × ArtifactRow) -> List (UUID × ArtifactRow)
  | [] => []
  | (_, artifact) :: rest =>
      artifact :: (referenced rest).filter (fun other => other.1 ≠ artifact.1)

/-- A thumbnail is optional: whatever is raised for it is passed over. -/
def addThumbnail (request : ArchiveRequest) (artifact : UUID × ArtifactRow)
    (archive : Archive) : Archive :=
  if (RenderMarkdown.truthy artifact.2.thumbnailKey).isSome then
    match request.thumbnail artifact.1 with
    | none => archive
    | some file =>
        match archive.add (thumbnailPath artifact.1) file.size with
        | .error _ => archive
        | .ok archive =>
            { archive with
              bundledThumb := archive.bundledThumb ++ [(artifact.1, thumbnailPath artifact.1)] }
  else archive

/-- The media of one artifact. -/
def addArtifact (request : ArchiveRequest) (artifact : UUID × ArtifactRow)
    (archive : Archive) : Except ArchiveExc Archive :=
  if artifact.2.status ≠ .ready ∨ RenderMarkdown.truthy artifact.2.objectKey = none then
    .ok (archive.leaveOut artifact.1 (text "not_ready:" ++ artifact.2.status.value))
  else if request.maxBytes < archive.total + artifact.2.sizeBytes.getD 0 then
    .ok (archive.leaveOut artifact.1 (text "archive_size_limit"))
  else
    match request.video artifact.1 with
    | none => .ok (archive.leaveOut artifact.1 (text "object_unavailable"))
    | some file =>
        if request.maxVideoBytes < file.size ∨ some file.sha256 ≠ artifact.2.checksumSha256 then
          .ok (archive.leaveOut artifact.1 (text "integrity_check_failed"))
        else
          (archive.add (videoPath artifact.1) file.size).map (fun archive =>
            addThumbnail request artifact
              { archive with
                bundledVideo := archive.bundledVideo ++ [(artifact.1, videoPath artifact.1)] })

def addMedia (request : ArchiveRequest) :
    List (UUID × ArtifactRow) -> Archive -> Except ArchiveExc Archive
  | [], archive => .ok archive
  | artifact :: rest, archive =>
      (addArtifact request artifact archive).bind (addMedia request rest)

/-- The files that are written, as the number of their bytes, once the media are in. -/
structure Files where
  conversation : Archive -> ExportConversation -> Except PyExc Nat
  manifest : Archive -> Except PyExc Nat
  readme : Archive -> Except PyExc Nat

/-- `add_bytes(path, data)` for data that may not come about. -/
def addBytes (path : Text) (size : Archive -> Except PyExc Nat) (archive : Archive) :
    Except ArchiveExc Archive :=
  match size archive with
  | .ok size => archive.add path size
  | .error e => .error (.python e)

def addConversations (files : Files) (paths : List (UUID × Text)) :
    List ExportConversation -> Archive -> Except ArchiveExc Archive
  | [], archive => .ok archive
  | ec :: rest, archive =>
      match paths.lookup ec.conversation.conversationId with
      -- every conversation of the bundle has a path
      | none => .error (.python .keyError)
      | some path =>
          (addBytes path (fun archive => files.conversation archive ec) archive).bind
            (addConversations files paths rest)

/-- `build_hierarchy_zip(...)` up to the archive that it has written. -/
def buildHierarchyZip (nfkd : Text -> Text) (bundle : CollectedBundle)
    (request : ArchiveRequest) (files : Files) : Except ArchiveExc Archive :=
  let paths := planPaths nfkd bundle.conversations
  -- the default of `next` is `bundle.conversations[0]`
  if bundle.conversations.isEmpty then .error .indexError
  else
    (if request.includeMedia then addMedia request (referenced bundle.artifacts) .empty
      else .ok .empty).bind (fun archive =>
        (addConversations files paths bundle.conversations archive).bind (fun archive =>
          (addBytes (text "manifest.json") files.manifest archive).bind
            (addBytes (text "README.md") files.readme)))

end ExportArchive
end ConversationService
