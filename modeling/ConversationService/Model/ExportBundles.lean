import ConversationService.Model.ArtifactService
import ConversationService.Model.ExportService
import ConversationService.Model.FencedBlocks

/-!
# Export bundles (`ExportCollector.collect`, `ArtifactService.lookup`)

The whole bundle of an export: the conversations with their messages, and the artifacts of
the animations in them. `loads` is `json.loads` and `nfc` is `unicodedata.normalize`.
-/

namespace ConversationService

open Python Programs

/-- The stores that an export is made from: those of the export service and the registry. -/
structure BundleStore where
  exports : ExportStore
  artifacts : ArtifactStore

inductive BundleOp where
  | exports (o : ExportOp)
  /-- the artifacts of an owner with a type and a fingerprint -/
  | selectArtifacts (owner : UUID) (artifactType : ArtifactType) (fingerprint : Text)

@[reducible] def BundleOp.Res : BundleOp -> Type
  | .exports o => o.Res
  | .selectArtifacts _ _ _ => List (UUID × ArtifactRow)

abbrev bundleStorage : Signature where
  Op := BundleOp
  Res := BundleOp.Res

def BundleOp.exec : (o : BundleOp) -> BundleStore -> o.Res × BundleStore
  | .exports o, s => ((o.exec s.exports).1, { s with exports := (o.exec s.exports).2 })
  | .selectArtifacts owner artifactType fingerprint, s =>
      (s.artifacts.artifacts.rows.filter (fun e =>
        e.2.ownerUserId == owner && e.2.artifactType == artifactType &&
          e.2.fingerprint == fingerprint), s)

abbrev BundleProg (alpha : Type) : Type := Prog bundleStorage ExportExc alpha

/-- A program of the export service. -/
def fromExports {alpha : Type} (p : ExportProg alpha) : BundleProg alpha :=
  p.mapOps (T := bundleStorage) BundleOp.exports (fun _ r => r)

/-- `ExportBundle`, but for the time at which it was made. -/
structure CollectedBundle where
  selectedId : UUID
  rootId : UUID
  conversations : List ExportConversation
  artifacts : List (Text × UUID × ArtifactRow)
deriving DecidableEq, Repr

namespace ArtifactService

/-- `scalar_one_or_none()` -/
def scalarOneOrNone {alpha : Type} : List alpha -> BundleProg (Option alpha)
  | [] => pure none
  | [row] => pure (some row)
  | _ => Prog.raise .other

def lookup (owner : UUID) (artifactType : ArtifactType)
    (canonicalText rendererVersion quality : Text) :
    BundleProg (Option (UUID × ArtifactRow)) :=
  match Fingerprint.computeFingerprint artifactType canonicalText rendererVersion quality with
  | some fingerprint => do
      let rows : List (UUID × ArtifactRow) <-
        Prog.perform (S := bundleStorage) .other
          (.selectArtifacts owner artifactType fingerprint)
      scalarOneOrNone rows
  | none => Prog.raise (.python .unicodeError)

end ArtifactService

namespace ExportCollector

variable (loads : Text -> Except PyExc Json) (nfc : Text -> Text)

/-- `block.manim_spec()`; a `ValueError` is no specification. -/
def manimSpec (block : FencedBlock) : Except PyExc (Option Json) :=
  match loads block.body with
  | .ok (.obj fields) => .ok (some (.obj fields))
  | .ok _ => .ok none
  | .error .valueError => .ok none
  | .error e => .error e

/-- The canonical specifications of the animations among the blocks. -/
def wantedIn : List FencedBlock -> Except PyExc (List Text)
  | [] => .ok []
  | block :: rest =>
      if block.kind = text "manim" then
        match manimSpec loads block with
        | .error e => .error e
        | .ok spec =>
            (wantedIn rest).map (fun wanted =>
              (spec.bind (fun spec =>
                Fingerprint.canonicalManimSpec nfc spec 20000)).toList ++ wanted)
      else wantedIn rest

def wantedBy (messages : List Message) : Except PyExc (List Text) :=
  wantedIn loads nfc (messages.flatMap (fun m => FencedBlock.findBlocks m.content))

/-- The loop over the conversations in scope, with the specifications that they refer to. -/
def collectWanted (svc : ExportService) (owner : UUID) (h : Hierarchy) (rootId : UUID)
    (inScope : List UUID) (snapshot : Snapshot) (progress : Nat -> Nat -> ExportProg Unit) :
    List UUID -> List ExportConversation -> List Text ->
      BundleProg (List ExportConversation × List Text)
  | [], convs, wanted => pure (convs, wanted)
  | id :: rest, convs, wanted => do
      let full <- fromExports (fromSources (ConversationReads.get svc.cache id))
      if full.any (fun conv => conv.userId ≠ some owner) then
        collectWanted svc owner h rootId inScope snapshot progress rest convs wanted
      else do
        let msgs <- fromExports (messages svc.cfg.maxMessagesPerConversation id
          ((marker snapshot id).getD []))
        fromExports (progress (convs.length + 1) inScope.length)
        match h.node? id, wantedBy loads nfc msgs with
        | some node, .ok more =>
            collectWanted svc owner h rootId inScope snapshot progress rest
              (convs ++ [exportConversation h rootId inScope id node full msgs])
              (wanted ++ more)
        | some _, .error e => Prog.raise (.python e)
        -- every id in scope is a node
        | none, _ =>
            collectWanted svc owner h rootId inScope snapshot progress rest convs wanted

/-- Lookups only: an export never starts a render. -/
def lookUpAll (owner : UUID) (rendererVersion quality : Text) :
    List Text -> BundleProg (List (Text × UUID × ArtifactRow))
  | [] => pure []
  | canonical :: rest => do
      let row <- ArtifactService.lookup owner .manim canonical rendererVersion quality
      let found <- lookUpAll owner rendererVersion quality rest
      match row with
      | some row => pure ((canonical, row) :: found)
      | none => pure found

/-- `sorted(wanted)` for a set -/
def sortedSet (wanted : List Text) : List Text :=
  wanted.dedup.insertionSort (fun a b => a ≤ b)

def collectBundle (svc : ExportService) (owner : UUID) (h : Hierarchy) (selectedId : UUID)
    (ids : List UUID) (snapshot : Snapshot) (rendererVersion quality : Text)
    (progress : Nat -> Nat -> ExportProg Unit) : BundleProg CollectedBundle :=
  if h.has selectedId then do
    let rootId := (h.rootOf selectedId).1
    let inScope := ids.filter h.has
    let collected <- collectWanted loads nfc svc owner h rootId inScope snapshot progress
      inScope [] []
    let found <- lookUpAll owner rendererVersion quality (sortedSet collected.2)
    pure
      { selectedId := selectedId
        rootId := rootId
        conversations := collected.1
        artifacts := found }
  else Prog.raise .sourceMissing

end ExportCollector
end ConversationService
