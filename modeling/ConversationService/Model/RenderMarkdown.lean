import ConversationService.Model.ExportBundles
import ConversationService.Model.FenceExpression

/-!
# Messages as Markdown (`app/exports/render_markdown.py`)

The text of a message in an export: the animations become references to what was rendered of
them. `loads` is `json.loads` and `nfc` is `unicodedata.normalize`.
-/

namespace ConversationService

open Python

def ArtifactStatus.value : ArtifactStatus -> Text
  | .pending => text "pending"
  | .queued => text "queued"
  | .rendering => text "rendering"
  | .uploading => text "uploading"
  | .ready => text "ready"
  | .failed => text "failed"

/-- Where the media of an artifact were bundled, if they were. -/
structure AssetLinks where
  video : UUID × ArtifactRow -> Option Text
  thumbnail : UUID × ArtifactRow -> Option Text

/-- `artifact_for_spec(spec)`; a specification without a canonical form has no artifact. -/
def CollectedBundle.artifactForSpec (nfc : Text -> Text) (bundle : CollectedBundle)
    (spec : Json) : Option (UUID × ArtifactRow) :=
  (Fingerprint.canonicalManimSpec nfc spec 20000).bind (fun canonical =>
    bundle.artifacts.lookup canonical)

namespace RenderMarkdown

/-- ``[\\`*_{}\[\]<>#|]`` -/
def isSpecial (c : CodePoint) : Bool :=
  (text "\\`*_\x7b\x7d[]<>#|").contains c

/-- `md_inline(text, limit)` -/
def mdInline (s : Text) (limit : Nat) : Text :=
  ((Fingerprint.collapse s).flatMap (fun c => if isSpecial c then [0x5C, c] else [c])).take limit

/-- A text that is not there is false, as an empty one is. -/
def truthy (s : Option Text) : Option Text :=
  s.filter (fun s => !s.isEmpty)

def manimReference (title : Text) (artifact : Option (UUID × ArtifactRow)) (links : AssetLinks) :
    Text :=
  let label := mdInline (if title.isEmpty then text "Animation" else title) 160
  let heading := text "> **Animation: " ++ label ++ text "**"
  let missing (state : Text) :=
    heading ++ text "\n> This animation " ++ state ++ text "; no video is available for it."
  match artifact with
  | none => missing (text "was not rendered")
  | some artifact =>
      if artifact.2.status ≠ .ready then missing (text "is " ++ artifact.2.status.value)
      else
        let thumb := (truthy (links.thumbnail artifact)).map (fun thumb =>
          text "> ![Preview of " ++ label ++ text "](" ++ thumb ++ text ")")
        let id := text " (artifact `" ++ artifact.1.toText ++ text "`)"
        let video :=
          match truthy (links.video artifact) with
          | some video =>
              text "> Video: [" ++ label ++ text ".mp4](" ++ video ++ text ")" ++ id
          | none =>
              text "> The video is not included in this export" ++ id ++
                text "; open it in Granthan to play or download it."
        join (text "\n") ([heading] ++ thumb.toList ++ [video])

section Body

variable (loads : Text -> Except PyExc Json) (nfc : Text -> Text)

/-- The reference that replaces a block. -/
def referenceFor (bundle : CollectedBundle) (links : AssetLinks) (block : LocatedBlock) :
    Except PyExc Text :=
  (ExportCollector.manimSpec loads block.toFencedBlock).map (fun spec =>
    let fields :=
      match spec with
      | some (.obj fields) => fields
      | _ => []
    let artifact := bundle.artifactForSpec nfc (.obj fields)
    let title :=
      match Json.get fields (text "title") with
      | .str title => title
      | _ => (artifact.map (fun artifact => artifact.2.title)).getD (text "Animation")
    manimReference title artifact links)

/-- The loop over the blocks, with what has been put out and the cursor. -/
def bodyLoop (bundle : CollectedBundle) (links : AssetLinks) (content : Text) :
    List LocatedBlock -> Text -> Nat -> Except PyExc Text
  | [], out, cursor => .ok (out ++ content.drop cursor)
  | block :: rest, out, cursor =>
      if block.kind ≠ text "manim" then bodyLoop bundle links content rest out cursor
      else
        match referenceFor loads nfc bundle links block with
        | .error e => .error e
        | .ok reference =>
            bodyLoop bundle links content rest
              (out ++ (content.take block.start).drop cursor ++ reference) block.stop

/-- `message_body(...)` -/
def messageBody (bundle : CollectedBundle) (links : AssetLinks) (content : Option Text) :
    Except PyExc Text :=
  (bodyLoop loads nfc bundle links (content.getD []) (FenceExpression.findBlocks content) [] 0).map
    (stripBy (fun c => c = 0x0A))

end Body

end RenderMarkdown
end ConversationService
