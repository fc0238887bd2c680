import ConversationService.Model.ExportArchive
import ConversationService.Python.Calendar

/-!
# The files of an export (`render_conversation_markdown`, `render_readme`)

What is written into the Markdown file of a conversation and into the README of an archive.
`loads` is `json.loads` and `nfc` is `unicodedata.normalize`.
-/

namespace ConversationService

open Python

/-- The date of a time in UTC; 1970-01-01 is day 719163. -/
def Datetime.date (value : Datetime) : Calendar.Date :=
  Calendar.ord2ymd (value.micros / 86400000000 + 719163).toNat

/-- The microseconds since midnight. -/
def Datetime.sinceMidnight (value : Datetime) : Nat :=
  (value.micros % 86400000000).toNat

namespace RenderMarkdown

/-- `%02d` for a number below 100 -/
def twoDigits (n : Nat) : Text :=
  [digitChar (n / 10), digitChar (n % 10)]

/-- `fmt_time(value)`; `%Y` is not padded. -/
def fmtTime (value : Option Datetime) : Text :=
  match value with
  | none => []
  | some value =>
      let date := value.date
      let minutes := value.sinceMidnight / 60000000
      intText date.year ++ text "-" ++ twoDigits date.month ++ text "-" ++ twoDigits date.day ++
        text " " ++ twoDigits (minutes / 60) ++ text ":" ++ twoDigits (minutes % 60) ++
        text " UTC"

def roleLabel (sender : Option Sender) : Text :=
  match sender with
  | some .user => text "User"
  | some .assistant => text "Assistant"
  | some .system => text "System"
  | none => text "Message"

/-- `md_inline(title, 200) or 'Untitled conversation'` -/
def headingLabel (title : Option Text) : Text :=
  let label := mdInline (title.getD []) 200
  if label.isEmpty then text "Untitled conversation" else label

/-- The lines about the parent of a conversation. -/
def branchLines (ec : ExportConversation) (parentTitle : Option Text) : List Text :=
  match ec.parentId with
  | some parentId =>
      let parent :=
        match truthy parentTitle with
        | some title => text " (" ++ mdInline title 160 ++ text ")"
        | none => []
      [text "- **Branched from:** `" ++ parentId.toText ++ text "`" ++ parent] ++
        (ec.branchMessageId.map (fun messageId =>
          text "- **Branch point:** after message `" ++ messageId.toText ++ text "`")).toList
  | none =>
      (ec.missingParentId.map (fun parentId =>
        text "- **Branched from:** `" ++ parentId.toText ++
          text "` (not available: deleted or inaccessible)")).toList

def headLines (ec : ExportConversation) (parentTitle : Option Text) : List Text :=
  [text "# " ++ headingLabel ec.conversation.title, [],
    text "- **Conversation ID:** `" ++ ec.conversation.conversationId.toText ++ text "`",
    text "- **Created:** " ++ fmtTime ec.conversation.createdAt,
    text "- **Messages:** " ++ intText ec.messages.length] ++
    branchLines ec parentTitle ++ [[], text "---", []] ++
    (if ec.messages.isEmpty then [text "*This conversation has no messages.*", []] else [])

/-- `## {role_label(m.sender)}`, with the time behind it if there is one. -/
def messageHeading (m : Message) : Text :=
  let stamp := fmtTime m.createdAt
  text "## " ++ roleLabel m.sender ++ (if stamp.isEmpty then [] else text " · " ++ stamp)

section Conversation

variable (loads : Text -> Except PyExc Json) (nfc : Text -> Text)

def messageLines (bundle : CollectedBundle) (links : AssetLinks) :
    List Message -> Except PyExc (List Text)
  | [] => .ok []
  | m :: rest =>
      (messageBody loads nfc bundle links m.content).bind (fun body =>
        (messageLines bundle links rest).map (fun lines =>
          [messageHeading m, [], body, []] ++ lines))

/-- `render_conversation_markdown(ec, bundle, links, parent_title)` -/
def renderConversationMarkdown (ec : ExportConversation) (bundle : CollectedBundle)
    (links : AssetLinks) (parentTitle : Option Text) : Except PyExc Text :=
  (messageLines loads nfc bundle links ec.messages).map (fun lines =>
    Fingerprint.rstrip (join (text "\n") (headLines ec parentTitle ++ lines)) ++ text "\n")

end Conversation

end RenderMarkdown

namespace ExportArchive

/-- What the README reads of an entry of the manifest. -/
structure ManifestEntry where
  title : Option Text
  path : Text
  depth : Nat
  messageCount : Nat
  orphanedFrom : Option UUID
deriving DecidableEq, Repr

/-- The entry of a conversation that has its place at a path. -/
def manifestEntry (ec : ExportConversation) (path : Text) : ManifestEntry :=
  { title := ec.conversation.title
    path := path
    depth := ec.depth
    messageCount := ec.messages.length
    orphanedFrom := ec.missingParentId }

/-- `c['title'] or 'Untitled'` -/
def readmeTitle (entry : ManifestEntry) : Text :=
  (RenderMarkdown.truthy entry.title).getD (text "Untitled")

def contentsLine (entry : ManifestEntry) : Text :=
  (List.replicate entry.depth (text "  ")).flatten ++ text "- [" ++ readmeTitle entry ++
    text "](" ++ entry.path ++ text ") — " ++ intText entry.messageCount ++ text " messages"

def omittedLine (left : UUID × Text) : Text :=
  text "- artifact `" ++ left.1.toText ++ text "`: " ++ left.2

def orphanLine (entry : ManifestEntry) (parentId : UUID) : Text :=
  text "- " ++ readmeTitle entry ++ text " (parent `" ++ parentId.toText ++
    text "` was deleted or is inaccessible)"

def orphanLines (convs : List ManifestEntry) : List Text :=
  convs.filterMap (fun entry => entry.orphanedFrom.map (orphanLine entry))

/-- The lines in front of the list of the conversations. -/
def layoutLines (generatedAt : Datetime) (conversations : Nat) : List Text :=
  [text "# Granthan conversation export", [],
    text "Generated " ++ RenderMarkdown.fmtTime (some generatedAt) ++
      text ". This archive contains the stored messages exactly as they were " ++
      text "saved; nothing was summarised or regenerated.", [],
    text "## Layout", [],
    text "- `conversations/<title>-<id>/conversation.md` — one Markdown file per conversation.",
    text "- `.../branches/<title>-<id>/conversation.md` — " ++
      text "branches live inside their parent's directory.",
    text "- `assets/videos/` and `assets/thumbnails/` — animation media, " ++
      text "each file stored once and shared by every message that references it.",
    text "- `manifest.json` — machine-readable index " ++
      text "(ids, parents, branch points, message counts, media).", [],
    text "## Contents (" ++ intText conversations ++ text " conversations)", []]

def noteLines (includeMedia : Bool) : List Text :=
  [[], text "## Notes", [], text "- Mermaid diagrams are kept as ```mermaid source blocks.",
    text "- Animations are videos; a text document cannot play them. " ++
      text "They are linked from the message that " ++
      (if includeMedia then text "contained them."
        else text "contained them only by reference (media was not included in this export).")]

def omittedLines (omitted : List (UUID × Text)) : List Text :=
  if omitted.isEmpty then []
  else [[], text "## Media that could not be included", []] ++ omitted.map omittedLine

/-- `render_readme(bundle, convs, options, omitted)` -/
def renderReadme (generatedAt : Datetime) (convs : List ManifestEntry) (includeMedia : Bool)
    (omitted : List (UUID × Text)) : Text :=
  let orphans := orphanLines convs
  join (text "\n")
    (layoutLines generatedAt convs.length ++ convs.map contentsLine ++ noteLines includeMedia ++
      omittedLines omitted ++
      (if orphans.isEmpty then []
        else [[], text "## Branches whose parent is unavailable", []] ++ orphans)) ++
    text "\n"

end ExportArchive
end ConversationService
