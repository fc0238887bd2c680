import ConversationService.Library.Escapes
import ConversationService.Library.Trimming
import ConversationService.Model.ExportFiles

/-!
# Files with their titles marked

The files of an export once more, with a mark at each character that says whether it comes from
a title. Without the marks they are the files.
-/

namespace ConversationService

open Python Escapes Trimming

namespace RenderMarkdown

/-!
# Escaped titles
-/

/-- ASCII punctuation, which a backslash takes the meaning from. -/
def isPunctuation (c : CodePoint) : Bool :=
  (0x21 ≤ c.val && c.val ≤ 0x2F) || (0x3A ≤ c.val && c.val ≤ 0x40) ||
    (0x5B ≤ c.val && c.val ≤ 0x60) || (0x7B ≤ c.val && c.val ≤ 0x7E)

def isLineEnd (c : CodePoint) : Bool :=
  c = 0x0A || c = 0x0D

theorem mem_of_isSpecial {c : CodePoint} (h : isSpecial c = true) :
    c ∈ text "\\`*_\x7b\x7d[]<>#|" :=
  List.contains_iff_mem.mp h

theorem isLineEnd_cases {c : CodePoint} (h : isLineEnd c = true) : c = 0x0A ∨ c = 0x0D := by
  unfold isLineEnd at h
  rw [Bool.or_eq_true, decide_eq_true_eq, decide_eq_true_eq] at h
  exact h

def markdown : Markup CodePoint where
  esc := 0x5C
  escapable := isPunctuation
  special := isSpecial
  lineEnd := isLineEnd
  special_esc := by decide
  escapable_of_special := by
    intro c hc
    have hall : (text "\\`*_\x7b\x7d[]<>#|").all isPunctuation = true := by decide
    exact List.all_eq_true.mp hall c (mem_of_isSpecial hc)
  not_escapable_lineEnd := by
    intro c hc
    rcases isLineEnd_cases hc with rfl | rfl
    · decide
    · decide

/-- A character of a title, with the backslash that is put in front of it. -/
def escaped (c : CodePoint) : Marked CodePoint :=
  if isSpecial c then [(0x5C, .escape), (c, .title)] else [(c, .title)]

/-- `md_inline(s, limit)` -/
def markedInline (s : Text) (limit : Nat) : Marked CodePoint :=
  ((Fingerprint.collapse s).flatMap escaped).take limit

theorem text_markedInline (s : Text) (limit : Nat) :
    Escapes.text (markedInline s limit) = mdInline s limit := by
  unfold Escapes.text markedInline mdInline
  rw [List.map_take, List.map_flatMap]
  congr 1
  apply List.flatMap_congr
  intro c _
  unfold escaped
  split
  · rfl
  · rfl

/--
There is one place left for a character of a title that takes two: the cut falls between it
and its backslash.
-/
def CutsEscape (title : Text) (limit : Nat) : Prop :=
  exists front c back, Fingerprint.collapse title = front ++ c :: back ∧ isSpecial c = true ∧
    front.length + front.countP isSpecial + 1 = limit

theorem length_escaped (s : Text) :
    (s.flatMap escaped).length = s.length + s.countP isSpecial := by
  induction s with
  | nil => rfl
  | cons c s ih =>
      rw [List.flatMap_cons, List.length_append, ih, List.length_cons, List.countP_cons]
      unfold escaped
      split
      · simp only [List.length_cons, List.length_nil]
        omega
      · simp only [List.length_cons, List.length_nil]
        omega

theorem neutral_take {s : Text} (hline : forall c, c ∈ s -> isLineEnd c = false) {limit : Nat}
    (hcut : forall front c back, s = front ++ c :: back -> isSpecial c = true ->
      front.length + front.countP isSpecial + 1 ≠ limit) :
    Neutral markdown false ((s.flatMap escaped).take limit) := by
  induction s generalizing limit with
  | nil =>
      rw [List.flatMap_nil, List.take_nil]
      exact .nil
  | cons c s ih =>
      have hrest := fun d hd => hline d (List.mem_cons_of_mem c hd)
      rw [List.flatMap_cons]
      cases hspecial : isSpecial c with
      | true =>
          have hwritten : escaped c = [(0x5C, .escape), (c, .title)] := if_pos hspecial
          rw [hwritten]
          match limit with
          | 0 => exact .nil
          | 1 => exact absurd rfl (hcut [] c s rfl hspecial)
          | limit + 2 =>
              apply Neutral.escaped hspecial
              apply ih hrest
              intro front d back heq hd hlimit
              apply hcut (c :: front) d back (congrArg (List.cons c) heq) hd
              rw [List.length_cons, List.countP_cons_of_pos hspecial]
              omega
      | false =>
          have hwritten : escaped c = [(c, .title)] := by
            unfold escaped
            rw [hspecial]
            rfl
          rw [hwritten]
          match limit with
          | 0 => exact .nil
          | limit + 1 =>
              apply Neutral.plain hspecial (hline c List.mem_cons_self)
              apply ih hrest
              intro front d back heq hd hlimit
              apply hcut (c :: front) d back (congrArg (List.cons c) heq) hd
              rw [List.length_cons, List.countP_cons_of_neg (by rw [hspecial]; decide)]
              omega

theorem collapseFrom_blank (space : Bool) (s : Text) :
    forall c, c ∈ Fingerprint.collapseFrom space s -> isSpace c = true -> c = 0x20 := by
  induction s generalizing space with
  | nil => exact fun c hc => absurd hc List.not_mem_nil
  | cons d s ih =>
      intro c hc hspace
      rw [Fingerprint.collapseFrom] at hc
      split at hc
      · rcases List.mem_append.mp hc with hc | hc
        · split at hc
          · cases hc
          · exact List.mem_singleton.mp hc
        · exact ih true c hc hspace
      · rename_i hword
        rcases List.mem_cons.mp hc with rfl | hc
        · exact absurd hspace hword
        · exact ih false c hc hspace

theorem collapse_oneLine (s : Text) :
    forall c, c ∈ Fingerprint.collapse s -> isLineEnd c = false := by
  intro c hc
  cases hend : isLineEnd c with
  | false => rfl
  | true =>
      have hspace : isSpace c = true := by
        rcases isLineEnd_cases hend with rfl | rfl
        · decide
        · decide
      have hmem : c ∈ Fingerprint.collapseFrom false s := by
        unfold Fingerprint.collapse strip stripBy at hc
        exact (List.dropWhile_sublist isSpace).subset
          (List.mem_reverse.mp ((List.dropWhile_sublist isSpace).subset (List.mem_reverse.mp hc)))
      rw [collapseFrom_blank false s c hmem hspace] at hend
      cases hend

theorem neutral_markedInline {title : Text} {limit : Nat} (h : ¬CutsEscape title limit) :
    Neutral markdown false (markedInline title limit) := by
  apply neutral_take (collapse_oneLine title)
  intro front c back heq hspecial hlimit
  exact h ⟨front, c, back, heq, hspecial, hlimit⟩

theorem markedInline_cut {title : Text} {limit : Nat} (h : CutsEscape title limit) :
    exists front, markedInline title limit = front ++ [(0x5C, .escape)] := by
  rcases h with ⟨front, c, back, heq, hspecial, rfl⟩
  refine ⟨front.flatMap escaped, ?_⟩
  have hwritten : escaped c = [(0x5C, .escape), (c, .title)] := if_pos hspecial
  unfold markedInline
  rw [heq, List.flatMap_append, List.flatMap_cons, hwritten, ← length_escaped,
    List.take_length_add_append]
  rfl

/-!
# Lines
-/

/-- `sep.join(parts)` -/
def joinMarked (sep : Text) : List (Marked CodePoint) -> Marked CodePoint
  | [] => []
  | [part] => part
  | part :: rest => part ++ template sep ++ joinMarked sep rest

theorem joinMarked_cons_cons (sep : Text) (part next : Marked CodePoint)
    (rest : List (Marked CodePoint)) :
    joinMarked sep (part :: next :: rest) = part ++ template sep ++ joinMarked sep (next :: rest) :=
  rfl

theorem text_joinMarked (sep : Text) (parts : List (Marked CodePoint)) :
    Escapes.text (joinMarked sep parts) = join sep (parts.map Escapes.text) := by
  induction parts with
  | nil => rfl
  | cons part rest ih =>
      cases rest with
      | nil => rfl
      | cons next rest =>
          rw [joinMarked_cons_cons, text_append, text_append, text_template, ih]
          rfl

/-- `m.strip(chars)` -/
def trimMarked (remove : CodePoint -> Bool) (m : Marked CodePoint) : Marked CodePoint :=
  (m.dropWhile (fun c => remove c.1)).rdropWhile (fun c => remove c.1)

theorem text_dropWhile (remove : CodePoint -> Bool) (m : Marked CodePoint) :
    Escapes.text (m.dropWhile (fun c => remove c.1)) = (Escapes.text m).dropWhile remove :=
  List.dropWhile_map.symm

theorem text_rdropWhile (remove : CodePoint -> Bool) (m : Marked CodePoint) :
    Escapes.text (m.rdropWhile (fun c => remove c.1)) = (Escapes.text m).rdropWhile remove := by
  unfold List.rdropWhile
  have hreverse : forall m : Marked CodePoint,
      Escapes.text m.reverse = (Escapes.text m).reverse := fun m => List.map_reverse
  rw [hreverse, text_dropWhile, hreverse]

theorem text_trimMarked (remove : CodePoint -> Bool) (m : Marked CodePoint) :
    Escapes.text (trimMarked remove m) = stripBy remove (Escapes.text m) := by
  unfold trimMarked
  rw [text_rdropWhile, text_dropWhile]
  rfl

/-!
# References
-/

/-- `md_inline(title or "Animation")` -/
def markedLabel (title : Text) : Marked CodePoint :=
  if title.isEmpty then template (text "Animation") else markedInline title 160

theorem text_markedLabel (title : Text) : Escapes.text (markedLabel title) =
    mdInline (if title.isEmpty then text "Animation" else title) 160 := by
  unfold markedLabel
  split
  · rw [text_template]
    decide
  · exact text_markedInline title 160

/-- `manim_reference(title, artifact, links)` -/
def markedReference (title : Text) (artifact : Option (UUID × ArtifactRow))
    (links : AssetLinks) : Marked CodePoint :=
  let label := markedLabel title
  let heading := template (text "> **Animation: ") ++ label ++ template (text "**")
  let missing (state : Text) :=
    heading ++ template (text "\n> This animation " ++ state ++
      text "; no video is available for it.")
  match artifact with
  | none => missing (text "was not rendered")
  | some artifact =>
      if artifact.2.status ≠ .ready then missing (text "is " ++ artifact.2.status.value)
      else
        let thumb := (truthy (links.thumbnail artifact)).map (fun thumb =>
          template (text "> ![Preview of ") ++ label ++ template (text "](" ++ thumb ++ text ")"))
        let id := text " (artifact `" ++ artifact.1.toText ++ text "`)"
        let video :=
          match truthy (links.video artifact) with
          | some video =>
              template (text "> Video: [") ++ label ++
                template (text ".mp4](" ++ video ++ text ")" ++ id)
          | none =>
              template (text "> The video is not included in this export" ++ id ++
                text "; open it in Granthan to play or download it.")
        joinMarked (text "\n") ([heading] ++ thumb.toList ++ [video])

theorem text_markedReference (title : Text) (artifact : Option (UUID × ArtifactRow))
    (links : AssetLinks) :
    Escapes.text (markedReference title artifact links) = manimReference title artifact links := by
  unfold markedReference manimReference
  cases artifact with
  | none =>
      simp only [text_append, text_template, text_markedLabel, List.append_assoc]
  | some artifact =>
      dsimp only
      split
      · simp only [text_append, text_template, text_markedLabel, List.append_assoc]
      · rw [text_joinMarked]
        congr 1
        cases truthy (links.thumbnail artifact) with
        | none =>
            cases truthy (links.video artifact) with
            | none =>
                simp only [Option.map_none, Option.toList_none, List.append_nil, List.map_append,
                  List.map_cons, List.map_nil, text_append, text_template, text_markedLabel]
            | some video =>
                simp only [Option.map_none, Option.toList_none, List.append_nil, List.map_append,
                  List.map_cons, List.map_nil, text_append, text_template, text_markedLabel,
                  List.append_assoc]
        | some thumb =>
            cases truthy (links.video artifact) with
            | none =>
                simp only [Option.map_some, Option.toList_some, List.map_append, List.map_cons,
                  List.map_nil, text_append, text_template, text_markedLabel, List.append_assoc]
            | some video =>
                simp only [Option.map_some, Option.toList_some, List.map_append, List.map_cons,
                  List.map_nil, text_append, text_template, text_markedLabel, List.append_assoc]

/-!
# Messages
-/

section Conversation

variable (loads : Text -> Except PyExc Json) (nfc : Text -> Text)

/-- The title and the artifact that stand in the reference of a block. -/
def animationOf (bundle : CollectedBundle) (block : LocatedBlock) :
    Except PyExc (Text × Option (UUID × ArtifactRow)) :=
  (ExportCollector.manimSpec loads block.toFencedBlock).map (fun spec =>
    let fields :=
      match spec with
      | some (.obj fields) => fields
      | _ => []
    let artifact := bundle.artifactForSpec nfc (.obj fields)
    let title :=
      match Json.get fields (text "title") with
      | .str title => title
      | _ => (artifact.map (fun artifact => artifact.2.title)).getD (text "Animation")
    (title, artifact))

theorem referenceFor_eq (bundle : CollectedBundle) (links : AssetLinks) (block : LocatedBlock) :
    referenceFor loads nfc bundle links block =
      (animationOf loads nfc bundle block).map (fun shown =>
        manimReference shown.1 shown.2 links) := by
  unfold referenceFor animationOf
  cases ExportCollector.manimSpec loads block.toFencedBlock with
  | error e => rfl
  | ok spec => rfl

/-- What the loop over the blocks puts out from the cursor on. -/
def markedLoop (bundle : CollectedBundle) (links : AssetLinks) (content : Text) :
    List LocatedBlock -> Nat -> Except PyExc (Marked CodePoint)
  | [], cursor => .ok (template (content.drop cursor))
  | block :: rest, cursor =>
      if block.kind ≠ text "manim" then markedLoop bundle links content rest cursor
      else
        (animationOf loads nfc bundle block).bind (fun shown =>
          (markedLoop bundle links content rest block.stop).map (fun more =>
            template ((content.take block.start).drop cursor) ++
              (markedReference shown.1 shown.2 links ++ more)))

theorem bodyLoop_eq (bundle : CollectedBundle) (links : AssetLinks) (content : Text)
    (blocks : List LocatedBlock) (out : Text) (cursor : Nat) :
    bodyLoop loads nfc bundle links content blocks out cursor =
      (markedLoop loads nfc bundle links content blocks cursor).map (fun m =>
        out ++ Escapes.text m) := by
  induction blocks generalizing out cursor with
  | nil =>
      rw [bodyLoop, markedLoop]
      exact congrArg (fun s => Except.ok (out ++ s)) (text_template _).symm
  | cons block rest ih =>
      rw [bodyLoop, markedLoop]
      split
      · exact ih out cursor
      · rw [referenceFor_eq]
        cases animationOf loads nfc bundle block with
        | error e => rfl
        | ok shown =>
            show bodyLoop loads nfc bundle links content rest _ block.stop = _
            rw [ih]
            show _ = Except.map _ (Except.map _ _)
            cases markedLoop loads nfc bundle links content rest block.stop with
            | error e => rfl
            | ok more =>
                simp only [Except.map, text_append, text_template, text_markedReference,
                  List.append_assoc]

/-- `message_body(...)` -/
def markedBody (bundle : CollectedBundle) (links : AssetLinks) (content : Option Text) :
    Except PyExc (Marked CodePoint) :=
  (markedLoop loads nfc bundle links (content.getD []) (FenceExpression.findBlocks content) 0).map
    (trimMarked (fun c => c = 0x0A))

theorem text_markedBody (bundle : CollectedBundle) (links : AssetLinks)
    (content : Option Text) :
    (markedBody loads nfc bundle links content).map Escapes.text =
      messageBody loads nfc bundle links content := by
  unfold markedBody messageBody
  rw [bodyLoop_eq]
  cases markedLoop loads nfc bundle links (content.getD []) (FenceExpression.findBlocks content)
      0 with
  | error e => rfl
  | ok m => exact congrArg Except.ok (text_trimMarked _ m)

/-!
# Conversations
-/

/-- `md_inline(title, 200) or 'Untitled conversation'` -/
def markedHeading (title : Option Text) : Marked CodePoint :=
  let label := markedInline (title.getD []) 200
  if label.isEmpty then template (text "Untitled conversation") else label

theorem text_markedHeading (title : Option Text) :
    Escapes.text (markedHeading title) = headingLabel title := by
  unfold markedHeading headingLabel
  dsimp only
  rw [← text_markedInline]
  have hempty : (Escapes.text (markedInline (title.getD []) 200)).isEmpty =
      (markedInline (title.getD []) 200).isEmpty := List.isEmpty_map
  rw [hempty]
  split
  · exact text_template _
  · rfl

def markedBranchLines (ec : ExportConversation) (parentTitle : Option Text) :
    List (Marked CodePoint) :=
  match ec.parentId with
  | some parentId =>
      let parent :=
        match truthy parentTitle with
        | some title => template (text " (") ++ markedInline title 160 ++ template (text ")")
        | none => []
      [template (text "- **Branched from:** `" ++ parentId.toText ++ text "`") ++ parent] ++
        (ec.branchMessageId.map (fun messageId => template
          (text "- **Branch point:** after message `" ++ messageId.toText ++ text "`"))).toList
  | none =>
      (ec.missingParentId.map (fun parentId => template
        (text "- **Branched from:** `" ++ parentId.toText ++
          text "` (not available: deleted or inaccessible)"))).toList

theorem text_markedBranchLines (ec : ExportConversation) (parentTitle : Option Text) :
    (markedBranchLines ec parentTitle).map Escapes.text = branchLines ec parentTitle := by
  unfold markedBranchLines branchLines
  cases ec.parentId with
  | none =>
      cases ec.missingParentId with
      | none => rfl
      | some parentId => exact congrArg (fun s => [s]) (text_template _)
  | some parentId =>
      cases ec.branchMessageId with
      | none =>
          cases truthy parentTitle with
          | none =>
              simp only [Option.map_none, Option.toList_none, List.append_nil, List.map_cons,
                List.map_nil, text_template]
          | some title =>
              simp only [Option.map_none, Option.toList_none, List.append_nil, List.map_cons,
                List.map_nil, text_append, text_template, text_markedInline]
      | some messageId =>
          cases truthy parentTitle with
          | none =>
              simp only [Option.map_some, Option.toList_some, List.append_nil, List.map_append,
                List.map_cons, List.map_nil, text_template]
          | some title =>
              simp only [Option.map_some, Option.toList_some, List.map_append, List.map_cons,
                List.map_nil, text_append, text_template, text_markedInline]

def markedHead (ec : ExportConversation) (parentTitle : Option Text) : List (Marked CodePoint) :=
  [template (text "# ") ++ markedHeading ec.conversation.title, [],
    template
      (text "- **Conversation ID:** `" ++ ec.conversation.conversationId.toText ++ text "`"),
    template (text "- **Created:** " ++ fmtTime ec.conversation.createdAt),
    template (text "- **Messages:** " ++ intText ec.messages.length)] ++
    markedBranchLines ec parentTitle ++ [[], template (text "---"), []] ++
    (if ec.messages.isEmpty then [template (text "*This conversation has no messages.*"), []]
      else [])

theorem text_markedHead (ec : ExportConversation) (parentTitle : Option Text) :
    (markedHead ec parentTitle).map Escapes.text = headLines ec parentTitle := by
  have hnil : Escapes.text ([] : Marked CodePoint) = [] := rfl
  unfold markedHead headLines
  rw [List.map_append, List.map_append, List.map_append, text_markedBranchLines]
  simp only [List.map_cons, List.map_nil, text_append, text_template, text_markedHeading, hnil]
  split
  · simp only [List.map_cons, List.map_nil, text_template, hnil]
  · rfl

def markedMessages (bundle : CollectedBundle) (links : AssetLinks) :
    List Message -> Except PyExc (List (Marked CodePoint))
  | [] => .ok []
  | m :: rest =>
      (markedBody loads nfc bundle links m.content).bind (fun body =>
        (markedMessages bundle links rest).map (fun lines =>
          [template (messageHeading m), [], body, []] ++ lines))

theorem text_markedMessages (bundle : CollectedBundle) (links : AssetLinks)
    (messages : List Message) :
    (markedMessages loads nfc bundle links messages).map (fun lines => lines.map Escapes.text) =
      messageLines loads nfc bundle links messages := by
  induction messages with
  | nil => rfl
  | cons m rest ih =>
      rw [markedMessages, messageLines, ← ih, ← text_markedBody]
      cases markedBody loads nfc bundle links m.content with
      | error e => rfl
      | ok body =>
          show Except.map _ (Except.map _ _) = Except.map _ (Except.map _ _)
          cases markedMessages loads nfc bundle links rest with
          | error e => rfl
          | ok lines =>
              simp only [Except.map, List.map_append, List.map_cons, List.map_nil, text_template]
              rfl

/-- `render_conversation_markdown(ec, bundle, links, parent_title)` -/
def markedConversation (ec : ExportConversation) (bundle : CollectedBundle)
    (links : AssetLinks) (parentTitle : Option Text) : Except PyExc (Marked CodePoint) :=
  (markedMessages loads nfc bundle links ec.messages).map (fun lines =>
    (joinMarked (text "\n") (markedHead ec parentTitle ++ lines)).rdropWhile
      (fun c => isSpace c.1) ++ template (text "\n"))

theorem text_markedConversation (ec : ExportConversation) (bundle : CollectedBundle)
    (links : AssetLinks) (parentTitle : Option Text) :
    (markedConversation loads nfc ec bundle links parentTitle).map Escapes.text =
      renderConversationMarkdown loads nfc ec bundle links parentTitle := by
  unfold markedConversation renderConversationMarkdown
  rw [← text_markedMessages]
  cases markedMessages loads nfc bundle links ec.messages with
  | error e => rfl
  | ok lines =>
      apply congrArg Except.ok
      rw [text_append, text_template, text_rdropWhile, text_joinMarked, List.map_append,
        text_markedHead]
      rfl

end Conversation

end RenderMarkdown

/-!
# The README
-/

namespace ExportArchive

open RenderMarkdown

def markedTitle (entry : ManifestEntry) : Marked CodePoint :=
  match truthy entry.title with
  | some title => title.map (fun c => (c, .title))
  | none => template (text "Untitled")

theorem text_markedTitle (entry : ManifestEntry) :
    Escapes.text (markedTitle entry) = readmeTitle entry := by
  unfold markedTitle readmeTitle
  cases truthy entry.title with
  | none => exact text_template _
  | some title =>
      unfold Escapes.text
      rw [List.map_map]
      exact List.map_id title

def markedContents (entry : ManifestEntry) : Marked CodePoint :=
  template ((List.replicate entry.depth (text "  ")).flatten ++ text "- [") ++ markedTitle entry ++
    template (text "](" ++ entry.path ++ text ") — " ++ intText entry.messageCount ++
      text " messages")

def markedOrphan (entry : ManifestEntry) (parentId : UUID) : Marked CodePoint :=
  template (text "- ") ++ markedTitle entry ++
    template (text " (parent `" ++ parentId.toText ++ text "` was deleted or is inaccessible)")

def markedOrphans (convs : List ManifestEntry) : List (Marked CodePoint) :=
  convs.filterMap (fun entry => entry.orphanedFrom.map (markedOrphan entry))

/-- `render_readme(bundle, convs, options, omitted)` -/
def markedReadme (generatedAt : Datetime) (convs : List ManifestEntry) (includeMedia : Bool)
    (omitted : List (UUID × Text)) : Marked CodePoint :=
  let orphans := markedOrphans convs
  joinMarked (text "\n")
    ((layoutLines generatedAt convs.length).map template ++ convs.map markedContents ++
      (noteLines includeMedia).map template ++ (omittedLines omitted).map template ++
      (if orphans.isEmpty then []
        else [[], template (text "## Branches whose parent is unavailable"), []] ++ orphans)) ++
    template (text "\n")

theorem text_markedContents (entry : ManifestEntry) :
    Escapes.text (markedContents entry) = contentsLine entry := by
  unfold markedContents contentsLine
  simp only [text_append, text_template, text_markedTitle, List.append_assoc]

theorem text_markedOrphans (convs : List ManifestEntry) :
    (markedOrphans convs).map Escapes.text = orphanLines convs := by
  unfold markedOrphans orphanLines
  rw [List.map_filterMap]
  congr 1
  funext entry
  cases entry.orphanedFrom with
  | none => rfl
  | some parentId =>
      apply congrArg some
      unfold markedOrphan orphanLine
      simp only [text_append, text_template, text_markedTitle, List.append_assoc]

theorem text_markedReadme (generatedAt : Datetime) (convs : List ManifestEntry)
    (includeMedia : Bool) (omitted : List (UUID × Text)) :
    Escapes.text (markedReadme generatedAt convs includeMedia omitted) =
      renderReadme generatedAt convs includeMedia omitted := by
  have hlines : forall lines : List Text, (lines.map template).map Escapes.text = lines := by
    intro lines
    rw [List.map_map]
    conv_rhs => rw [← List.map_id lines]
    exact List.map_congr_left (fun line _ => text_template line)
  have hcontents : (convs.map markedContents).map Escapes.text = convs.map contentsLine := by
    rw [List.map_map]
    exact List.map_congr_left (fun entry _ => text_markedContents entry)
  have hempty : (orphanLines convs).isEmpty = (markedOrphans convs).isEmpty := by
    rw [← text_markedOrphans]
    exact List.isEmpty_map
  unfold markedReadme renderReadme
  dsimp only
  rw [text_append, text_template, text_joinMarked, List.map_append, List.map_append,
    List.map_append, List.map_append, hlines, hlines, hlines, hcontents, hempty]
  split
  · rfl
  · rw [List.map_append, text_markedOrphans]
    simp only [List.map_cons, List.map_nil, text_template]
    rfl

end ExportArchive
end ConversationService
