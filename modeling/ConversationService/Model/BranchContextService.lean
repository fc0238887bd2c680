import ConversationService.Model.CacheService

/-!
# Branch context (`app/services/branch_context_service.py`)

What a branch inherits from its ancestors: their chain, the part of each that is
in scope, and the newest usable messages of those parts.
-/

namespace ConversationService

open Python Programs

def maxLineageDepth : Nat := 25

def inheritedMaxMessages : Nat := 16

def inheritedMaxMessageChars : Nat := 2000

def inheritedMaxChars : Int := 12000

def scanPerSegment : Nat := 200

def maxInheritedDocuments : Nat := 50

/-- The part of one ancestor that a descendant inherits. -/
structure Segment where
  conversationId : UUID
  title : Option Text
  uptoMessageId : Option UUID
  uptoTime : Option Datetime
deriving DecidableEq, Repr

/-- Why a chain of ancestors stopped before its root. -/
inductive Truncation where
  | maxDepth
  | cycle
  | missingAncestor
  | inaccessibleAncestor
  | deletedAncestor
deriving DecidableEq, Repr

/-- The segments, root first. -/
structure Lineage where
  segments : List Segment
  truncated : Option Truncation
deriving DecidableEq, Repr

/-- An ancestor's message as it is offered to the model. -/
structure InheritedMessage where
  role : Option Sender
  content : Text
  conversationId : UUID
  messageId : UUID
deriving DecidableEq, Repr

/-- A document that is attached in the inherited part of an ancestor. -/
structure InheritedDocument where
  documentId : UUID
  sourceConversationId : UUID
  sourceTitle : Option Text
  sourceMessageId : UUID
deriving DecidableEq, Repr

/-- An ancestor as the client is shown it. -/
structure LineageEntry where
  conversationId : UUID
  title : Option Text
  uptoMessageId : Option UUID
deriving DecidableEq, Repr

/-- The result of `context`. -/
structure BranchContext where
  conversationId : UUID
  branchMessageId : Option UUID
  lineage : List LineageEntry
  truncated : Option Truncation
  documents : List InheritedDocument
deriving DecidableEq, Repr

namespace BranchContextService

/-- `_usable(m)` -/
def usable (m : Message) : Bool :=
  (m.sender == some .user || m.sender == some .assistant) && m.status == .sent &&
    !(strip (m.content.getD [])).isEmpty

/-- The segment of the parent of `cur`, with its boundary or the legacy one. -/
def segmentOf (cur : Conversation) (parentId : UUID) (parent : Conversation) :
    Segment :=
  { conversationId := parentId
    title := parent.title
    uptoMessageId := cur.branchMessageId
    uptoTime := if cur.branchMessageId.isSome then none else cur.createdAt }

/--
The loop of `lineage`, with `depth` more ancestors allowed. `chain` holds the
segments found so far, the farthest ancestor first.
-/
def lineageFrom (cache : Option CacheService) (owner : Option UUID) :
    Nat -> List UUID -> Conversation -> List Segment -> Py Lineage
  | depth, seen, cur, chain =>
      match cur.parentConversationId with
      | none => .ret ⟨chain, none⟩
      | some parentId =>
          match depth with
          | 0 => .ret ⟨chain, some .maxDepth⟩
          | depth + 1 =>
              if parentId ∈ seen then .ret ⟨chain, some .cycle⟩
              else
                ConversationReads.get cache parentId >>= fun parent =>
                  match parent with
                  | none => .ret ⟨chain, some .missingAncestor⟩
                  | some parent =>
                      if parent.userId ≠ owner then
                        .ret ⟨chain, some .inaccessibleAncestor⟩
                      else if parent.status = .deleted then
                        .ret ⟨chain, some .deletedAncestor⟩
                      else
                        lineageFrom cache owner depth (parentId :: seen) parent
                          (segmentOf cur parentId parent :: chain)

def lineage (cache : Option CacheService) (conv : Conversation) : Py Lineage :=
  lineageFrom cache conv.userId maxLineageDepth [conv.conversationId] conv []

/-- The messages written no later than a time; comparing may raise `TypeError`. -/
def writtenUpto (uptoTime : Datetime) (m : Message) : Option Bool :=
  m.createdAt.bind (fun t => t.le? uptoTime)

/-- The newest messages of a segment, within its boundary. -/
def messagesInScope (seg : Segment) (limit : Nat) : Py (List Message) :=
  match seg.uptoMessageId with
  | some upto => MessageRepository.historyUpto seg.conversationId upto limit
  | none => do
      let rows <- MessageRepository.history seg.conversationId limit none
      match seg.uptoTime with
      | none => pure rows
      | some time =>
          match rows.mapM (fun m => (writtenUpto time m).map (fun b => (m, b))) with
          | some marked =>
              pure ((marked.filter (fun p => p.2)).map Prod.fst)
          | none => Prog.raise .typeError

def segmentMessages (seg : Segment) (limit : Nat) : Py (List Message) := do
  let rows <- messagesInScope seg limit
  pure (rows.filter usable)

/-- `ancestor_refs(lineage)` -/
def ancestorRefs (l : Lineage) : List AncestorRef :=
  l.segments.filterMap (fun s =>
    s.uptoMessageId.map (fun upto => ⟨s.conversationId, upto⟩))

/-- What has been picked from the segments so far, newest first. -/
structure Picking where
  picked : List Message
  seen : List UUID
  chars : Int
  full : Bool
deriving DecidableEq, Repr

def Picking.start : Picking := ⟨[], [], inheritedMaxChars, false⟩

def inheritedText (m : Message) : Text :=
  (strip (m.content.getD [])).take inheritedMaxMessageChars

/-- The inner loop of `inherited_history`. -/
def pickMessages : Picking -> List Message -> Picking
  | p, [] => p
  | p, m :: rest =>
      if m.messageId ∈ p.seen then pickMessages p rest
      else
        let size : Int := (inheritedText m).length
        if inheritedMaxMessages ≤ p.picked.length ∨
            (p.picked ≠ [] ∧ p.chars - size < 0) then
          { p with full := true }
        else
          pickMessages
            { p with
              picked := p.picked ++ [m]
              seen := m.messageId :: p.seen
              chars := p.chars - size }
            rest

/-- The outer loop, over the segments with the nearest ancestor first. -/
def pickSegments : Picking -> List Segment -> Py Picking
  | p, [] => .ret p
  | p, seg :: rest => do
      let messages <- segmentMessages seg (inheritedMaxMessages * 2)
      let p := pickMessages p messages
      if p.full then pure p else pickSegments p rest

def inheritedMessage (m : Message) : InheritedMessage :=
  { role := m.sender
    content := inheritedText m
    conversationId := m.conversationId
    messageId := m.messageId }

def inheritedHistory (l : Lineage) : Py (List InheritedMessage) :=
  Prog.tryCatch
    (do
      let p <- pickSegments .start l.segments.reverse
      pure (p.picked.reverse.map inheritedMessage))
    (fun _ => pure [])

/-- `inherited_history(conv)`, which resolves the lineage on its own. -/
def inheritedHistoryOf (cache : Option CacheService) (conv : Conversation) :
    Py (List InheritedMessage) :=
  Prog.tryCatch
    (do
      let l <- lineage cache conv
      let p <- pickSegments .start l.segments.reverse
      pure (p.picked.reverse.map inheritedMessage))
    (fun _ => pure [])

/-- The inherited history and the ancestors of a request event. -/
def eventContext (cache : Option CacheService) (conv : Conversation) :
    Py (List InheritedMessage × List AncestorRef) := do
  let l <-
    Prog.tryCatch
      (do
        let l <- lineage cache conv
        pure (some l))
      (fun _ => pure none)
  match l with
  | none => pure ([], [])
  | some l =>
      let inherited <- inheritedHistory l
      pure (inherited, ancestorRefs l)

/-- The documents so far, and the ids of their files. -/
structure Gathering where
  documents : List InheritedDocument
  seen : List UUID
deriving DecidableEq, Repr

/-- `titles.get(conversation_id, "")`; a later segment overwrites an earlier one. -/
def titleOf (l : Lineage) (conversationId : UUID) : Option Text :=
  match l.segments.reverse.find? (fun s => s.conversationId = conversationId) with
  | some seg => seg.title
  | none => some []

def gatherFile (l : Lineage) (seg : Segment) (m : Message) (g : Gathering) (fid : UUID) :
    Gathering :=
  if fid ∈ g.seen ∨ maxInheritedDocuments ≤ g.documents.length then g
  else
    { documents := g.documents ++
        [ { documentId := fid
            sourceConversationId := seg.conversationId
            sourceTitle := titleOf l seg.conversationId
            sourceMessageId := m.messageId } ]
      seen := fid :: g.seen }

def gatherMessage (l : Lineage) (seg : Segment) (g : Gathering) (m : Message) : Gathering :=
  if m.sender = some .user then m.fileIds.foldl (gatherFile l seg m) g else g

/-- The loop over the segments, root first, with the oldest message of each first. -/
def gatherSegments (l : Lineage) : Gathering -> List Segment -> Py Gathering
  | g, [] => .ret g
  | g, seg :: rest => do
      let messages <- segmentMessages seg scanPerSegment
      gatherSegments l (messages.reverse.foldl (gatherMessage l seg) g) rest

def lineageEntry (seg : Segment) : LineageEntry :=
  ⟨seg.conversationId, seg.title, seg.uptoMessageId⟩

/-- The lineage and the inherited documents; what its reads raise goes through. -/
def context (cache : Option CacheService) (conv : Conversation) : Py BranchContext := do
  let l <- lineage cache conv
  let g <- gatherSegments l ⟨[], []⟩ l.segments
  pure
    { conversationId := conv.conversationId
      branchMessageId := conv.branchMessageId
      lineage := l.segments.map lineageEntry
      truncated := l.truncated
      documents := g.documents }

end BranchContextService
end ConversationService
