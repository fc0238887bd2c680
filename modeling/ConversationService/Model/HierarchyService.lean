import Mathlib.Data.List.Lex
import Mathlib.Data.List.Sort
import ConversationService.Model.ConversationRepository

/-!
# Hierarchy service (`app/services/hierarchy_service.py`)

The tree of a user's own conversations, computed from the catalogue at read time.
-/

namespace ConversationService

open Python Programs

/--
The listed conversations, with the edges from parents to children, oldest child first. A
later conversation with the id of an earlier one replaces it in the dictionary of nodes.
-/
structure Hierarchy where
  conversations : List Conversation
  edges : List (UUID × UUID)
deriving DecidableEq, Repr

namespace Hierarchy

/-- `h.nodes.get(id)` -/
def node? (h : Hierarchy) (id : UUID) : Option Conversation :=
  h.conversations.reverse.find? (fun c => c.conversationId = id)

/-- `id in h.nodes` -/
def has (h : Hierarchy) (id : UUID) : Bool :=
  (h.node? id).isSome

/-- `h.children.get(id, [])` -/
def childrenOf (h : Hierarchy) (id : UUID) : List UUID :=
  (h.edges.filter (fun e => e.1 = id)).map Prod.snd

/-- The parent of a node, whether or not it is a node itself. -/
def parentOf (h : Hierarchy) (id : UUID) : Option UUID :=
  (h.node? id).bind Conversation.parentConversationId

/-- The walk up visits every node at most once, so that it takes no more steps than there are nodes. -/
def rootFrom (h : Hierarchy) : Nat -> List UUID -> UUID -> UUID × Option UUID
  | 0, _, current => (current, none)
  | steps + 1, seen, current =>
      match h.parentOf current with
      | none => (current, none)
      | some parent =>
          if !h.has parent || (current :: seen).contains parent then (current, some parent)
          else rootFrom h steps (current :: seen) parent

def rootOf (h : Hierarchy) (id : UUID) : UUID × Option UUID :=
  h.rootFrom h.conversations.length [] id

/-- What is on the stack got there through the start or through an edge, each used once. -/
def subtreeFrom (h : Hierarchy) : Nat -> List UUID -> List UUID -> List UUID
  | 0, _, _ => []
  | _ + 1, [], _ => []
  | steps + 1, id :: stack, seen =>
      if seen.contains id || !h.has id then subtreeFrom h steps stack seen
      else id :: subtreeFrom h steps (h.childrenOf id ++ stack) (id :: seen)

def subtree (h : Hierarchy) (root : UUID) : List UUID :=
  h.subtreeFrom (h.edges.length + 1) [root] []

def depthFrom (h : Hierarchy) (root : UUID) : Nat -> List UUID -> UUID -> Nat
  | 0, _, _ => 0
  | steps + 1, seen, current =>
      if current = root || seen.contains current then 0
      else
        match h.parentOf current with
        | some parent =>
            if h.has parent then depthFrom h root steps (current :: seen) parent + 1 else 0
        | none => 0

def depthOf (h : Hierarchy) (id root : UUID) : Nat :=
  h.depthFrom root h.conversations.length [] id

end Hierarchy

/-- `(c.created_at, str(c.conversation_id))` -/
def siblingKey (c : Conversation) : Int ×ₗ Text :=
  toLex ((c.createdAt.map Datetime.micros).getD 0, c.conversationId.toText)

/--
Times can be ordered when all are missing, all are naive or all are aware; sorting others
raises `TypeError`.
-/
def sortedSiblings? (conversations : List Conversation) : Option (List Conversation) :=
  if conversations.all (fun c =>
      (c.createdAt.map Datetime.aware) =
        (conversations.head?.bind Conversation.createdAt).map Datetime.aware) then
    some (conversations.insertionSort (fun a b => siblingKey a ≤ siblingKey b))
  else none

/-- The edge to a conversation whose parent is another one of the nodes. -/
def edgeTo (nodes : List Conversation) (c : Conversation) : Option (UUID × UUID) :=
  match c.parentConversationId with
  | some parent =>
      if nodes.any (fun n => n.conversationId = parent) && parent ≠ c.conversationId then
        some (parent, c.conversationId)
      else none
  | none => none

def buildHierarchy (conversations : List Conversation) : Option Hierarchy :=
  (sortedSiblings? conversations).map (fun sorted =>
    { conversations := conversations
      edges := sorted.filterMap (edgeTo conversations) })

/-- The `scope` of `scope_ids`. -/
inductive HierarchyScope where
  | self
  | hierarchy
  | auto
deriving DecidableEq, Repr

namespace HierarchyService

def load (maxConversations : Nat) (userId : UUID) : Py Hierarchy := do
  let items <- ConversationRepository.list userId maxConversations none
  match buildHierarchy (items.filter (fun c => c.userId = some userId)) with
  | some h => pure h
  | none => Prog.raise .typeError

/-- Just the conversation, or the whole tree it belongs to; `auto` takes the tree of a root. -/
def scopeIds (h : Hierarchy) (conversationId : UUID) (scope : HierarchyScope) : List UUID :=
  if h.has conversationId then
    let scope :=
      if scope = .auto then
        (if h.parentOf conversationId = none then .hierarchy else .self)
      else scope
    if scope = .self then [conversationId]
    else h.subtree (h.rootOf conversationId).1
  else if scope = .self then [conversationId]
  else []

end HierarchyService
end ConversationService
