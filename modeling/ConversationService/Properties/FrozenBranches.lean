import ConversationService.Effects.BranchScope
import ConversationService.Effects.Operations
import ConversationService.Model.Replicas

/-!
# Branches freeze their parents

The branch point of a new child is the newest id of its parent, while later is when a row
is inserted. A request mints the ids of its rows before it inserts them, and inserts the
reply above the prompt first, so that the two orders agree only if nobody is in between
when the branch point is read.
-/

namespace ConversationService

open Python Programs

/-!
# Insertions
-/

/-- An `INSERT` has written the row; a soft delete alone leaves no sender. -/
def Store.HasMessage (s : Store) (c id : UUID) : Prop :=
  exists row, s.row c id = some row ∧ row.sender.isSome = true

/-- The id is above all rows of the conversation. -/
def Store.AllBelow (s : Store) (c id : UUID) : Prop :=
  forall id' row, s.row c id' = some row -> id' < id

def Op.inserts : Op -> Option (UUID × UUID)
  | .insertMessage c m _ _ _ _ _ => some (c, m)
  | .batchMessageOutbox c m _ _ _ _ _ _ _ _ => some (c, m)
  | _ => none

/-- The operation keeps the conversations, and the rows of all messages. -/
def Op.LeavesBranches : Op -> Prop
  | .batchCreateConversation _ _ _ _ _ _ _ _ _ _ => False
  | .batchUpdateConversation _ _ _ _ _ _ _ _ _ _ _ => False
  | .batchUpdateTitle _ _ _ _ _ _ _ _ => False
  | .batchHardDelete _ _ _ => False
  | .deleteAllMessages _ => False
  | _ => True

theorem Op.IsTraffic.leavesBranches {o : Op} (ho : o.IsTraffic) : o.LeavesBranches := by
  cases o <;> trivial

theorem Op.IsTraffic.inserts {o : Op} (ho : o.IsTraffic) : o.inserts = none := by
  cases o <;> first | rfl | exact ho.elim

theorem Op.OnResponse.leavesBranches {c r : UUID} {o : Op} (ho : o.OnResponse c r) :
    o.LeavesBranches := by
  cases o <;> trivial

theorem Op.OnResponse.inserts {c r : UUID} {o : Op} (ho : o.OnResponse c r) :
    o.inserts = none := by
  cases o <;> first | rfl | exact ho.elim

section Rows

variable {s : Store} {o : Op} {c id : UUID}

theorem hasMessage_upsert {c' id' : UUID} {f : Option Row -> Row}
    (h : (s.upsertMessage c' id' f).HasMessage c id) :
    s.HasMessage c id ∨ ((c', id') = (c, id) ∧ (f (s.row c id)).sender.isSome = true) := by
  rcases h with ⟨row, hrow, hsender⟩
  rw [Store.row_upsertMessage] at hrow
  split at hrow
  · rename_i hsame
    rcases hsame with ⟨rfl, rfl⟩
    cases hrow
    exact Or.inr ⟨rfl, hsender⟩
  · exact Or.inl ⟨row, hrow, hsender⟩

theorem hasMessage_exec (h : (o.exec s).2.HasMessage c id) :
    s.HasMessage c id ∨ o.inserts = some (c, id) := by
  cases o with
  | insertMessage c' m _ _ _ _ _ =>
      rcases hasMessage_upsert h with hold | ⟨hsame, _⟩
      · exact Or.inl hold
      · exact Or.inr (congrArg some hsame)
  | batchMessageOutbox c' m _ _ _ _ _ _ _ _ =>
      rcases hasMessage_upsert h with hold | ⟨hsame, _⟩
      · exact Or.inl hold
      · exact Or.inr (congrArg some hsame)
  | updateDeleted c' m =>
      rcases hasMessage_upsert h with hold | ⟨_, hsender⟩
      · exact Or.inl hold
      · cases hrow : s.row c id with
        | none =>
            rw [hrow] at hsender
            cases hsender
        | some row =>
            rw [hrow] at hsender
            exact Or.inl ⟨row, hrow, hsender⟩
  | deleteAllMessages c' =>
      left
      rcases h with ⟨row, hrow, hsender⟩
      refine ⟨row, ?_, hsender⟩
      by_cases hc : c = c'
      · subst hc
        unfold Store.row Op.exec Store.clearMessages at hrow
        dsimp only at hrow
        rw [Function.update_self] at hrow
        cases hrow
      · unfold Store.row Op.exec Store.clearMessages at hrow
        dsimp only at hrow
        rw [Function.update_of_ne hc] at hrow
        exact hrow
  | _ => exact Or.inl h

theorem row_exec_of_leaves (ho : o.LeavesBranches) {row : Row} (h : s.row c id = some row) :
    exists row', (o.exec s).2.row c id = some row' ∧
      (row.sender.isSome = true -> row'.sender.isSome = true) := by
  have hupsert : forall {c' id' : UUID} {f : Option Row -> Row},
      (row.sender.isSome = true -> (f (some row)).sender.isSome = true) ->
      exists row', (s.upsertMessage c' id' f).row c id = some row' ∧
        (row.sender.isSome = true -> row'.sender.isSome = true) := by
    intro c' id' f hf
    rw [Store.row_upsertMessage]
    split
    · rename_i hsame
      rw [← hsame.left, ← hsame.right, h]
      exact ⟨_, rfl, hf⟩
    · exact ⟨row, h, fun hsender => hsender⟩
  cases o with
  | insertMessage _ _ _ _ _ _ _ => exact hupsert (fun _ => rfl)
  | batchMessageOutbox _ _ _ _ _ _ _ _ _ _ => exact hupsert (fun _ => rfl)
  | updateDeleted _ _ => exact hupsert (fun hsender => hsender)
  | batchCreateConversation _ _ _ _ _ _ _ _ _ _ => exact ho.elim
  | batchUpdateConversation _ _ _ _ _ _ _ _ _ _ _ => exact ho.elim
  | batchUpdateTitle _ _ _ _ _ _ _ _ => exact ho.elim
  | batchHardDelete _ _ _ => exact ho.elim
  | deleteAllMessages _ => exact ho.elim
  | _ => exact ⟨row, h, fun hsender => hsender⟩

end Rows

/-!
# A frozen branch
-/

/-- What the child may see of its parent: the messages up to `upto` are in `frozen`. -/
structure Frozen (p child upto : UUID) (frozen : UUID -> Prop) (s : Store) : Prop where
  stored : exists row, s.row p upto = some row
  later : forall id, s.HasMessage p id -> frozen id ∨ upto < id
  kept : forall id, frozen id -> s.HasMessage p id
  branch : forall row, s.conversations child = some row ->
    row.parentConversationId = some p ∧ row.branchMessageId = some upto

/-- The operation inserts into the parent later than the branch point only. -/
def Op.InsertsLater (p upto : UUID) (frozen : UUID -> Prop) (o : Op) : Prop :=
  forall id, o.inserts = some (p, id) -> frozen id ∨ upto < id

/-- A creation of the child records the branch point. -/
def Op.BranchesAt (p child upto : UUID) : Op -> Prop
  | .batchCreateConversation c _ _ _ _ parent branch _ _ _ =>
      c = child ∧ parent = some p ∧ branch = some upto
  | o => o.LeavesBranches

structure Op.Respects (p child upto : UUID) (frozen : UUID -> Prop) (o : Op) : Prop where
  inserts : o.InsertsLater p upto frozen
  branch : o.BranchesAt p child upto

theorem Op.LeavesBranches.branchesAt {p child upto : UUID} {o : Op}
    (ho : o.LeavesBranches) : o.BranchesAt p child upto := by
  cases o <;> trivial

section Frozen

variable {p child upto : UUID} {frozen : UUID -> Prop}

theorem Op.respects_of_none {o : Op} (hinserts : o.inserts = none)
    (hleaves : o.LeavesBranches) : o.Respects p child upto frozen := by
  refine ⟨?_, hleaves.branchesAt⟩
  intro id hid
  rw [hinserts] at hid
  cases hid

theorem conversations_of_leaves {o : Op} (ho : o.LeavesBranches) (s : Store) :
    (o.exec s).2.conversations = s.conversations := by
  cases o with
  | batchCreateConversation _ _ _ _ _ _ _ _ _ _ => exact ho.elim
  | batchUpdateConversation _ _ _ _ _ _ _ _ _ _ _ => exact ho.elim
  | batchUpdateTitle _ _ _ _ _ _ _ _ => exact ho.elim
  | batchHardDelete _ _ _ => exact ho.elim
  | deleteAllMessages _ => exact ho.elim
  | _ => rfl

theorem frozen_exec {o : Op} (ho : o.Respects p child upto frozen) {s : Store}
    (h : Frozen p child upto frozen s) : Frozen p child upto frozen (o.exec s).2 := by
  have hlater : forall id, (o.exec s).2.HasMessage p id -> frozen id ∨ upto < id := by
    intro id hid
    cases hasMessage_exec hid with
    | inl hold => exact h.later id hold
    | inr hinserts => exact ho.inserts id hinserts
  have hleaves : o.LeavesBranches -> Frozen p child upto frozen (o.exec s).2 := by
    intro ho
    refine ⟨?_, hlater, ?_, ?_⟩
    · rcases h.stored with ⟨row, hrow⟩
      rcases row_exec_of_leaves ho hrow with ⟨row', hrow', _⟩
      exact ⟨row', hrow'⟩
    · intro id hid
      rcases h.kept id hid with ⟨row, hrow, hsender⟩
      rcases row_exec_of_leaves ho hrow with ⟨row', hrow', hkeep⟩
      exact ⟨row', hrow', hkeep hsender⟩
    · rw [conversations_of_leaves ho]
      exact h.branch
  cases o with
  | batchCreateConversation c _ _ _ _ parent branch _ _ _ =>
      rcases ho.branch with ⟨rfl, rfl, rfl⟩
      refine ⟨h.stored, hlater, h.kept, ?_⟩
      intro row hrow
      have hnew := (Function.update_self c _ _).symm.trans hrow
      cases hnew
      exact ⟨rfl, rfl⟩
  | _ => exact hleaves ho.branch

theorem frozen_elapsed {s t : Store} (helapsed : Elapsed s t)
    (h : Frozen p child upto frozen s) : Frozen p child upto frozen t := by
  have hrow : forall id, t.row p id = s.row p id := by
    intro id
    rw [helapsed.rest]
    rfl
  have hconversations : t.conversations = s.conversations := by rw [helapsed.rest]
  refine ⟨?_, ?_, ?_, ?_⟩
  · rw [hrow]
    exact h.stored
  · intro id hid
    rcases hid with ⟨row, hid, hsender⟩
    rw [hrow] at hid
    exact h.later id ⟨row, hid, hsender⟩
  · intro id hid
    unfold Store.HasMessage
    rw [hrow]
    exact h.kept id hid
  · rw [hconversations]
    exact h.branch

end Frozen

/-!
# The requests of the parent
-/

def ServiceCall.IsRequest : ServiceCall -> Prop
  | .message (.send _ _) => True
  | .message (.regenerate _ _ _ _) => True
  | .message (.generated _ _) => True
  | _ => False

/-- The ids under which a request that begins in this store inserts rows. -/
def ServiceCall.InsertsIn (d : Deployment) (p : UUID) (s : Store) :
    ServiceCall -> UUID -> Prop
  | .message (.send reads args), id =>
      args.conversationId = p ∧ Mints d s (.send reads args) id
  | .message (.regenerate reads c m userId), id =>
      c = p ∧ Mints d s (.regenerate reads c m userId) id
  | .message (.generated _ event), id => Consumers.Names event id p
  | _, _ => False

section Requests

variable {d : Deployment} {cache : Option CacheService} {p child upto : UUID}
  {frozen : UUID -> Prop}

theorem onlyOps_ignoreResult {alpha : Type} {P : Op -> Prop} {q : Py alpha}
    (hq : OnlyOps P q) : OnlyOps P (ignoreResult q) :=
  onlyOps_bind hq (fun _ => onlyOps_ret _)

theorem respects_insertMessage {c m : UUID} {sender : Sender} {content : Text}
    {now : Datetime} {status : MessageStatus} {citations : Option Json}
    (h : c = p -> frozen m ∨ upto < m) :
    (Op.insertMessage c m sender content now status citations).Respects p child upto
      frozen := by
  refine ⟨?_, trivial⟩
  intro id hid
  cases hid
  exact h rfl

theorem respects_batchMessageOutbox {c m : UUID} {sender : Sender} {content : Text}
    {now : Datetime} {status : MessageStatus} {fileIds : List UUID} {bucket : Nat}
    {eventId : UUID} {event : OutboxRow} (h : c = p -> frozen m ∨ upto < m) :
    (Op.batchMessageOutbox c m sender content now status fileIds bucket eventId
      event).Respects p child upto frozen := by
  refine ⟨?_, trivial⟩
  intro id hid
  cases hid
  exact h rfl

theorem onlyOps_respects_send {reads : Readings} {args : SendArgs}
    (hids : forall id, args.conversationId = p ->
      (id = args.messageId ∨ MessageService.responseIdFor reads args = some id) ->
      frozen id ∨ upto < id) :
    OnlyOps (Op.Respects p child upto frozen) (d.api.send reads args) := by
  apply onlyOps_send
  · intro o ho
    exact Op.respects_of_none ho.isTraffic.inserts ho.isTraffic.leavesBranches
  · intro r content status citations hr
    exact respects_insertMessage (fun hc => hids r hc (Or.inr hr))
  · intro r o _ ho
    exact Op.respects_of_none ho.inserts ho.leavesBranches
  · intro content status files bucket row
    exact respects_batchMessageOutbox (fun hc => hids _ hc (Or.inl rfl))

theorem onlyOps_respects_regenerateTarget {reads : Readings} {c m : UUID}
    {userId : Option UUID} {target : Message} {below : List Message}
    (hids : c = p ->
      frozen (MessageService.regenerateResponseId reads target below.head?) ∨
        upto < MessageService.regenerateResponseId reads target below.head?) :
    OnlyOps (Op.Respects p child upto frozen)
      (d.api.regenerateTarget reads c m userId target below) := by
  apply onlyOps_regenerateTarget d.api reads userId target below rfl
  · intro o ho
    exact Op.respects_of_none ho.isTraffic.inserts ho.isTraffic.leavesBranches
  · intro content status citations
    exact respects_insertMessage hids
  · intro o ho
    exact Op.respects_of_none ho.inserts ho.leavesBranches
  · intro content status files bucket row
    exact respects_batchMessageOutbox hids
  · exact Op.respects_of_none rfl trivial

theorem onlyOps_respects_generated {now : Datetime} {event : Event}
    (hids : forall id, Consumers.Names event id p -> frozen id ∨ upto < id) :
    OnlyOps (Op.Respects p child upto frozen)
      (Consumers.handleChatResponseGenerated d.consumer d.stream now event) := by
  apply onlyOps_handleChatResponseGenerated
  · intro key
    exact Op.respects_of_none rfl trivial
  · intro key
    exact Op.respects_of_none rfl trivial
  · intro r c _
    exact Op.respects_of_none rfl trivial
  · intro r c _
    exact Op.respects_of_none rfl trivial
  · intro r c o _ ho
    exact Op.respects_of_none ho.isTraffic.inserts ho.isTraffic.leavesBranches
  · intro r c content status citations hnames
    apply respects_insertMessage
    intro hc
    subst hc
    exact hids r hnames
  · intro r c o _ ho
    exact Op.respects_of_none (ho.onResponse (c := c)).inserts
      (ho.onResponse (c := c)).leavesBranches

theorem respects_begun {call : ServiceCall} (hcall : call.IsRequest) {s : Store}
    (hids : forall id, call.InsertsIn d p s id -> frozen id ∨ upto < id) {o : Op}
    {next : Option o.Res -> Py Unit} (hprog : .op o next = call.program d cache) :
    o.Respects p child upto frozen ∧
      OnlyOps (Op.Respects p child upto frozen) (next (some (o.exec s).1)) := by
  have hwhole : OnlyOps (Op.Respects p child upto frozen) (call.program d cache) ->
      o.Respects p child upto frozen ∧
        OnlyOps (Op.Respects p child upto frozen) (next (some (o.exec s).1)) := by
    intro h
    rw [← hprog] at h
    exact ⟨h.left, h.right _⟩
  cases call with
  | conversation _ => exact hcall.elim
  | history _ _ _ => exact hcall.elim
  | cleanUp _ => exact hcall.elim
  | message call =>
      cases call with
      | attachSummary _ _ _ _ => exact hcall.elim
      | delete _ _ => exact hcall.elim
      | chunk _ => exact hcall.elim
      | timeoutPass _ _ => exact hcall.elim
      | send reads args =>
          apply hwhole
          apply onlyOps_ignoreResult
          apply onlyOps_respects_send
          intro id hc hid
          exact hids id ⟨hc, hid⟩
      | generated now event =>
          apply hwhole
          exact onlyOps_respects_generated hids
      | regenerate reads c m userId =>
          cases hprog
          refine ⟨Op.respects_of_none rfl trivial, ?_⟩
          apply onlyOps_ignoreResult
          have hpage : ((Op.selectHistory c d.api.settings.cacheHistoryLimit none).exec
              s).1.filterMap (MessageRepository.liveMessage c) =
                historyPage s c d.api.settings.cacheHistoryLimit := rfl
          dsimp only [Prog.bind, Prog.pure_eq_ret]
          rw [hpage]
          cases hlocate : MessageService.locate m
              (historyPage s c d.api.settings.cacheHistoryLimit) with
          | none => exact onlyOps_ret _
          | some found =>
              rcases found with ⟨target, below⟩
              apply onlyOps_respects_regenerateTarget
              intro hc
              exact hids _ ⟨hc, target, below, hlocate, rfl⟩

theorem onlyOps_leavesBranches_request {call : ServiceCall} (hcall : call.IsRequest) :
    OnlyOps Op.LeavesBranches (call.program d cache) := by
  cases call with
  | conversation _ => exact hcall.elim
  | history _ _ _ => exact hcall.elim
  | cleanUp _ => exact hcall.elim
  | message call =>
      cases call with
      | attachSummary _ _ _ _ => exact hcall.elim
      | delete _ _ => exact hcall.elim
      | chunk _ => exact hcall.elim
      | timeoutPass _ _ => exact hcall.elim
      | send reads args =>
          apply onlyOps_ignoreResult
          exact onlyOps_send d.api reads (fun _ ho => ho.isTraffic.leavesBranches)
            (fun _ _ _ _ _ => trivial) (fun _ _ _ ho => ho.leavesBranches)
            (fun _ _ _ _ _ => trivial)
      | generated now event =>
          exact onlyOps_handleChatResponseGenerated d.consumer d.stream (fun _ => trivial)
            (fun _ => trivial) (fun _ _ _ => trivial) (fun _ _ _ => trivial)
            (fun _ _ _ _ ho => ho.isTraffic.leavesBranches) (fun _ _ _ _ _ _ => trivial)
            (fun _ c _ _ ho => (ho.onResponse (c := c)).leavesBranches)
      | regenerate reads c m userId =>
          apply onlyOps_ignoreResult
          refine onlyOps_bind (onlyOps_repositoryHistory _ _ _ trivial) (fun messages => ?_)
          split
          · exact onlyOps_ret _
          · rename_i target below _
            exact onlyOps_regenerateTarget d.api reads userId target below rfl
              (fun _ ho => ho.isTraffic.leavesBranches) (fun _ _ _ => trivial)
              (fun _ ho => ho.leavesBranches) (fun _ _ _ _ _ => trivial) trivial

end Requests

/-!
# Creating the child
-/

def branchCall (reads : ConversationReadings) (userId : UUID) (title : Text)
    (p : UUID) : ServiceCall :=
  .conversation (.create reads userId title (some p) none true)

/-- `create` once the branch point is known. -/
def createAtBranchPoint (cache : Option CacheService) (reads : ConversationReadings)
    (userId : UUID) (title : Text) (p : UUID) (branchMessageId : Option UUID) :
    Py Conversation := do
  let conv <-
    ConversationRepository.createWithOutbox reads.now reads.conversationId userId title
      .active reads.eventId conversationCreatedTopic
      (ConversationWrites.createdEvent reads userId title (some p) branchMessageId)
      (some p) branchMessageId
  ConversationWrites.forCache cache (fun cache => cache.setConversation conv)
  pure conv

/-- What is left of `create` when it reads the branch point. -/
def readBranchPoint (cache : Option CacheService) (reads : ConversationReadings)
    (userId : UUID) (title : Text) (p : UUID) : Py Unit :=
  ignoreResult
    (ConversationWrites.branchPoint true p none >>= fun branchMessageId =>
      createAtBranchPoint cache reads userId title p branchMessageId)

def Op.IsNoHistory : Op -> Prop
  | .selectHistory _ _ _ => False
  | _ => True

section Create

variable {cache : Option CacheService} {reads : ConversationReadings} {userId : UUID}
  {title : Text} {p : UUID}

theorem onlyOps_createAtBranchPoint {P : Op -> Prop} {branchMessageId : Option UUID}
    (hbatch : forall title bucket event,
      P (.batchCreateConversation reads.conversationId userId title reads.now .active
        (some p) branchMessageId bucket reads.eventId event))
    (hfinds : forall o, Op.Finds reads.conversationId o -> P o) :
    OnlyOps P (createAtBranchPoint cache reads userId title p branchMessageId) := by
  unfold createAtBranchPoint ConversationRepository.createWithOutbox
  apply Prog.allOps_bind_returns (R := fun conv : Conversation =>
    conv.conversationId = reads.conversationId)
  · exact onlyOps_bind (onlyOps_cqlText P _)
      (fun _ => onlyOps_bind (onlyOps_perform (hbatch _ _ _)) (fun _ => onlyOps_ret _))
  · apply Prog.returns_bind (Prog.returns_trivial _)
    intro title _
    exact Prog.returns_bind (Prog.returns_trivial _) (fun _ _ => rfl)
  · intro conv hconv
    refine onlyOps_bind ?_ (fun _ => onlyOps_ret _)
    unfold ConversationWrites.forCache
    split
    · rename_i cache
      have hset := onlyFinds_setConversation cache conv
      rw [hconv] at hset
      exact Prog.allOps_mono hset hfinds
    · exact onlyOps_ret _

theorem onlyAt_create (d : Deployment) :
    Prog.OnlyAt (S := storage) Op.IsNoHistory (readBranchPoint cache reads userId title p)
      ((branchCall reads userId title p).program d cache) := by
  have hassoc : (branchCall reads userId title p).program d cache =
      (ConversationReads.get cache p >>= fun parent =>
        ignoreResult
          ((parent.elim (Prog.raise .lookupError) (fun parent =>
              if parent.status ≠ .active then Prog.raise .valueError
              else if parent.userId ≠ some userId then Prog.raise .permissionError
              else ConversationWrites.branchPoint true p none)) >>=
            fun branchMessageId =>
              createAtBranchPoint cache reads userId title p branchMessageId)) := by
    show ignoreResult ((ConversationReads.get cache p >>= _) >>= _) = _
    unfold ignoreResult
    rw [Prog.bind_assoc, Prog.bind_assoc]
    congr
    funext parent
    rw [Prog.bind_assoc]
    cases parent with
    | none => rfl
    | some parent => rfl
  rw [hassoc]
  apply Prog.onlyAt_bind
  · apply Prog.allOps_mono (onlyFinds_conversationGet cache p)
    intro o ho
    cases o <;> trivial
  · intro parent
    cases parent with
    | none => trivial
    | some parent =>
        dsimp only [Option.elim]
        split
        · trivial
        · split
          · trivial
          · refine ⟨Or.inr rfl, ?_⟩
            intro answer
            apply Prog.onlyAt_of_allOps
            cases answer with
            | none => trivial
            | some rows =>
                show OnlyOps _ (ignoreResult (createAtBranchPoint cache reads userId title p _))
                apply onlyOps_ignoreResult
                apply onlyOps_createAtBranchPoint
                · intro _ _ _
                  trivial
                · intro o ho
                  cases o <;> trivial

end Create

/-!
# Runs
-/

/-- The creation `create` and requests, in any order and interleaving. -/
def branching (d : Deployment) (cache : Option CacheService) (create : ServiceCall) :
    Rules ServiceCall storage PyExc Unit Store :=
  stoppable (ServiceCall.program d cache) (fun _ _ => True)
    (fun _ call => call.IsRequest ∨ call = create)

/-- A request that begins inserts under ids of the parent, or above all of them. -/
def MintsInOrder (d : Deployment) (cache : Option CacheService) (p : UUID)
    (c : ServicePool) (t : ServiceTask) : Prop :=
  t.prog = t.call.program d cache -> forall id, t.call.InsertsIn d p c.store id ->
    c.store.HasMessage p id ∨ c.store.AllBelow p id

/-- Requests that mint the ids of the parent in order. -/
def inOrder (d : Deployment) (cache : Option CacheService) (p : UUID) :
    Rules ServiceCall storage PyExc Unit Store :=
  stoppable (ServiceCall.program d cache) (MintsInOrder d cache p)
    (fun _ call => call.IsRequest)

/--
The newest row of the parent is a message that is not deleted, and what the other tasks
have still to insert into the parent is above it.
-/
structure ClearBranchPoint (d : Deployment) (cache : Option CacheService) (p upto : UUID)
    (s : Store) (others : List ServiceTask) : Prop where
  newest : exists row rest, (s.messages p).rows = (upto, row) :: rest ∧
    row.status ≠ .deleted
  requests : forall t, t ∈ others -> t.call.IsRequest
  inFlight : forall t, t ∈ others -> t.prog = t.call.program d cache ∨
    OnlyOps (Op.InsertsLater p upto (s.HasMessage p)) t.prog

/-- The contexts of the child `conv` in `t` have only messages that the parent had in `s`. -/
structure Freezes (cache : Option CacheService) (p : UUID) (s : Store)
    (conv : Conversation) (t : Store) : Prop where
  inherited : forall inherited refs,
    answerOf (BranchContextService.eventContext cache conv) t = .ok (inherited, refs) ->
    forall entry, entry ∈ inherited -> entry.conversationId = p ->
      s.HasMessage p entry.messageId
  ancestors : forall inherited refs,
    answerOf (BranchContextService.eventContext cache conv) t = .ok (inherited, refs) ->
    forall ref, ref ∈ refs -> ref.conversationId = p ->
    forall id, t.HasMessage p id -> id ≤ ref.uptoMessageId -> s.HasMessage p id
  documents : forall shown,
    answerOf (BranchContextService.context cache conv) t = .ok shown ->
    forall doc, doc ∈ shown.documents -> doc.sourceConversationId = p ->
      s.HasMessage p doc.sourceMessageId

section Runs

variable {d : Deployment} {cache : Option CacheService} {p upto : UUID}
  {reads : ConversationReadings} {userId : UUID} {title : Text}

/-- Before the branch point is read, `create` is on its way to reading it. -/
def OnTheWay (cache : Option CacheService) (reads : ConversationReadings) (userId : UUID)
    (title : Text) (p : UUID) (t : ServiceTask) : Prop :=
  (t.call.IsRequest -> OnlyOps Op.LeavesBranches t.prog) ∧
    (t.call = branchCall reads userId title p ->
      Prog.OnlyAt Op.IsNoHistory (readBranchPoint cache reads userId title p) t.prog)

theorem onTheWay_proof :
    Pool.TaskProof (branching d cache (branchCall reads userId title p)) (fun _ => True)
      (OnTheWay cache reads userId title p) := by
  constructor
  case done =>
    intro c call o next _ htask _
    exact ⟨trivial, fun hcall => (htask.left hcall).right _,
      fun hcall => (htask.right hcall).right _⟩
  case failed =>
    intro call o next _ hfail
    exact hfail.elim
  case started =>
    intro c call _ hstart
    refine ⟨fun hcall => onlyOps_leavesBranches_request hcall, ?_⟩
    intro hcall
    subst hcall
    exact onlyAt_create d
  case moved =>
    intro _ _ _ _
    trivial

/-- After that, every task is a request to begin, or one that respects the branch point. -/
def Respectful (d : Deployment) (cache : Option CacheService) (p child upto : UUID)
    (frozen : UUID -> Prop) (t : ServiceTask) : Prop :=
  (t.call.IsRequest ∧ t.prog = t.call.program d cache) ∨
    OnlyOps (Op.Respects p child upto frozen) t.prog

theorem respectful_proof {child : UUID} {frozen : UUID -> Prop} :
    Pool.TaskProof (inOrder d cache p) (Frozen p child upto frozen)
      (Respectful d cache p child upto frozen) := by
  constructor
  case done =>
    intro c call o next hfrozen htask hpermits
    rcases htask with ⟨hcall, hprog⟩ | hrest
    · have hids : forall id, call.InsertsIn d p c.store id -> frozen id ∨ upto < id := by
        intro id hid
        cases hpermits hprog id hid with
        | inl hstored => exact hfrozen.later id hstored
        | inr habove =>
            rcases hfrozen.stored with ⟨row, hrow⟩
            exact Or.inr (habove upto row hrow)
      rcases respects_begun hcall hids hprog with ⟨ho, hnext⟩
      exact ⟨frozen_exec ho hfrozen, Or.inr hnext⟩
    · exact ⟨frozen_exec hrest.left hfrozen, Or.inr (hrest.right _)⟩
  case failed =>
    intro call o next _ hfail
    exact hfail.elim
  case started =>
    intro c call _ hstart
    exact Or.inl ⟨hstart, rfl⟩
  case moved =>
    intro s t hfrozen helapsed
    exact frozen_elapsed helapsed hfrozen

theorem next_of_onlyAt {o : Op} {next : Option o.Res -> Py Unit} {q : Py Unit}
    {P : Op -> Prop} (h : Prog.OnlyAt (S := storage) P q (.op o next)) (ho : ¬P o) :
    .op o next = q := by
  rcases h.left with hin | heq
  · exact absurd hin ho
  · exact heq

theorem frozen_start {s : Store} {others : List ServiceTask}
    (hnew : s.conversations reads.conversationId = none)
    (hclear : ClearBranchPoint d cache p upto s others)
    {next : Option (Op.selectHistory p 1 none).Res -> Py Unit}
    (hprog : .op (.selectHistory p 1 none) next =
      readBranchPoint cache reads userId title p) :
    Frozen p reads.conversationId upto (s.HasMessage p) s ∧
      OnlyOps (Op.Respects p reads.conversationId upto (s.HasMessage p))
        (next (some ((Op.selectHistory p 1 none).exec s).1)) := by
  rcases hclear.newest with ⟨row, rest, hrows, hstatus⟩
  constructor
  · refine ⟨⟨row, ?_⟩, ?_, ?_, ?_⟩
    · have hmem : (upto, row) ∈ (s.messages p).rows := by
        rw [hrows]
        simp
      exact row_of_mem_rows hmem
    · intro id hid
      exact Or.inl hid
    · intro id hid
      exact hid
    · intro row hrow
      rw [hnew] at hrow
      cases hrow
  · cases hprog
    rcases message?_of_live hstatus with ⟨shown, hshown⟩
    have hpage : ((s.messages p).rows.take 1).filterMap
          (MessageRepository.liveMessage p) =
        [MessageRepository.rowMessage p upto shown row] := by
      rw [hrows]
      simp [MessageRepository.liveMessage, hshown]
    show OnlyOps _ (ignoreResult (createAtBranchPoint cache reads userId title p
      ((((s.messages p).rows.take 1).filterMap
        (MessageRepository.liveMessage p)).head?.map Message.messageId)))
    rw [hpage]
    apply onlyOps_ignoreResult
    apply onlyOps_createAtBranchPoint
    · intro title bucket event
      refine ⟨?_, rfl, rfl, rfl⟩
      intro id hid
      cases hid
    · intro o ho
      have htraffic := ho.isLookup.isTraffic
      exact Op.respects_of_none htraffic.inserts htraffic.leavesBranches

/-- A frozen child sees nothing of its parent that is not in `frozen`. -/
theorem freezes_of_frozen {child : UUID} {frozen : UUID -> Prop} {s t : Store}
    (ht : Frozen p child upto frozen t) (hs : forall id, frozen id -> s.HasMessage p id)
    {row : ConversationRow} {conv : Conversation}
    (hrow : t.conversations child = some row)
    (hconv : ConversationRepository.conversationOfRow? child row = some conv) :
    Freezes cache p s conv t := by
  rcases ht.branch row hrow with ⟨hparent, hbranch⟩
  have hconvParent : conv.parentConversationId = some p ∧
      conv.branchMessageId = some upto := by
    rcases Option.map_eq_some_iff.mp hconv with ⟨status, _, rfl⟩
    exact ⟨hparent, hbranch⟩
  have hearly : forall id, t.HasMessage p id -> id ≤ upto -> s.HasMessage p id := by
    intro id hid hle
    cases ht.later id hid with
    | inl hfrozen => exact hs id hfrozen
    | inr hlater => exact absurd hle (not_le_of_gt hlater)
  have hscope : forall {l : Lineage} {seg : Segment} {limit : Nat} {rows : List Message}
      {m : Message}, ancestry cache t conv = some l -> seg ∈ l.segments ->
      seg.conversationId = p -> scopeOf t seg limit = some rows -> m ∈ rows ->
      m.sender.isSome = true -> s.HasMessage p m.messageId := by
    intro l seg limit rows m hl hseg hid hrows hm hsender
    have hin := mem_scopeOf hrows hm
    have hupto : seg.uptoMessageId = some upto := by
      rw [boundary_of_parent hl hconvParent.left hseg hid, hconvParent.right]
    rcases hin.stored with ⟨stored, hstored, hsame⟩
    apply hearly
    · rw [hid] at hstored
      exact ⟨stored, hstored, by rw [← hsame]; exact hsender⟩
    · exact hin.upto upto hupto
  constructor
  · intro inherited refs hanswer entry hentry hid
    rw [answerOf_eventContext] at hanswer
    cases hl : ancestry cache t conv with
    | none =>
        rw [hl] at hanswer
        cases hanswer
        cases hentry
    | some l =>
        rw [hl] at hanswer
        cases hanswer
        rcases mem_inheritedOf hentry with
          ⟨m, ⟨seg, rows, hseg, hrows, hm, husable⟩, rfl⟩
        apply hscope hl hseg ?_ hrows hm ?_
        · rw [← hid, ← (mem_scopeOf hrows hm).conversationId]
          rfl
        · unfold BranchContextService.usable at husable
          cases hsender : m.sender with
          | none =>
              rw [hsender] at husable
              simp at husable
          | some sender => rfl
  · intro inherited refs hanswer ref href hid id hmessage hle
    rw [answerOf_eventContext] at hanswer
    cases hl : ancestry cache t conv with
    | none =>
        rw [hl] at hanswer
        cases hanswer
        cases href
    | some l =>
        rw [hl] at hanswer
        cases hanswer
        rcases List.mem_filterMap.mp href with ⟨seg, hseg, hsome⟩
        rcases Option.map_eq_some_iff.mp hsome with ⟨boundary, hboundary, rfl⟩
        have hsame := boundary_of_parent hl hconvParent.left hseg hid
        rw [hboundary, hconvParent.right] at hsame
        cases hsame
        exact hearly id hmessage hle
  · intro shown hanswer doc hdoc hid
    rw [answerOf_context] at hanswer
    cases hl : ancestry cache t conv with
    | none =>
        rw [hl] at hanswer
        cases hanswer
    | some l =>
        rw [hl] at hanswer
        dsimp only at hanswer
        cases hdocuments : documentsOf t l with
        | none =>
            rw [hdocuments] at hanswer
            cases hanswer
        | some documents =>
            rw [hdocuments] at hanswer
            cases hanswer
            rcases mem_documentsOf hdocuments hdoc with
              ⟨seg, rows, m, hseg, hrows, hm, hattached⟩
            rw [hattached.message]
            apply hscope hl hseg ?_ hrows hm ?_
            · rw [← hattached.conversation, hid]
            · rw [hattached.sender]
              rfl

end Runs

/--
A child that reads a clear branch point, while requests go on to mint their ids in order,
has in its contexts only messages that its parent had in every earlier store `m` from
then on, so also when its batch was written.
-/
theorem branch_frozen {d : Deployment} {cache : Option CacheService} {p upto : UUID}
    {reads : ConversationReadings} {userId : UUID} {title : Text} {s0 s : Store}
    {before after : List ServiceTask}
    {next : Option (Op.selectHistory p 1 none).Res -> Py Unit}
    (hreach : Pool.Reaches (branching d cache (branchCall reads userId title p))
      (startingFrom s0)
      ⟨s, before ++
        ⟨branchCall reads userId title p, .op (.selectHistory p 1 none) next⟩ :: after⟩)
    (hnew : s.conversations reads.conversationId = none)
    (hclear : ClearBranchPoint d cache p upto s (before ++ after)) {m e : ServicePool}
    (hm : Pool.Reaches (inOrder d cache p)
      ⟨s, before ++ ⟨branchCall reads userId title p,
        next (some ((Op.selectHistory p 1 none).exec s).1)⟩ :: after⟩ m)
    (he : Pool.Reaches (inOrder d cache p) m e) {row : ConversationRow}
    {conv : Conversation} (hrow : e.store.conversations reads.conversationId = some row)
    (hconv : ConversationRepository.conversationOfRow? reads.conversationId row =
      some conv) :
    Freezes cache p m.store conv e.store := by
  have hway := Pool.keeps_reaches onTheWay_proof hreach
    ⟨trivial, fun t ht => (List.not_mem_nil ht).elim⟩
  have hcreate := hway.tasks
    ⟨branchCall reads userId title p, .op (.selectHistory p 1 none) next⟩ (by simp)
  have hprog := next_of_onlyAt (hcreate.right rfl) (fun h : False => h)
  rcases frozen_start hnew hclear hprog with ⟨hfrozen, hnext⟩
  have hstart : Pool.Keeps (Frozen p reads.conversationId upto (s.HasMessage p))
      (Respectful d cache p reads.conversationId upto (s.HasMessage p))
      ⟨s, before ++ ⟨branchCall reads userId title p,
        next (some ((Op.selectHistory p 1 none).exec s).1)⟩ :: after⟩ := by
    refine ⟨hfrozen, ?_⟩
    intro t ht
    rcases Pool.mem_replace ht with rfl | hother
    · exact Or.inr hnext
    · have hcall := hclear.requests t hother
      rcases hclear.inFlight t hother with hunbegun | hlater
      · exact Or.inl ⟨hcall, hunbegun⟩
      · right
        have hleaves := (hway.tasks t (Pool.mem_split_of_mem hother)).left hcall
        exact Prog.allOps_mono (Prog.allOps_and hlater hleaves)
          (fun o ho => ⟨ho.left, ho.right.branchesAt⟩)
  have hmid := Pool.keeps_reaches respectful_proof hm hstart
  have hend := Pool.keeps_reaches respectful_proof he hmid
  exact freezes_of_frozen hend.store hmid.store.kept hrow hconv

/-!
# Two branch points

Conversation 1 has one message when conversation 9 is branched off it.
-/

def parentStore : Store :=
  (Store.blank.setConversationRow (.ofInt 1) (some
    { userId := some (.ofInt 5), title := some (text "A"), createdAt := some ⟨0, false⟩,
      updatedAt := some ⟨0, false⟩, status := some .active, parentConversationId := none,
      branchMessageId := none })).upsertMessage (.ofInt 1) (uuidv7 (.at 1)) (fun _ =>
        { sender := some .user, content := some (text "q"), createdAt := some ⟨1000, false⟩,
          status := .sent, fileIds := [], citations := none })

def childCall : ServiceCall :=
  branchCall (.at 4 (.ofInt 9)) (.ofInt 5) (text "B") (.ofInt 1)

/-- The child as its row has it when the branch point was `upto`. -/
def childOf (upto : UUID) : Conversation :=
  { conversationId := .ofInt 9
    userId := some (.ofInt 5)
    title := some (text "B")
    createdAt := some ⟨4000, false⟩
    updatedAt := some ⟨4000, false⟩
    status := .active
    parentConversationId := some (.ofInt 1)
    branchMessageId := some upto }

def lateCall (timestampMs : BitVec 48) : ServiceCall :=
  .message (.send (.at (timestampMs + 1))
    (.plain (.ofInt 1) (uuidv7 (.at timestampMs)) (text "late")))

def branchingRules : Rules ServiceCall storage PyExc Unit Store :=
  branching .single (some ⟨true⟩) childCall

theorem allowsAll_branching (c : ServicePool) (acts : List (Pool.Act ServiceCall))
    (h : forall act, act ∈ acts -> (exists i, act = .perform i) ∨
      exists call, act = .start call ∧ (call.IsRequest ∨ call = childCall)) :
    Pool.AllowsAll branchingRules c acts := by
  apply Pool.allowsAll_of_forall
  intro act hact c'
  rcases h act hact with ⟨i, rfl⟩ | ⟨call, rfl, hcall⟩
  · exact fun _ _ => trivial
  · exact hcall

/-- The message is sent up to its placeholder, and the child is created meanwhile. -/
def leakingActs : List (Pool.Act ServiceCall) :=
  .start (lateCall 2) :: List.replicate 12 (.perform 0) ++
    .start childCall :: List.replicate 8 (.perform 1)

def leakingPool : ServicePool :=
  leakingActs.foldl (Pool.play branchingRules) (startingFrom parentStore)

/-- Then the prompt of the placeholder is inserted. -/
def leakedPool : ServicePool :=
  [.perform 0, .perform 0].foldl (Pool.play branchingRules) leakingPool

/-- A branch that is taken at a placeholder sees the prompt that comes after it. -/
theorem branch_leaks :
    ¬forall (d : Deployment) (cache : Option CacheService)
      (reads : ConversationReadings) (userId : UUID) (title : Text) (p : UUID)
      (s0 : Store) (m e : ServicePool) (row : ConversationRow) (conv : Conversation),
      (exists id, s0.HasMessage p id) ->
      Pool.Reaches (branching d cache (branchCall reads userId title p)) (startingFrom s0) m ->
      m.store.conversations reads.conversationId = some row ->
      ConversationRepository.conversationOfRow? reads.conversationId row = some conv ->
      Pool.Reaches (branching d cache (branchCall reads userId title p)) m e ->
      Freezes cache p m.store conv e.store := by
  intro h
  have hm : Pool.Reaches branchingRules (startingFrom parentStore) leakingPool := by
    apply Pool.reaches_schedule
    apply allowsAll_branching
    simp [leakingActs, lateCall, ServiceCall.IsRequest]
  have he : Pool.Reaches branchingRules leakingPool leakedPool := by
    apply Pool.reaches_schedule
    apply allowsAll_branching
    simp
  have hrow : (leakingPool.store.conversations (.ofInt 9)).isSome = true := by
    decide
  rcases Option.isSome_iff_exists.mp hrow with ⟨row, hrow⟩
  have hconv : ((leakingPool.store.conversations (.ofInt 9)).bind
      (ConversationRepository.conversationOfRow? (.ofInt 9))) =
        some (childOf (uuidv7 (.at 3))) := by
    decide
  rw [hrow] at hconv
  have hfreezes := h .single (some ⟨true⟩) (.at 4 (.ofInt 9)) (.ofInt 5) (text "B")
    (.ofInt 1) parentStore leakingPool leakedPool row _
    ⟨uuidv7 (.at 1), _, Store.row_upsertMessage_self _ _ _ _, rfl⟩ hm hrow hconv he
  have hanswer : (answerOf (BranchContextService.eventContext (some ⟨true⟩)
      (childOf (uuidv7 (.at 3)))) leakedPool.store).toOption.map
        (fun context => context.1.map (fun entry => (entry.conversationId, entry.messageId))) =
      some [(.ofInt 1, uuidv7 (.at 1)), (.ofInt 1, uuidv7 (.at 2))] := by
    decide
  have hmissing : (leakingPool.store.row (.ofInt 1) (uuidv7 (.at 2))).isNone = true := by
    decide
  cases hcontext : answerOf (BranchContextService.eventContext (some ⟨true⟩)
      (childOf (uuidv7 (.at 3)))) leakedPool.store with
  | error e =>
      rw [hcontext] at hanswer
      cases hanswer
  | ok context =>
      rw [hcontext] at hanswer
      have hmem : (UUID.ofInt 1, uuidv7 (.at 2)) ∈
          context.1.map (fun entry => (entry.conversationId, entry.messageId)) := by
        have hids := Option.some.inj hanswer
        dsimp only at hids
        rw [hids]
        simp
      rcases List.mem_map.mp hmem with ⟨entry, hentry, hpair⟩
      rcases Prod.mk.inj hpair with ⟨hparent, hid⟩
      rcases hfreezes.inherited context.1 context.2 hcontext entry hentry hparent with
        ⟨stored, hstored, _⟩
      rw [hid] at hstored
      rw [hstored] at hmissing
      cases hmissing

/-- The child reads its branch point. -/
def readingActs : List (Pool.Act ServiceCall) :=
  .start childCall :: List.replicate 4 (.perform 0)

def readingPool : ServicePool :=
  readingActs.foldl (Pool.play branchingRules) (startingFrom parentStore)

def orderedRules : Rules ServiceCall storage PyExc Unit Store :=
  inOrder .single (some ⟨true⟩) (.ofInt 1)

def unannouncedReply : ServiceCall :=
  .message (.generated ⟨6000, true⟩ (Consumers.finalEvent (uuidv7 (.at 5)) (.ofInt 1)
    [(text "full_content", .str (text "late"))]))

def createdPool : ServicePool :=
  [.perform 0, .perform 0, .perform 0].foldl (Pool.play orderedRules)
    (Pool.play orderedRules readingPool (.perform 0))

def repliedPool : ServicePool :=
  [.start unannouncedReply, .perform 1, .perform 1, .perform 1].foldl (Pool.play orderedRules)
    createdPool

theorem allBelow_of_rows {s : Store} {c id : UUID}
    (h : ((s.messages c).rows.all (fun entry => entry.1 < id)) = true) :
    s.AllBelow c id := by
  intro id' row hrow
  exact of_decide_eq_true (List.all_eq_true.mp h (id', row) (mem_rows_of_row hrow))

theorem permits_unannouncedReply {c : ServicePool}
    (h : ((c.store.messages (.ofInt 1)).rows.all
      (fun entry => entry.1 < uuidv7 (.at 5))) = true) (prog : Py Unit) :
    orderedRules.permits c ⟨unannouncedReply, prog⟩ := by
  intro _ id hid
  have hsame := Consumers.names_unique hid (Consumers.names_finalEvent _ _ _)
  cases hsame
  exact Or.inr (allBelow_of_rows h)

/-- The child at the only message, and a reply that comes after it. -/
theorem branch_frozen_late_reply :
    Freezes (some ⟨true⟩) (.ofInt 1) createdPool.store (childOf (uuidv7 (.at 1)))
      repliedPool.store := by
  have hreach : Pool.Reaches branchingRules (startingFrom parentStore) readingPool := by
    apply Pool.reaches_schedule
    apply allowsAll_branching
    simp [readingActs]
  have hclear : ClearBranchPoint .single (some ⟨true⟩) (.ofInt 1) (uuidv7 (.at 1))
      readingPool.store ([] ++ []) := by
    refine ⟨⟨_, [], rfl, ?_⟩, fun t ht => (List.not_mem_nil ht).elim,
      fun t ht => (List.not_mem_nil ht).elim⟩
    intro h
    cases h
  have hcreated : Pool.Reaches orderedRules
      (Pool.play orderedRules readingPool (.perform 0)) createdPool := by
    apply Pool.reaches_schedule
    refine ⟨?_, ?_, ?_, trivial⟩
    · intro t ht
      cases ht
      exact fun _ _ hid => hid.elim
    · intro t ht
      cases ht
      exact fun _ _ hid => hid.elim
    · intro t ht
      cases ht
      exact fun _ _ hid => hid.elim
  have hreplied : Pool.Reaches orderedRules createdPool repliedPool := by
    apply Pool.reaches_schedule
    refine ⟨trivial, ?_, ?_, ?_, trivial⟩
    · intro t ht
      cases ht
      exact permits_unannouncedReply (by decide) _
    · intro t ht
      cases ht
      exact permits_unannouncedReply (by decide) _
    · intro t ht
      cases ht
      exact permits_unannouncedReply (by decide) _
  have hrow : (repliedPool.store.conversations (.ofInt 9)).isSome = true := by
    decide
  rcases Option.isSome_iff_exists.mp hrow with ⟨row, hrow⟩
  have hconv : ((repliedPool.store.conversations (.ofInt 9)).bind
      (ConversationRepository.conversationOfRow? (.ofInt 9))) =
        some (childOf (uuidv7 (.at 1))) := by
    decide
  rw [hrow] at hconv
  have hreading : Pool.Reaches branchingRules (startingFrom parentStore)
      ⟨readingPool.store, [] ++
        ⟨childCall, readBranchPoint (some ⟨true⟩) (.at 4 (.ofInt 9)) (.ofInt 5) (text "B")
          (.ofInt 1)⟩ :: []⟩ := hreach
  exact @branch_frozen .single (some ⟨true⟩) (.ofInt 1) (uuidv7 (.at 1)) (.at 4 (.ofInt 9))
    (.ofInt 5) (text "B") parentStore readingPool.store [] [] _ hreading rfl hclear
    createdPool repliedPool hcreated hreplied row _ hrow hconv

end ConversationService
