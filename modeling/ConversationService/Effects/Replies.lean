import ConversationService.Effects.Traffic
import ConversationService.Python.Encoding

/-!
# What a response event and a timeout pass do

The outcomes of the two kinds of calls that write under an id they were given,
for any choice of raising operations. All of them are up to caches and streams.
-/

namespace ConversationService

open Python Programs

variable {mayFail : Op -> Prop}

@[simp] theorem wp_perform (o : Op) (Q : o.Res -> Store -> Prop)
    (E : PyExc -> Store -> Prop) (s : Store) :
    Prog.wp storageMachine mayFail (perform o) Q E s <->
      Q (o.exec s).1 (o.exec s).2 ∧ (mayFail o -> E .storage s) := Iff.rfl

/-!
# The inbox key of a final event
-/

namespace Consumers

theorem deriveEventId_generated (responseId : UUID) :
    deriveEventId (generatedDedupParts responseId) =
      .ret (generatedKey responseId) := by
  have hascii : forall c,
      c ∈ join (text ":") (generatedDedupParts responseId) -> c.val < 0x80 := by
    intro c hc
    rcases mem_join hc with hsep | ⟨part, hpart, hmem⟩
    · exact ascii_of_all (s := text ":") (by decide) c hsep
    · simp only [generatedDedupParts, List.mem_cons, List.not_mem_nil, or_false]
        at hpart
      rcases hpart with rfl | rfl
      · exact ascii_of_all (s := text "chat.response.generated") (by decide) c hmem
      · exact toText_ascii responseId c hmem
  unfold deriveEventId generatedKey
  dsimp only
  rw [utf8Length_of_ascii hascii]

theorem generatedKey_injective : Function.Injective generatedKey := by
  intro r r' h
  unfold generatedKey generatedDedupParts at h
  apply UUID.toText_injective
  have hjoin := InboxKey.derived.inj h
  simp only [join, List.append_assoc] at hjoin
  exact List.append_cancel_left (List.append_cancel_left hjoin)

theorem chunkKey_ne (r r' : UUID) (sequenceNumber : Text) :
    InboxKey.derived (join (text ":")
      [text "chat.response.chunk", r.toText, sequenceNumber]) ≠ generatedKey r' := by
  intro h
  have hjoin := InboxKey.derived.inj h
  simp only [generatedDedupParts, join, List.append_assoc] at hjoin
  -- the names differ in their fifteenth character
  have hhead := congrArg (List.take 15) hjoin
  rw [List.take_append_of_le_length (by decide),
    List.take_append_of_le_length (by decide)] at hhead
  revert hhead
  decide

end Consumers

/-!
# Single writes
-/

theorem wp_repositoryHistory (c : UUID) (limit : Nat)
    {Q : List Message -> Store -> Prop} {E : PyExc -> Store -> Prop} {s : Store}
    (hQ : Q (historyPage s c limit) s) (hE : E .storage s) :
    Prog.wp storageMachine mayFail (MessageRepository.history c limit none) Q E s := by
  unfold MessageRepository.history
  rw [Prog.wp_bind, wp_perform]
  exact ⟨hQ, fun _ => hE⟩

theorem wp_getMessage (c m : UUID) {Q : Option Message -> Store -> Prop}
    {E : PyExc -> Store -> Prop} {s : Store}
    (hQ : Q ((s.row c m).map (MessageRepository.messageOfRow c m)) s)
    (hE : (exists o, mayFail o) -> E .storage s) :
    Prog.wp storageMachine mayFail (MessageRepository.getMessage c m) Q E s := by
  unfold MessageRepository.getMessage
  rw [Prog.wp_bind, wp_perform]
  exact ⟨hQ, fun hfail => hE ⟨_, hfail⟩⟩

/-- The text that a bound value has, if the driver accepts it. -/
def boundText (content : Json) : Option Text :=
  match content with
  | .str s => (utf8Length s).map (fun _ => s)
  | _ => none

theorem cqlText_eq (content : Json) :
    (exists t, boundText content = some t ∧ cqlText content = .ret t) ∨
      (boundText content = none ∧ exists e, cqlText content = .raise e) := by
  unfold boundText cqlText
  cases content with
  | str s =>
      cases h : utf8Length s with
      | some n => exact Or.inl ⟨s, by simp [h], by simp [h]⟩
      | none => exact Or.inr ⟨by simp [h], .unicodeError, by simp [h]⟩
  | _ => exact Or.inr ⟨rfl, .attributeError, rfl⟩

/-- The column that the cleaned citations of a write have, unless cleaning raises. -/
def citationsColumn (citations : Json) : Option (Option Json) :=
  (if citations.truthy then Citations.sanitizeCitations citations else some []).map
    (fun clean => if clean.isEmpty then none else some (Citations.toJson clean))

def IsWritten (column : Option Json) : Prop :=
  exists citations, citationsColumn citations = some column

theorem cleanCitations_eq (citations : Json) :
    (exists clean, MessageRepository.cleanCitations citations = .ret clean ∧
      citationsColumn citations =
        some (if clean.isEmpty then none else some (Citations.toJson clean))) ∨
    (citationsColumn citations = none ∧
      exists e, MessageRepository.cleanCitations citations = .raise e) := by
  unfold MessageRepository.cleanCitations citationsColumn
  by_cases htruthy : citations.truthy
  · cases h : Citations.sanitizeCitations citations with
    | some clean => exact Or.inl ⟨clean, by simp [htruthy], by simp [htruthy]⟩
    | none => exact Or.inr ⟨by simp [htruthy], .unicodeError, by simp [htruthy]⟩
  · exact Or.inl ⟨[], by simp [htruthy], by simp [htruthy]⟩

theorem wp_createMessageDirect (now : Datetime) (c m : UUID) (sender : Sender)
    (content : Json) (status : MessageStatus) (citations : Json)
    {Q : Message -> Store -> Prop} {E : PyExc -> Store -> Prop} {s : Store}
    (hQ : forall t column msg, boundText content = some t ->
      citationsColumn citations = some column ->
      Q msg (s.upsertMessage c m (Row.inserted sender t now status column)))
    (hE : forall e,
      (boundText content = none ∨ citationsColumn citations = none ∨
        exists o, mayFail o) -> E e s) :
    Prog.wp storageMachine mayFail
      (MessageRepository.createMessageDirect now c m sender content status citations)
      Q E s := by
  unfold MessageRepository.createMessageDirect
  rw [Prog.wp_bind]
  rcases cleanCitations_eq citations with
    ⟨clean, hclean, hcolumn⟩ | ⟨hcolumn, e, hclean⟩
  · rw [hclean, Prog.wp_ret, Prog.wp_bind]
    rcases cqlText_eq content with ⟨t, htext, hret⟩ | ⟨htext, e, hraise⟩
    · rw [hret, Prog.wp_ret, Prog.wp_bind, wp_perform]
      exact ⟨hQ t _ _ htext hcolumn, fun hfail => hE _ (Or.inr (Or.inr ⟨_, hfail⟩))⟩
    · rw [hraise, Prog.wp_raise]
      exact hE e (Or.inl htext)
  · rw [hclean, Prog.wp_raise]
    exact hE e (Or.inr (Or.inl hcolumn))

/-!
# Clearing a marker
-/

/-- The states that `clear_pending_response` may leave. -/
inductive Cleared (mayFail : Op -> Prop) (redis : Bool) (r : UUID) (s : Store) :
    Store -> Prop where
  | untouched : (redis = true -> mayFail (.deletePending r)) ->
      Cleared mayFail redis r s s
  | unmarked : redis = true -> mayFail (.zremPending r) ->
      Cleared mayFail redis r s (s.setMarker r none)
  | cleared : redis = true ->
      Cleared mayFail redis r s ((s.setMarker r none).removePending r)

theorem wp_clearPendingResponse (svc : MessageService) (r : UUID)
    {Q : Unit -> Store -> Prop} {E : PyExc -> Store -> Prop} {s : Store}
    (hQ : forall t, Cleared mayFail svc.redis r s t -> Q () t) :
    Prog.wp storageMachine mayFail (svc.clearPendingResponse r) Q E s := by
  unfold MessageService.clearPendingResponse
  rw [Prog.wp_tryCatch]
  cases hredis : svc.redis with
  | true =>
      rw [hredis] at hQ
      simp only [if_true]
      rw [Prog.wp_bind, wp_perform, wp_perform]
      refine ⟨⟨hQ _ (.cleared rfl), ?_⟩, ?_⟩
      · intro hfail
        exact hQ _ (.unmarked rfl hfail)
      · intro hfail
        exact hQ _ (.untouched (fun _ => hfail))
  | false =>
      rw [hredis] at hQ
      exact hQ _ (.untouched (by simp))

theorem Cleared.core {redis : Bool} {r : UUID} {s s' t' : Store}
    (h : Cleared mayFail redis r s' t') (hcore : SameCore s s') :
    exists t, Cleared mayFail redis r s t ∧ SameCore t t' := by
  cases h with
  | untouched hfail => exact ⟨s, .untouched hfail, hcore⟩
  | unmarked hredis hfail => exact ⟨_, .unmarked hredis hfail, hcore.setMarker r none⟩
  | cleared hredis =>
      exact ⟨_, .cleared hredis, (hcore.setMarker r none).removePending r⟩

theorem Cleared.row {redis : Bool} {r : UUID} {s t : Store}
    (h : Cleared mayFail redis r s t) (c m : UUID) : t.row c m = s.row c m := by
  cases h <;> rfl

theorem Cleared.inbox {redis : Bool} {r : UUID} {s t : Store}
    (h : Cleared mayFail redis r s t) : t.inbox = s.inbox := by
  cases h <;> rfl

theorem Cleared.markers_of_ne {redis : Bool} {r id : UUID} {s t : Store}
    (h : Cleared mayFail redis r s t) (hid : id ≠ r) :
    t.markers id = s.markers id := by
  cases h with
  | untouched _ => rfl
  | unmarked _ _ => exact Store.markers_setMarker_ne s r none hid
  | cleared _ => exact Store.markers_setMarker_ne s r none hid

theorem Cleared.markers_self {redis : Bool} {r : UUID} {s t : Store}
    (h : Cleared mayFail redis r s t) :
    t.markers r = s.markers r ∨ t.markers r = none := by
  cases h with
  | untouched _ => exact Or.inl rfl
  | unmarked _ _ => exact Or.inr (Store.markers_setMarker_self s r none)
  | cleared _ => exact Or.inr (Store.markers_setMarker_self s r none)

theorem Cleared.isPending_of_ne {redis : Bool} {r id : UUID} {s t : Store}
    (h : Cleared mayFail redis r s t) (hid : id ≠ r) :
    t.IsPending id <-> s.IsPending id := by
  cases h with
  | untouched _ => exact Iff.rfl
  | unmarked _ _ => exact Iff.rfl
  | cleared _ =>
      rw [Store.isPending_removePending]
      constructor
      · intro h
        exact h.right
      · intro h
        exact ⟨hid, h⟩

theorem Cleared.isPending_before {redis : Bool} {r id : UUID} {s t : Store}
    (h : Cleared mayFail redis r s t) (hpending : t.IsPending id) : s.IsPending id := by
  cases h with
  | untouched _ => exact hpending
  | unmarked _ _ => exact hpending
  | cleared _ =>
      rw [Store.isPending_removePending] at hpending
      exact hpending.right

theorem Cleared.markers_some {redis : Bool} {r id : UUID} {s t : Store} {mk : Marker}
    (h : Cleared mayFail redis r s t) (hmk : t.markers id = some mk) :
    s.markers id = some mk := by
  by_cases hid : id = r
  · subst hid
    rcases h.markers_self with hsame | hnone
    · rw [← hsame, hmk]
    · rw [hnone] at hmk
      cases hmk
  · rw [← h.markers_of_ne hid, hmk]

theorem Cleared.clock {redis : Bool} {r : UUID} {s t : Store}
    (h : Cleared mayFail redis r s t) : t.clock = s.clock := by
  cases h <;> rfl

theorem Cleared.liveMarker {redis : Bool} {r id c : UUID} {s t : Store}
    (h : Cleared mayFail redis r s t) (hlive : t.liveMarker id = some c) :
    s.liveMarker id = some c := by
  unfold Store.liveMarker at hlive
  unfold Store.liveMarker
  cases hmk : t.markers id with
  | none =>
      rw [hmk] at hlive
      cases hlive
  | some mk =>
      rw [h.markers_some hmk]
      rw [hmk, h.clock] at hlive
      exact hlive

/-!
# Final events
-/

namespace Consumers

/-- The event names a response and a conversation in a form that the handler accepts. -/
def Names (event : Event) (r c : UUID) : Prop :=
  exists value, target event = some (r, value) ∧ parseConversationId value = .ret c

theorem names_unique {event : Event} {r c r' c' : UUID} (h : Names event r c)
    (h' : Names event r' c') : (r, c) = (r', c') := by
  rcases h with ⟨value, htarget, hparse⟩
  rcases h' with ⟨value', htarget', hparse'⟩
  rw [htarget] at htarget'
  cases htarget'
  rw [hparse] at hparse'
  cases hparse'
  rfl

/-- An event as the language model service sends it, echoing both ids. -/
def finalEvent (r c : UUID) (fields : Event) : Event :=
  (text "response_message_id", .str r.toText) ::
    (text "conversation_id", .str c.toText) :: fields

theorem toText_ne_nil (u : UUID) : u.toText ≠ [] := by
  intro h
  have hlength := congrArg List.length h
  rw [UUID.toText_eq] at hlength
  simp [UUID.length_hex] at hlength

theorem names_finalEvent (r c : UUID) (fields : Event) :
    Names (finalEvent r c fields) r c := by
  have hresponse : Json.get (finalEvent r c fields) (text "response_message_id") =
      .str r.toText := by
    simp [finalEvent, Json.get]
  have hconversation : Json.get (finalEvent r c fields) (text "conversation_id") =
      .str c.toText := by
    have hne : (text "conversation_id" == text "response_message_id") = false := by
      decide
    simp [finalEvent, Json.get, List.lookup_cons, hne]
  refine ⟨.str c.toText, ?_, ?_⟩
  · unfold target responseMessageId
    dsimp only
    rw [hresponse, hconversation]
    simp [Json.truthy, Json.pyStr, toText_ne_nil, UUID.parse_toText]
  · unfold parseConversationId
    simp [UUID.parse_toText]

/-- The citations argument of `finalize_assistant_message`. -/
def finalCitations (citations : List Citation) : Json :=
  if citations.isEmpty then .null else Citations.toJson citations

/-- The row that a final event writes, unless one of its values cannot be bound. -/
def replyRow (now : Datetime) (event : Event) : Option (Option Row -> Row) :=
  if isSuccess event then
    (Citations.sanitizeCitations (Json.get event (text "citations"))).bind
      (fun citations =>
        (citationsColumn (finalCitations citations)).bind (fun column =>
          (boundText (fullContent event)).map (fun t =>
            Row.inserted .assistant t now .sent column)))
  else
    (boundText (errorMessage event)).map (fun t =>
      Row.inserted .assistant t now .failed none)

/-- Every row under the id is an assistant's. -/
def Writable (s : Store) (c r : UUID) : Prop :=
  forall row, s.row c r = some row -> row.sender = some .assistant

/-- A row that `fail_assistant_message` leaves as it is. -/
def HasCompleted (s : Store) (c r : UUID) : Prop :=
  exists row, s.row c r = some row ∧ row.sender = some .assistant ∧
    row.status = .sent ∧ exists t, row.content = some t ∧ t ≠ []

/-- The handler gets as far as answering the event. -/
structure Answers (now : Datetime) (event : Event) (s : Store) (r c : UUID) :
    Prop where
  names : Names event r c
  new : s.inbox (generatedKey r) = false
  writable : Writable s c r
  bindable : isSuccess event = true ∨ ¬HasCompleted s c r ->
    (replyRow now event).isSome = true

inductive Recorded (mayFail : Op -> Prop) (key : InboxKey) (s : Store) :
    Store -> Prop where
  | saved : Recorded mayFail key s (s.saveInbox key)
  | lost : mayFail (.insertInbox key) -> Recorded mayFail key s s

theorem Recorded.core {key : InboxKey} {s s' t' : Store}
    (h : Recorded mayFail key s' t') (hcore : SameCore s s') :
    exists t, Recorded mayFail key s t ∧ SameCore t t' := by
  cases h with
  | saved => exact ⟨_, .saved, hcore.saveInbox key⟩
  | lost hfail => exact ⟨s, .lost hfail, hcore⟩

theorem Recorded.row {key : InboxKey} {s t : Store}
    (h : Recorded mayFail key s t) (c m : UUID) : t.row c m = s.row c m := by
  cases h <;> rfl

theorem Recorded.markers {key : InboxKey} {s t : Store}
    (h : Recorded mayFail key s t) : t.markers = s.markers := by
  cases h <;> rfl

theorem Recorded.isPending {key : InboxKey} {s t : Store}
    (h : Recorded mayFail key s t) (id : UUID) :
    t.IsPending id <-> s.IsPending id := by
  cases h <;> exact Iff.rfl

/-- What the handler of a final event does to the core of the store. -/
inductive ReplyEffect (mayFail : Op -> Prop) (redis : Bool) (now : Datetime)
    (event : Event) (s : Store) : Store -> Prop where
  | skipped :
      ((exists r c, Answers now event s r c) -> exists o, mayFail o) ->
      ReplyEffect mayFail redis now event s s
  | kept {r c : UUID} {u t : Store} :
      Answers now event s r c -> isSuccess event = false -> HasCompleted s c r ->
      Cleared mayFail redis r s u -> Recorded mayFail (generatedKey r) u t ->
      ReplyEffect mayFail redis now event s t
  | written {r c : UUID} {write : Option Row -> Row} {u t : Store} :
      Answers now event s r c ->
      (isSuccess event = true ∨ ¬HasCompleted s c r) ->
      replyRow now event = some write ->
      Cleared mayFail redis r (s.upsertMessage c r write) u ->
      Recorded mayFail (generatedKey r) u t ->
      ReplyEffect mayFail redis now event s t

end Consumers

section ReplySpecs

variable {E : PyExc -> Store -> Prop} {s : Store}

theorem wp_isWritableAssistantRow (c r : UUID) {Q : Bool -> Store -> Prop}
    (hyes : Consumers.Writable s c r -> Q true s)
    (hno : ¬Consumers.Writable s c r -> Q false s)
    (hE : (exists o, mayFail o) -> E .storage s) :
    Prog.wp storageMachine mayFail (MessageService.isWritableAssistantRow c r)
      Q E s := by
  unfold MessageService.isWritableAssistantRow
  rw [Prog.wp_bind]
  apply wp_getMessage
  · cases hrow : s.row c r with
    | none =>
        apply hyes
        intro row h
        rw [hrow] at h
        cases h
    | some row =>
        cases hsender : (row.sender == some Sender.assistant) with
        | true =>
            have hwritable : Consumers.Writable s c r := by
              intro row' h
              rw [hrow] at h
              cases h
              simpa using hsender
            simpa [MessageRepository.messageOfRow, MessageRepository.rowMessage,
              hsender] using hyes hwritable
        | false =>
            have hrefused : ¬Consumers.Writable s c r := by
              intro h
              have := h row hrow
              simp [this] at hsender
            simpa [MessageRepository.messageOfRow, MessageRepository.rowMessage,
              hsender] using hno hrefused
  · exact hE

theorem wp_finalizeAssistantMessage (svc : MessageService) (now : Datetime)
    (c r : UUID) (content citations : Json) {Q : Option Message -> Store -> Prop}
    (hwrite : forall msg t column u, Consumers.Writable s c r ->
      boundText content = some t -> citationsColumn citations = some column ->
      SameCore (s.upsertMessage c r (Row.inserted .assistant t now .sent column)) u ->
      Q (some msg) u)
    (hrefuse : ¬Consumers.Writable s c r -> Q none s)
    (hE : forall e,
      (boundText content = none ∨ citationsColumn citations = none ∨
        exists o, mayFail o) -> E e s) :
    Prog.wp storageMachine mayFail
      (svc.finalizeAssistantMessage now c r content citations) Q E s := by
  unfold MessageService.finalizeAssistantMessage
  rw [Prog.wp_bind]
  apply wp_isWritableAssistantRow
  · intro hwritable
    simp only [if_true]
    rw [Prog.wp_bind]
    apply wp_createMessageDirect
    · intro t column msg htext hcolumn
      rw [Prog.wp_bind]
      apply MessageService.wp_invalidateCache
      intro u hu
      exact hwrite msg t column u hwritable htext hcolumn hu
    · exact hE
  · intro hrefused
    exact hrefuse hrefused
  · intro hfail
    exact hE _ (Or.inr (Or.inr hfail))

theorem isCompletedReply_iff (c r : UUID) :
    (exists m, ((s.row c r).map (MessageRepository.messageOfRow c r)).filter
      MessageService.isCompletedReply = some m) <-> Consumers.HasCompleted s c r := by
  cases hrow : s.row c r with
  | none =>
      constructor
      · intro h
        simp at h
      · intro h
        rcases h with ⟨row, hsome, _⟩
        rw [hrow] at hsome
        cases hsome
  | some row =>
      have hkey : MessageService.isCompletedReply
          (MessageRepository.messageOfRow c r row) = true <->
          row.sender = some .assistant ∧ row.status = .sent ∧
            exists t, row.content = some t ∧ t ≠ [] := by
        rcases row with ⟨sender, content, createdAt, status, fileIds, citations⟩
        cases status <;> cases content <;>
          simp [MessageService.isCompletedReply, MessageRepository.messageOfRow,
            MessageRepository.rowMessage, RowStatus.message?]
      constructor
      · intro h
        rcases h with ⟨m, hm⟩
        rw [Option.map_some, Option.filter_eq_some_iff] at hm
        refine ⟨row, hrow, hkey.mp ?_⟩
        rw [Option.some.inj hm.left]
        exact hm.right
      · intro h
        rcases h with ⟨row', hrow', hcompleted⟩
        rw [hrow] at hrow'
        cases hrow'
        refine ⟨MessageRepository.messageOfRow c r row, ?_⟩
        rw [Option.map_some, Option.filter_eq_some_iff]
        exact ⟨rfl, hkey.mpr hcompleted⟩

theorem wp_failAssistantMessage (svc : MessageService) (now : Datetime)
    (c r : UUID) (content : Json) {Q : Option Message -> Store -> Prop}
    (hwrite : forall msg t u, Consumers.Writable s c r ->
      ¬Consumers.HasCompleted s c r -> boundText content = some t ->
      SameCore (s.upsertMessage c r (Row.inserted .assistant t now .failed none)) u ->
      Q (some msg) u)
    (hkeep : forall msg, Consumers.Writable s c r -> Consumers.HasCompleted s c r ->
      Q (some msg) s)
    (hrefuse : ¬Consumers.Writable s c r -> Q none s)
    (hE : forall e,
      ((¬Consumers.HasCompleted s c r ∧ boundText content = none) ∨
        exists o, mayFail o) -> E e s) :
    Prog.wp storageMachine mayFail (svc.failAssistantMessage now c r content)
      Q E s := by
  unfold MessageService.failAssistantMessage
  rw [Prog.wp_bind]
  apply wp_isWritableAssistantRow
  · intro hwritable
    simp only [if_true]
    rw [Prog.wp_bind]
    apply wp_getMessage
    · cases hfilter : ((s.row c r).map (MessageRepository.messageOfRow c r)).filter
          MessageService.isCompletedReply with
      | some m =>
          exact hkeep m hwritable ((isCompletedReply_iff c r).mp ⟨m, hfilter⟩)
      | none =>
          have hnot : ¬Consumers.HasCompleted s c r := by
            intro h
            rcases (isCompletedReply_iff c r).mpr h with ⟨m, hm⟩
            rw [hfilter] at hm
            cases hm
          dsimp only
          rw [Prog.wp_bind]
          apply wp_createMessageDirect
          · intro t column msg htext hcolumn
            have hnone : column = none := by
              simpa [citationsColumn, Json.truthy] using hcolumn.symm
            subst hnone
            rw [Prog.wp_bind]
            apply MessageService.wp_invalidateCache
            intro u hu
            exact hwrite msg t u hwritable hnot htext hu
          · intro e h
            rcases h with htext | hcolumn | hfail
            · exact hE e (Or.inl ⟨hnot, htext⟩)
            · simp [citationsColumn, Json.truthy] at hcolumn
            · exact hE e (Or.inr hfail)
    · intro hfail
      exact hE _ (Or.inr hfail)
  · intro hrefused
    exact hrefuse hrefused
  · intro hfail
    exact hE _ (Or.inr hfail)

end ReplySpecs

namespace Consumers

theorem wp_finishReply (svc : MessageService) (stream : StreamService) (r c : UUID)
    (payload : List (Text × Json)) {P : Store -> Prop} {s : Store}
    (hP : forall u v t, Cleared mayFail svc.redis r s u ->
      Recorded mayFail (generatedKey r) u v -> SameCore v t -> P t) :
    Prog.wp storageMachine mayFail
      (svc.clearPendingResponse r >>= fun _ =>
        stream.publishToken c payload >>= fun _ => (Prog.ret true : Py Bool))
      (fun written t =>
        Prog.wp storageMachine mayFail (recordHandled written (generatedKey r))
          (fun _ u => P u) (fun _ u => P u) t)
      (fun _ t => P t) s := by
  rw [Prog.wp_bind]
  apply wp_clearPendingResponse
  intro u hu
  rw [Prog.wp_bind]
  apply wp_publishToken
  intro v hv
  unfold recordHandled
  simp only [Prog.wp_ret, if_true]
  rw [wp_perform]
  constructor
  · exact hP u (u.saveInbox (generatedKey r)) _ hu .saved (hv.saveInbox _)
  · intro hfail
    exact hP u u _ hu (.lost hfail) hv

theorem wp_handleError (svc : MessageService) (stream : StreamService)
    (now : Datetime) (event : Event) {r c : UUID} (value : Json)
    {P : Store -> Prop} {s : Store} (hevent : isSuccess event = false)
    (hnames : Names event r c) (hnew : s.inbox (generatedKey r) = false)
    (hP : forall t u, ReplyEffect mayFail svc.redis now event s t ->
      SameCore t u -> P u) :
    Prog.wp storageMachine mayFail
      (handleError svc stream now event r c value)
      (fun written t =>
        Prog.wp storageMachine mayFail (recordHandled written (generatedKey r))
          (fun _ u => P u) (fun _ u => P u) t)
      (fun _ t => P t) s := by
  unfold handleError
  rw [Prog.wp_bind]
  have hrow : forall t, boundText (errorMessage event) = some t ->
      replyRow now event = some (Row.inserted .assistant t now .failed none) := by
    intro t htext
    simp [replyRow, hevent, htext]
  apply wp_failAssistantMessage
  · intro msg t u hwritable hnot htext hu
    have hanswers : Answers now event s r c :=
      ⟨hnames, hnew, hwritable, fun _ => by rw [hrow t htext]; rfl⟩
    apply wp_finishReply
    intro v w x hcleared hrecorded hx
    rcases hcleared.core hu with ⟨v', hv', hcorev⟩
    rcases hrecorded.core hcorev with ⟨w', hw', hcorew⟩
    exact hP w' x (.written hanswers (Or.inr hnot) (hrow t htext) hv' hw')
      (hcorew.trans hx)
  · intro msg hwritable hcompleted
    have hanswers : Answers now event s r c := by
      refine ⟨hnames, hnew, hwritable, ?_⟩
      intro h
      rcases h with hsuccess | hnot
      · rw [hevent] at hsuccess
        cases hsuccess
      · exact absurd hcompleted hnot
    apply wp_finishReply
    intro v w x hcleared hrecorded hx
    exact hP w x (.kept hanswers hevent hcompleted hcleared hrecorded) hx
  · intro hrefused
    refine hP s s (.skipped ?_) (SameCore.refl s)
    intro h
    rcases h with ⟨r', c', hanswers⟩
    cases names_unique hnames hanswers.names
    exact absurd hanswers.writable hrefused
  · intro e h
    refine hP s s (.skipped ?_) (SameCore.refl s)
    intro hanswered
    rcases h with ⟨hnot, htext⟩ | hfail
    · rcases hanswered with ⟨r', c', hanswers⟩
      cases names_unique hnames hanswers.names
      have hsome := hanswers.bindable (Or.inr hnot)
      simp [replyRow, hevent, htext] at hsome
    · exact hfail

theorem wp_handleSuccess (svc : MessageService) (stream : StreamService)
    (now : Datetime) (event : Event) {r c : UUID} (value : Json)
    {P : Store -> Prop} {s : Store} (hevent : isSuccess event = true)
    (hnames : Names event r c) (hnew : s.inbox (generatedKey r) = false)
    (hP : forall t u, ReplyEffect mayFail svc.redis now event s t ->
      SameCore t u -> P u) :
    Prog.wp storageMachine mayFail
      (handleSuccess svc stream now event r c value)
      (fun written t =>
        Prog.wp storageMachine mayFail (recordHandled written (generatedKey r))
          (fun _ u => P u) (fun _ u => P u) t)
      (fun _ t => P t) s := by
  -- an event whose values cannot be bound has no effect
  have hunbound : replyRow now event = none ->
      ((exists r c, Answers now event s r c) -> exists o, mayFail o) := by
    intro hrow h
    rcases h with ⟨r', c', hanswers⟩
    have hsome := hanswers.bindable (Or.inl hevent)
    rw [hrow] at hsome
    cases hsome
  unfold handleSuccess
  cases hclean : Citations.sanitizeCitations (Json.get event (text "citations")) with
  | none =>
      have hrow : replyRow now event = none := by
        simp [replyRow, hevent, hclean]
      exact hP s s (.skipped (hunbound hrow)) (SameCore.refl s)
  | some citations =>
      dsimp only
      rw [Prog.wp_bind]
      apply wp_finalizeAssistantMessage
      · intro msg t column u hwritable htext hcolumn hu
        have hrow : replyRow now event =
            some (Row.inserted .assistant t now .sent column) := by
          simp only [replyRow, hevent, hclean, if_true, Option.bind_some]
          unfold finalCitations
          rw [hcolumn]
          simp [htext]
        have hanswers : Answers now event s r c :=
          ⟨hnames, hnew, hwritable, fun _ => by rw [hrow]; rfl⟩
        apply wp_finishReply
        intro v w x hcleared hrecorded hx
        rcases hcleared.core hu with ⟨v', hv', hcorev⟩
        rcases hrecorded.core hcorev with ⟨w', hw', hcorew⟩
        exact hP w' x (.written hanswers (Or.inl hevent) hrow hv' hw')
          (hcorew.trans hx)
      · intro hrefused
        refine hP s s (.skipped ?_) (SameCore.refl s)
        intro h
        rcases h with ⟨r', c', hanswers⟩
        cases names_unique hnames hanswers.names
        exact absurd hanswers.writable hrefused
      · intro e h
        refine hP s s (.skipped ?_) (SameCore.refl s)
        intro hanswered
        rcases h with htext | hcolumn | hfail
        · apply hunbound _ hanswered
          simp [replyRow, hevent, hclean, htext]
        · apply hunbound _ hanswered
          simp only [replyRow, hevent, hclean, if_true, Option.bind_some]
          unfold finalCitations
          rw [hcolumn]
          rfl
        · exact hfail

/-- Every execution of the handler of a final event has one of the effects. -/
theorem wp_handleChatResponseGenerated (svc : MessageService)
    (stream : StreamService) (now : Datetime) (event : Event) {P : Store -> Prop}
    {s : Store}
    (hP : forall t u, ReplyEffect mayFail svc.redis now event s t ->
      SameCore t u -> P u) :
    Prog.wp storageMachine mayFail
      (handleChatResponseGenerated svc stream now event)
      (fun _ u => P u) (fun _ u => P u) s := by
  have hskip : ((exists r c, Answers now event s r c) -> exists o, mayFail o) ->
      P s := by
    intro h
    exact hP s s (.skipped h) (SameCore.refl s)
  unfold handleChatResponseGenerated
  cases htarget : target event with
  | none =>
      apply hskip
      intro h
      rcases h with ⟨r, c, hanswers⟩
      rcases hanswers.names with ⟨value, hsome, _⟩
      rw [htarget] at hsome
      cases hsome
  | some pair =>
      rcases pair with ⟨r, value⟩
      dsimp only
      rw [deriveEventId_generated, Prog.ret_bind, Prog.wp_bind, wp_perform]
      constructor
      · cases hinbox : s.inbox (generatedKey r) with
        | true =>
            change Prog.wp storageMachine mayFail
              (if s.inbox (generatedKey r) = true then pure () else _) _ _ s
            rw [if_pos hinbox]
            apply hskip
            intro h
            rcases h with ⟨r', c, hanswers⟩
            rcases hanswers.names with ⟨value', hsome, _⟩
            rw [htarget] at hsome
            cases hsome
            rw [hanswers.new] at hinbox
            cases hinbox
        | false =>
            change Prog.wp storageMachine mayFail
              (if s.inbox (generatedKey r) = true then pure () else _) _ _ s
            rw [if_neg (by rw [hinbox]; exact Bool.false_ne_true), Prog.wp_bind]
            cases hparse : parseConversationId value with
            | raise e =>
                apply hskip
                intro h
                rcases h with ⟨r', c, hanswers⟩
                rcases hanswers.names with ⟨value', hsome, hret⟩
                rw [htarget] at hsome
                cases hsome
                rw [hparse] at hret
                cases hret
            | op o next =>
                unfold parseConversationId at hparse
                split at hparse
                · split at hparse <;> cases hparse
                · cases hparse
            | ret c =>
                have hnames : Names event r c := ⟨value, htarget, hparse⟩
                rw [Prog.wp_ret, Prog.wp_bind]
                unfold handleOutcome
                cases hevent : isSuccess event with
                | true =>
                    rw [if_pos rfl]
                    exact wp_handleSuccess svc stream now event value hevent hnames
                      hinbox hP
                | false =>
                    rw [if_neg Bool.false_ne_true]
                    exact wp_handleError svc stream now event value hevent hnames
                      hinbox hP
      · intro hfail
        apply hskip
        intro _
        exact ⟨_, hfail⟩

end Consumers

end ConversationService
