import ConversationService.Effects.Calls
import ConversationService.Effects.Operations
import ConversationService.Model.MessageCalls
import ConversationService.Python.UuidOrder

/-!
# Creation order

The rows of a conversation are sorted by their ids, newest first. Messages and replies have
ids of version 7, which grow with the clock; a summary has one of version 4, and the table
sorts it below every message that was there before it. While each summary is attached
above all rows, the history is in the order in which the rows were created.
-/

namespace ConversationService

open Python Programs

/-!
# Runs of a conversation
-/

/--
A conversation between two calls: `created` are the ids of its rows in the order in
which they were created, newest first, and `clock` is the last millisecond read.
-/
structure Timeline where
  store : Store
  created : List UUID
  clock : Nat

/-- The ids under which a call may insert rows, newest first: a reply after its prompt. -/
def MessageCall.ids (svc : MessageService) (s : Store) : MessageCall -> List UUID
  | .send reads args =>
      (MessageService.responseIdFor reads args).toList ++ [args.messageId]
  | .regenerate reads c m _ =>
      match MessageService.locate m (historyPage s c svc.settings.cacheHistoryLimit) with
      | some (target, below) =>
          [MessageService.regenerateResponseId reads target below.head?]
      | none => []
  | .finalizeAssistantMessage _ _ m _ _ => [m]
  | .failAssistantMessage _ _ m _ => [m]
  | .attachSummary _ _ m _ => [m]
  | .delete _ _ => []
  | .history _ _ _ => []

/--
What a call reads from the generators: every millisecond is later than the calls before
it, the id of a message is a `uuidv7()` and that of a summary a `uuid.uuid4()`.
-/
def MessageCall.Reads (clock clock' : Nat) : MessageCall -> Prop
  | .send reads args =>
      (exists minted, args.messageId = uuidv7 minted ∧
        clock < minted.timestampMs.toNat ∧ minted.timestampMs.toNat ≤ clock') ∧
      forall i, i < 64 -> (reads.response i).timestampMs.toNat ≤ clock'
  | .regenerate reads _ _ _ =>
      forall i, i < 64 -> clock < (reads.response i).timestampMs.toNat ∧
        (reads.response i).timestampMs.toNat ≤ clock'
  | .attachSummary _ _ m _ => m.version = 4
  | .finalizeAssistantMessage _ _ _ _ _ => True
  | .failAssistantMessage _ _ _ _ => True
  | .delete _ _ => False
  | .history _ _ _ => False

/-- The ids among `ids` that have a row only afterwards. -/
def newIds (s t : Store) (c : UUID) (ids : List UUID) : List UUID :=
  ids.filter (fun m => (s.row c m).isNone && (t.row c m).isSome)

/-- One call on the conversation, or time that passes. -/
inductive CreationStep (mayFail : Op -> Prop) (c : UUID)
    (permits : MessageService -> Store -> MessageCall -> Prop) :
    Timeline -> Timeline -> Prop where
  | call (svc : MessageService) (call : MessageCall) {s t : Store} {created : List UUID}
      {clock clock' : Nat} (r : Except PyExc Unit) :
      call.conversationId = c -> clock ≤ clock' -> call.Reads clock clock' ->
      permits svc s call ->
      Prog.Finishes storageMachine mayFail (call.program svc) s r t ->
      CreationStep mayFail c permits ⟨s, created, clock⟩
        ⟨t, newIds s t c (call.ids svc s) ++ created, clock'⟩
  | elapse {s t : Store} {created : List UUID} {clock : Nat} : Elapsed s t ->
      CreationStep mayFail c permits ⟨s, created, clock⟩ ⟨t, created, clock⟩

def CreationRun (mayFail : Op -> Prop) (c : UUID)
    (permits : MessageService -> Store -> MessageCall -> Prop) :
    Timeline -> Timeline -> Prop :=
  Relation.ReflTransGen (CreationStep mayFail c permits)

/--
A summary gets an id above all rows, a regeneration starts at an id of version 7 or finds a
candidate above it, and a final event is about a row.
-/
def KeepsCreationOrder (svc : MessageService) (s : Store) : MessageCall -> Prop
  | .attachSummary _ c m _ => forall m' row, s.row c m' = some row -> m' < m
  | .regenerate reads c m _ =>
      forall target below,
        MessageService.locate m (historyPage s c svc.settings.cacheHistoryLimit) =
          some (target, below) ->
        (below.head?.getD target).messageId.version = 7 ∨
          exists i, i < 64 ∧ (below.head?.getD target).messageId.int <
            (uuidv7 (reads.response i)).int
  | .finalizeAssistantMessage _ c m _ _ => (s.row c m).isSome = true
  | .failAssistantMessage _ c m _ => (s.row c m).isSome = true
  | _ => True

/-!
# The rows that a call adds
-/

/-- No row goes, and the new ones have ids among `ids`. -/
structure GrowsBy (c : UUID) (ids : List UUID) (s t : Store) : Prop where
  kept : forall m, (s.row c m).isSome = true -> (t.row c m).isSome = true
  added : forall m, (t.row c m).isSome = true -> (s.row c m).isSome = true ∨ m ∈ ids

section Growth

variable {c : UUID} {ids : List UUID} {s t u : Store}

theorem GrowsBy.refl (s : Store) : GrowsBy c ids s s :=
  ⟨fun _ h => h, fun _ h => Or.inl h⟩

theorem GrowsBy.sameRows (h : GrowsBy c ids s t) (hrow : forall m, u.row c m = t.row c m) :
    GrowsBy c ids s u := by
  constructor
  · intro m hm
    rw [hrow]
    exact h.kept m hm
  · intro m hm
    rw [hrow] at hm
    exact h.added m hm

theorem GrowsBy.upsert (h : GrowsBy c ids s t) {m : UUID} (f : Option Row -> Row)
    (hm : (s.row c m).isSome = true ∨ m ∈ ids) :
    GrowsBy c ids s (t.upsertMessage c m f) := by
  constructor
  · intro m' hm'
    rw [Store.row_upsertMessage]
    split
    · rfl
    · exact h.kept m' hm'
  · intro m' hm'
    rw [Store.row_upsertMessage] at hm'
    split at hm'
    · rename_i hsame
      rw [hsame.right]
      exact hm
    · exact h.added m' hm'

/-- The operation keeps what the call has added within its ids. -/
def Op.Grows (c : UUID) (ids : List UUID) (s : Store) (o : Op) : Prop :=
  forall t, GrowsBy c ids s t -> GrowsBy c ids s (o.exec t).2

theorem grows_traffic {o : Op} (ho : o.IsTraffic) : o.Grows c ids s :=
  fun t h => h.sameRows (fun m => (sameCore_exec ho t).row c m)

theorem grows_insertMessage {m : UUID} {sender : Sender} {content : Text} {now : Datetime}
    {status : MessageStatus} {citations : Option Json}
    (hm : (s.row c m).isSome = true ∨ m ∈ ids) :
    (Op.insertMessage c m sender content now status citations).Grows c ids s :=
  fun _ h => h.upsert _ hm

theorem grows_batchMessageOutbox {m : UUID} {sender : Sender} {content : Text}
    {now : Datetime} {status : MessageStatus} {files : List UUID} {bucket : Nat}
    {eventId : UUID} {event : OutboxRow} (hm : (s.row c m).isSome = true ∨ m ∈ ids) :
    (Op.batchMessageOutbox c m sender content now status files bucket eventId event).Grows c
      ids s :=
  fun _ h => (h.upsert _ hm).sameRows (fun _ => rfl)

theorem grows_updateDeleted {m : UUID} (hm : (s.row c m).isSome = true ∨ m ∈ ids) :
    (Op.updateDeleted c m).Grows c ids s :=
  fun _ h => h.upsert _ hm

theorem grows_onResponse {r : UUID} {o : Op} (ho : o.OnResponse c r) (hr : r ∈ ids) :
    o.Grows c ids s := by
  intro t h
  rcases exec_onResponse ho t with hcore | ⟨ttl, heq⟩ | ⟨score, heq⟩ | heq | heq | heq
  · exact h.sameRows (fun m => hcore.row c m)
  · rw [heq]
    exact h.sameRows (fun _ => rfl)
  · rw [heq]
    exact h.sameRows (fun _ => rfl)
  · rw [heq]
    exact h.sameRows (fun _ => rfl)
  · rw [heq]
    exact h.sameRows (fun _ => rfl)
  · rw [heq]
    exact h.upsert _ (Or.inr hr)

theorem wp_grows {alpha : Type} {mayFail : Op -> Prop} {p : Py alpha}
    (hp : OnlyOps (Op.Grows c ids s) p) :
    Prog.wp storageMachine mayFail p (fun _ t => GrowsBy c ids s t)
      (fun _ t => GrowsBy c ids s t) s :=
  Prog.wp_of_allOps hp (fun _ t ho ht => ho t ht) (GrowsBy.refl s)

end Growth

section Calls

variable {mayFail : Op -> Prop} (svc : MessageService) (s : Store)

theorem wp_grows_regenerate (reads : Readings) (c m : UUID) (userId : Option UUID) :
    Prog.wp storageMachine mayFail (svc.regenerate reads c m userId)
      (fun _ t => GrowsBy c (MessageCall.ids svc s (.regenerate reads c m userId)) s t)
      (fun _ t => GrowsBy c (MessageCall.ids svc s (.regenerate reads c m userId)) s t)
      s := by
  unfold MessageService.regenerate
  rw [Prog.wp_bind]
  apply wp_repositoryHistory
  · cases hlocate : MessageService.locate m
        (historyPage s c svc.settings.cacheHistoryLimit) with
    | none => exact GrowsBy.refl s
    | some found =>
        rcases found with ⟨target, below⟩
        rcases isLive_of_locate hlocate with ⟨row, hrow, _⟩
        have hids : MessageCall.ids svc s (.regenerate reads c m userId) =
            [MessageService.regenerateResponseId reads target below.head?] := by
          rw [MessageCall.ids, hlocate]
        rw [hids]
        apply wp_grows
        apply onlyOps_regenerateTarget svc reads userId target below rfl
        · intro o ho
          exact grows_traffic ho.isTraffic
        · intro content status citations
          exact grows_insertMessage (Or.inr (by simp))
        · intro o ho
          exact grows_onResponse ho (by simp)
        · intro content status files bucket event
          exact grows_batchMessageOutbox (Or.inr (by simp))
        · exact grows_updateDeleted (Or.inl (by rw [hrow]; rfl))
  · exact GrowsBy.refl s

theorem growsBy_call {call : MessageCall} {clock clock' : Nat} {t : Store}
    {r : Except PyExc Unit} (hreads : call.Reads clock clock')
    (hfin : Prog.Finishes storageMachine mayFail (call.program svc) s r t) :
    GrowsBy call.conversationId (call.ids svc s) s t := by
  have hwp : Prog.wp storageMachine mayFail (call.program svc)
      (fun _ t => GrowsBy call.conversationId (call.ids svc s) s t)
      (fun _ t => GrowsBy call.conversationId (call.ids svc s) s t) s := by
    cases call with
    | send reads args =>
        apply wp_ignoreResult
        apply wp_grows
        apply onlyOps_send svc reads
        · intro o ho
          exact grows_traffic ho.isTraffic
        · intro r content status citations hr
          exact grows_insertMessage (Or.inr (by simp [MessageCall.ids, hr]))
        · intro r o hr ho
          exact grows_onResponse ho (by simp [MessageCall.ids, hr])
        · intro content status files bucket event
          exact grows_batchMessageOutbox (Or.inr (by simp [MessageCall.ids]))
    | regenerate reads c m userId =>
        exact wp_ignoreResult (wp_grows_regenerate svc s reads c m userId)
    | finalizeAssistantMessage now c m content citations =>
        apply wp_ignoreResult
        apply wp_grows
        apply onlyOps_finalizeAssistantMessage svc
        · exact grows_traffic trivial
        · exact grows_traffic trivial
        · intro content status citations
          exact grows_insertMessage (Or.inr (by simp [MessageCall.ids]))
    | failAssistantMessage now c m errorMessage =>
        apply wp_ignoreResult
        apply wp_grows
        apply onlyOps_failAssistantMessage svc
        · exact grows_traffic trivial
        · exact grows_traffic trivial
        · intro content status citations
          exact grows_insertMessage (Or.inr (by simp [MessageCall.ids]))
    | attachSummary now c m summary =>
        apply wp_ignoreResult
        apply wp_grows
        apply onlyOps_attachSummary svc
        · exact grows_traffic trivial
        · intro content citations
          exact grows_insertMessage (Or.inr (by simp [MessageCall.ids]))
    | delete c m => exact hreads.elim
    | history c limit cursor => exact hreads.elim
  have hpost := Prog.wp_finishes hwp hfin
  cases r with
  | ok a => exact hpost
  | error e => exact hpost

end Calls

/-!
# The ids are in the order of time
-/

/-- The ids of the rows were generated by `clock`, or have a smaller version. -/
def InTime (c : UUID) (clock : Nat) (s : Store) : Prop :=
  forall m, (s.row c m).isSome = true ->
    m.version < 7 ∨ (m.version = 7 ∧ m.timestampMs ≤ clock)

section Order

variable {c : UUID} {clock clock' : Nat} {s : Store}

theorem lt_of_inTime (h : InTime c clock s) {m new : UUID} (hm : (s.row c m).isSome = true)
    (hversion : new.version = 7) (hnew : clock < new.timestampMs) : m < new := by
  rcases h m hm with hsmall | ⟨hseven, htime⟩
  · apply UUID.lt_of_version_lt
    rw [hversion]
    exact hsmall
  · apply UUID.lt_of_int_lt
    · rw [hseven, hversion]
    · rw [hseven]
      decide
    · exact UUID.int_lt_of_timestampMs (by omega)

theorem uuidv7After_later {floor : UUID} {readings : Nat -> ClockReading}
    (hs : InTime c clock s) (hfloor : (s.row c floor).isSome = true)
    (hreadings : forall i, i < 64 -> clock < (readings i).timestampMs.toNat)
    (hcandidate : floor.version = 7 ∨
      exists i, i < 64 ∧ floor.int < (uuidv7 (readings i)).int) :
    exists i, i < 64 ∧ uuidv7After floor readings = uuidv7 (readings i) := by
  rcases uuidv7After_cases floor readings with ⟨i, hi, _, heq⟩ | ⟨hnone, _⟩
  · exact ⟨i, hi, heq⟩
  · rcases hcandidate with hseven | ⟨i, hi, hlt⟩
    · have htime : floor.timestampMs ≤ clock := by
        rcases hs floor hfloor with hsmall | ⟨_, htime⟩
        · omega
        · exact htime
      have hlt : floor.int < (uuidv7 (readings 0)).int := by
        apply UUID.int_lt_of_timestampMs
        rw [uuidv7_timestampMs]
        exact Nat.lt_of_le_of_lt htime (hreadings 0 (by decide))
      exact absurd hlt (hnone 0 (by decide))
    · exact absurd hlt (hnone i hi)

/-- What holds of the ids of a call in the store in which it begins. -/
structure IdsInOrder (c : UUID) (clock' : Nat) (s : Store) (ids : List UUID) : Prop where
  sorted : ids.Pairwise (fun a b => b < a)
  above : forall new, new ∈ ids -> (s.row c new).isSome = true ∨
    forall m, (s.row c m).isSome = true -> m < new
  time : forall new, new ∈ ids -> (s.row c new).isSome = true ∨ new.version < 7 ∨
    (new.version = 7 ∧ new.timestampMs ≤ clock')

theorem idsInOrder_single {new : UUID}
    (habove : (s.row c new).isSome = true ∨ forall m, (s.row c m).isSome = true -> m < new)
    (htime : (s.row c new).isSome = true ∨ new.version < 7 ∨
      (new.version = 7 ∧ new.timestampMs ≤ clock')) :
    IdsInOrder c clock' s [new] := by
  constructor
  · exact List.pairwise_singleton _ _
  · intro new' hnew
    rw [List.mem_singleton.mp hnew]
    exact habove
  · intro new' hnew
    rw [List.mem_singleton.mp hnew]
    exact htime

theorem idsInOrder_empty : IdsInOrder c clock' s [] := by
  constructor
  · exact List.Pairwise.nil
  · intro new hnew
    cases hnew
  · intro new hnew
    cases hnew

theorem idsInOrder_response (hs : InTime c clock s) {floor : UUID}
    {readings : Nat -> ClockReading} (hfloor : (s.row c floor).isSome = true)
    (hreadings : forall i, i < 64 -> clock < (readings i).timestampMs.toNat ∧
      (readings i).timestampMs.toNat ≤ clock')
    (hcandidate : floor.version = 7 ∨
      exists i, i < 64 ∧ floor.int < (uuidv7 (readings i)).int) :
    IdsInOrder c clock' s [uuidv7After floor readings] := by
  rcases uuidv7After_later hs hfloor (fun i hi => (hreadings i hi).left) hcandidate with
    ⟨i, hi, heq⟩
  have htime := uuidv7_timestampMs (readings i)
  rw [heq]
  apply idsInOrder_single
  · right
    intro m hm
    exact lt_of_inTime hs hm (uuidv7_version _) (by rw [htime]; exact (hreadings i hi).left)
  · right
    right
    exact ⟨uuidv7_version _, by rw [htime]; exact (hreadings i hi).right⟩

/-- The reply of a message is above it, also by the fallback. -/
theorem reply_later (minted : ClockReading) (readings : Nat -> ClockReading)
    (hminted : minted.timestampMs.toNat ≤ clock')
    (hreadings : forall i, i < 64 -> (readings i).timestampMs.toNat ≤ clock') :
    uuidv7 minted < uuidv7After (uuidv7 minted) readings ∧
      (uuidv7After (uuidv7 minted) readings).version = 7 ∧
      (uuidv7After (uuidv7 minted) readings).timestampMs ≤ clock' := by
  rcases uuidv7After_cases (uuidv7 minted) readings with ⟨i, hi, hlt, heq⟩ | ⟨_, heq⟩
  · rw [heq]
    refine ⟨?_, uuidv7_version _, ?_⟩
    · apply UUID.lt_of_int_lt
      · rw [uuidv7_version, uuidv7_version]
      · rw [uuidv7_version]
        decide
      · exact hlt
    · rw [uuidv7_timestampMs]
      exact hreadings i hi
  · rcases fallback_uuidv7 minted heq with ⟨hversion, htime, hlt⟩
    exact ⟨hlt, hversion, by rw [htime]; exact hminted⟩

theorem idsInOrder_send (hs : InTime c clock s) {reads : Readings} {args : SendArgs}
    (hreads : (MessageCall.send reads args).Reads clock clock') (svc : MessageService) :
    IdsInOrder c clock' s (MessageCall.ids svc s (.send reads args)) := by
  rcases hreads with ⟨⟨minted, hid, hlate, hearly⟩, hresponse⟩
  have htime := uuidv7_timestampMs minted
  have hprompt : forall m, (s.row c m).isSome = true -> m < args.messageId := by
    intro m hm
    rw [hid]
    exact lt_of_inTime hs hm (uuidv7_version _) (by rw [htime]; exact hlate)
  have hversion : args.messageId.version = 7 ∧ args.messageId.timestampMs ≤ clock' := by
    rw [hid, htime]
    exact ⟨uuidv7_version _, hearly⟩
  have hsingle : IdsInOrder c clock' s [args.messageId] :=
    idsInOrder_single (Or.inr hprompt) (Or.inr (Or.inr hversion))
  rw [MessageCall.ids]
  cases hr : MessageService.responseIdFor reads args with
  | none => exact hsingle
  | some r =>
      have hreply : args.messageId < r ∧ r.version = 7 ∧ r.timestampMs ≤ clock' := by
        have heq : r = uuidv7After (uuidv7 minted) reads.response := by
          unfold MessageService.responseIdFor at hr
          rw [hid] at hr
          split at hr
          · exact (Option.some.inj hr).symm
          · cases hr
        rw [hid, heq]
        exact reply_later minted reads.response hearly hresponse
      rw [Option.toList_some, List.singleton_append]
      constructor
      · apply List.Pairwise.cons
        · intro m hm
          rw [List.mem_singleton.mp hm]
          exact hreply.left
        · exact hsingle.sorted
      · intro new hnew
        rcases List.mem_cons.mp hnew with rfl | hnew
        · right
          intro m hm
          exact lt_trans (hprompt m hm) hreply.left
        · exact hsingle.above new hnew
      · intro new hnew
        rcases List.mem_cons.mp hnew with rfl | hnew
        · exact Or.inr (Or.inr hreply.right)
        · exact hsingle.time new hnew

theorem idsInOrder_call {svc : MessageService} {call : MessageCall}
    (hs : InTime call.conversationId clock s) (hreads : call.Reads clock clock')
    (hkeeps : KeepsCreationOrder svc s call) :
    IdsInOrder call.conversationId clock' s (call.ids svc s) := by
  cases call with
  | send reads args => exact idsInOrder_send hs hreads svc
  | regenerate reads c m userId =>
      rw [MessageCall.ids]
      cases hlocate : MessageService.locate m
          (historyPage s c svc.settings.cacheHistoryLimit) with
      | none => exact idsInOrder_empty
      | some found =>
          rcases found with ⟨target, below⟩
          have hcandidate := hkeeps target below hlocate
          have hid : MessageService.regenerateResponseId reads target below.head? =
              uuidv7After (below.head?.getD target).messageId reads.response := by
            unfold MessageService.regenerateResponseId
            cases below.head? <;> rfl
          have hmem : below.head?.getD target ∈
              historyPage s c svc.settings.cacheHistoryLimit := by
            rcases locate_split hlocate with ⟨_, above, heq⟩
            rw [heq]
            cases below with
            | nil => simp
            | cons prompt older => simp
          rcases isLive_of_mem_page hmem with ⟨row, hrow, _⟩
          dsimp only
          rw [hid]
          exact idsInOrder_response hs (Option.isSome_iff_exists.mpr ⟨row, hrow⟩) hreads
            hcandidate
  | finalizeAssistantMessage now c m content citations =>
      exact idsInOrder_single (Or.inl hkeeps) (Or.inl hkeeps)
  | failAssistantMessage now c m errorMessage =>
      exact idsInOrder_single (Or.inl hkeeps) (Or.inl hkeeps)
  | attachSummary now c m summary =>
      have hversion : m.version = 4 := hreads
      apply idsInOrder_single
      · right
        intro m' hm'
        rcases Option.isSome_iff_exists.mp hm' with ⟨row, hrow⟩
        exact hkeeps m' row hrow
      · right
        left
        rw [hversion]
        decide
  | delete c m => exact hreads.elim
  | history c limit cursor => exact hreads.elim

end Order

/-!
# The rows and the created ids
-/

def rowIds (s : Store) (c : UUID) : List UUID :=
  (s.messages c).rows.map Prod.fst

theorem sorted_rowIds (s : Store) (c : UUID) :
    (rowIds s c).Pairwise (fun a b => b < a) :=
  (s.messages c).sorted.map _ (fun _ _ h => h)

theorem mem_rowIds {s : Store} {c m : UUID} : m ∈ rowIds s c <-> (s.row c m).isSome = true := by
  constructor
  · intro h
    rcases List.mem_map.mp h with ⟨entry, hentry, rfl⟩
    rw [row_of_mem_rows hentry]
    rfl
  · intro h
    rcases Option.isSome_iff_exists.mp h with ⟨row, hrow⟩
    exact List.mem_map.mpr ⟨(m, row), mem_rows_of_row hrow, rfl⟩

section Created

variable {c : UUID} {clock' : Nat} {s t : Store} {ids : List UUID}

theorem mem_newIds {m : UUID} : m ∈ newIds s t c ids <->
    m ∈ ids ∧ (s.row c m).isSome = false ∧ (t.row c m).isSome = true := by
  unfold newIds
  rw [List.mem_filter, Bool.and_eq_true, Option.isNone_iff_eq_none]
  constructor
  · rintro ⟨hids, hnone, hsome⟩
    exact ⟨hids, by rw [hnone]; rfl, hsome⟩
  · rintro ⟨hids, hnone, hsome⟩
    exact ⟨hids, Option.not_isSome_iff_eq_none.mp (by rw [hnone]; decide), hsome⟩

theorem rowIds_of_growsBy (hgrows : GrowsBy c ids s t) (hids : IdsInOrder c clock' s ids) :
    rowIds t c = newIds s t c ids ++ rowIds s c := by
  have hsorted : (newIds s t c ids ++ rowIds s c).Pairwise (fun a b => b < a) := by
    apply List.pairwise_append.mpr
    refine ⟨hids.sorted.filter _, sorted_rowIds s c, ?_⟩
    intro new hnew m hm
    rcases mem_newIds.mp hnew with ⟨hmem, hnone, _⟩
    rcases hids.above new hmem with hold | habove
    · rw [hold] at hnone
      cases hnone
    · exact habove m (mem_rowIds.mp hm)
  apply ClusteredTable.eq_of_mem_iff id (sorted_rowIds t c) hsorted
  intro m
  rw [List.mem_append, mem_newIds, mem_rowIds, mem_rowIds]
  constructor
  · intro ht
    cases hs : (s.row c m).isSome with
    | true => exact Or.inr rfl
    | false =>
        rcases hgrows.added m ht with hold | hmem
        · rw [hs] at hold
          cases hold
        · exact Or.inl ⟨hmem, rfl, ht⟩
  · rintro (⟨_, _, ht⟩ | hs)
    · exact ht
    · exact hgrows.kept m hs

theorem inTime_of_growsBy {clock : Nat} (hs : InTime c clock s) (hclock : clock ≤ clock')
    (hgrows : GrowsBy c ids s t) (hids : IdsInOrder c clock' s ids) :
    InTime c clock' t := by
  have hold : forall m, (s.row c m).isSome = true ->
      m.version < 7 ∨ (m.version = 7 ∧ m.timestampMs ≤ clock') := by
    intro m hm
    rcases hs m hm with hsmall | ⟨hseven, htime⟩
    · exact Or.inl hsmall
    · exact Or.inr ⟨hseven, Nat.le_trans htime hclock⟩
  intro m hm
  rcases hgrows.added m hm with hrow | hmem
  · exact hold m hrow
  · rcases hids.time m hmem with hrow | hnew
    · exact hold m hrow
    · exact hnew

end Created

/-- The created ids are those of the rows, in the order of the table. -/
structure Timeline.InOrder (c : UUID) (x : Timeline) : Prop where
  rows : rowIds x.store c = x.created
  time : InTime c x.clock x.store

section Runs

variable {mayFail : Op -> Prop} {c : UUID} {x y : Timeline}

theorem inOrder_step (hx : x.InOrder c)
    (hstep : CreationStep mayFail c KeepsCreationOrder x y) : y.InOrder c := by
  cases hstep with
  | call svc call r hc hclock hreads hkeeps hfin =>
      subst hc
      have hgrows := growsBy_call svc _ hreads hfin
      have hids := idsInOrder_call hx.time hreads hkeeps
      constructor
      · have hrows := hx.rows
        dsimp only at hrows ⊢
        rw [rowIds_of_growsBy hgrows hids, hrows]
      · exact inTime_of_growsBy hx.time hclock hgrows hids
  | elapse helapsed =>
      have hmessages := helapsed.rest
      constructor
      · have hrows := hx.rows
        unfold rowIds at hrows ⊢
        dsimp only at hrows ⊢
        rw [hmessages]
        exact hrows
      · intro m hm
        apply hx.time m
        dsimp only at hm ⊢
        rw [hmessages] at hm
        exact hm

theorem inOrder_run (hx : x.InOrder c) (hrun : CreationRun mayFail c KeepsCreationOrder x y) :
    y.InOrder c := by
  induction hrun with
  | refl => exact hx
  | tail _ hstep ih => exact inOrder_step ih hstep

end Runs

/-!
# The history
-/

def Store.shows (s : Store) (c m : UUID) : Bool :=
  ((s.row c m).bind (fun row => row.status.message?)).isSome

/-- `message_id < cursor`, if there is a cursor. -/
def belowCursor (cursor : Option UUID) (m : UUID) : Bool :=
  match cursor with
  | some k => decide (m < k)
  | none => true

theorem ids_liveMessages {s : Store} {c : UUID} {entries : List (UUID × Row)}
    (h : forall entry, entry ∈ entries -> entry ∈ (s.messages c).rows) :
    (entries.filterMap (MessageRepository.liveMessage c)).map (fun m => m.messageId) =
      (entries.map Prod.fst).filter (s.shows c) := by
  induction entries with
  | nil => rfl
  | cons entry rest ih =>
      have hrest := ih (fun e he => h e (List.mem_cons_of_mem _ he))
      have hrow := row_of_mem_rows (h entry (by simp))
      have hshows : s.shows c entry.1 = entry.2.status.message?.isSome := by
        unfold Store.shows
        rw [hrow]
        rfl
      rw [List.map_cons]
      cases hlive : entry.2.status.message? with
      | none =>
          have hnone : MessageRepository.liveMessage c entry = none := by
            unfold MessageRepository.liveMessage
            rw [hlive]
            rfl
          rw [List.filterMap_cons_none hnone, hrest, List.filter_cons_of_neg]
          rw [hshows, hlive]
          decide
      | some shown =>
          have hsome : MessageRepository.liveMessage c entry =
              some (MessageRepository.rowMessage c entry.1 shown entry.2) := by
            unfold MessageRepository.liveMessage
            rw [hlive]
            rfl
          rw [List.filterMap_cons_some hsome, List.map_cons, hrest, List.filter_cons_of_pos]
          · rfl
          · rw [hshows, hlive]
            rfl

theorem wp_history_ids {mayFail : Op -> Prop} (s : Store) (c : UUID) (limit : Nat)
    (cursor : Option UUID) :
    Prog.wp storageMachine mayFail (MessageRepository.history c limit cursor)
      (fun messages _ => messages.map (fun m => m.messageId) =
        (((rowIds s c).filter (belowCursor cursor)).take limit).filter (s.shows c))
      (fun _ _ => True) s := by
  unfold MessageRepository.history
  rw [Prog.wp_bind, wp_perform]
  refine ⟨?_, fun _ => trivial⟩
  have hids : forall entries : List (UUID × Row),
      (forall entry, entry ∈ entries -> entry ∈ (s.messages c).rows) ->
      ((entries.take limit).filterMap (MessageRepository.liveMessage c)).map
        (fun m => m.messageId) = ((entries.map Prod.fst).take limit).filter (s.shows c) := by
    intro entries hentries
    rw [ids_liveMessages (fun e he => hentries e (List.mem_of_mem_take he)), List.map_take]
  have hfilter : forall k : UUID,
      ((s.messages c).rows.filter (fun r => decide (r.1 < k))).map Prod.fst =
        (rowIds s c).filter (belowCursor (some k)) := by
    intro k
    unfold rowIds
    rw [List.filter_map]
    rfl
  cases cursor with
  | none =>
      have hall : (rowIds s c).filter (belowCursor none) = rowIds s c :=
        List.filter_eq_self.mpr (fun _ _ => rfl)
      rw [hall]
      exact hids _ (fun _ h => h)
  | some k =>
      rw [← hfilter k]
      exact hids _ (fun _ h => List.mem_of_mem_filter h)

/--
In a run in which each summary is attached above all rows, the history lists the rows
from the newest created one on, whatever its length and its cursor are.
-/
theorem history_in_creation_order {mayFail : Op -> Prop} {c : UUID} {initial s t : Store}
    {created : List UUID} {start clock limit : Nat} {cursor : Option UUID}
    {messages : List Message} (hempty : forall m, initial.row c m = none)
    (hrun : CreationRun mayFail c KeepsCreationOrder ⟨initial, [], start⟩
      ⟨s, created, clock⟩)
    (hhistory : Prog.Finishes storageMachine mayFail
      (MessageRepository.history c limit cursor) s (.ok messages) t) :
    (forall m, m ∈ created <-> (s.row c m).isSome = true) ∧ created.Nodup ∧
      messages.map (fun m => m.messageId) =
        ((created.filter (belowCursor cursor)).take limit).filter (s.shows c) := by
  have hstart : Timeline.InOrder c ⟨initial, [], start⟩ := by
    constructor
    · apply List.eq_nil_iff_forall_not_mem.mpr
      intro m hm
      have hrow := mem_rowIds.mp hm
      dsimp only at hrow
      rw [hempty m] at hrow
      cases hrow
    · intro m hm
      dsimp only at hm
      rw [hempty m] at hm
      cases hm
  have hrows := (inOrder_run hstart hrun).rows
  dsimp only at hrows
  rw [← hrows]
  refine ⟨fun m => mem_rowIds, ?_, Prog.wp_finishes (wp_history_ids s c limit cursor) hhistory⟩
  apply (sorted_rowIds s c).imp
  intro a b hlt heq
  rw [heq] at hlt
  exact lt_irrefl _ hlt

/-! A question and its reply, and a summary with a `uuid.uuid4()`. -/

def askedAt1000 : SendArgs :=
  .plain (.ofInt 1) (uuidv7 (.at 1000)) (text "What is new?")

def replyAt1001 : UUID :=
  uuidv7After askedAt1000.messageId (Readings.at 1001).response

def summaryId4 : UUID :=
  .ofInt (4 * 2 ^ 76 + 2 ^ 63)

def askCall : MessageCall :=
  .send (.at 1001) askedAt1000

def summaryCall : MessageCall :=
  .attachSummary ⟨0, true⟩ (.ofInt 1) summaryId4 (text "News.")

def MessageCall.storeAfter (call : MessageCall) (s : Store) : Store :=
  (Prog.run storageMachine (fun _ => false) (call.program Deployment.single.api) s).2

theorem storeAfter_finishes (call : MessageCall) (s : Store) :
    exists r, Prog.Finishes storageMachine noFault (call.program Deployment.single.api) s r
      (call.storeAfter s) := by
  have hfin := Prog.run_finishes storageMachine (fun _ => false)
    (call.program Deployment.single.api) s
  rw [noFault_eq] at hfin
  exact ⟨_, hfin⟩

theorem creationStep_storeAfter {permits : MessageService -> Store -> MessageCall -> Prop}
    {call : MessageCall} {s : Store} {created new : List UUID} {clock clock' : Nat}
    (hc : call.conversationId = .ofInt 1) (hclock : clock ≤ clock')
    (hreads : call.Reads clock clock') (hpermits : permits Deployment.single.api s call)
    (hnew : newIds s (call.storeAfter s) (.ofInt 1) (call.ids Deployment.single.api s) = new) :
    CreationStep noFault (.ofInt 1) permits ⟨s, created, clock⟩
      ⟨call.storeAfter s, new ++ created, clock'⟩ := by
  rcases storeAfter_finishes call s with ⟨r, hfin⟩
  rw [← hnew]
  exact .call _ call r hc hclock hreads hpermits hfin

theorem reads_askCall : askCall.Reads 0 1001 := by
  refine ⟨⟨.at 1000, rfl, by decide, by decide⟩, ?_⟩
  intro i _
  exact Nat.le_refl 1001

def historyIds (s : Store) : Option (List UUID) :=
  match (Prog.run storageMachine (fun _ => false)
      (MessageRepository.history (.ofInt 1) 50 none) s).1 with
  | .ok messages => some (messages.map (fun m => m.messageId))
  | .error _ => none

theorem finishes_history {s : Store} {ids : List UUID} (h : historyIds s = some ids) :
    exists messages t, Prog.Finishes storageMachine noFault
        (MessageRepository.history (.ofInt 1) 50 none) s (.ok messages) t ∧
      messages.map (fun m => m.messageId) = ids := by
  have hfin := Prog.run_finishes storageMachine (fun _ => false)
    (MessageRepository.history (.ofInt 1) 50 none) s
  unfold historyIds at h
  cases hrun : (Prog.run storageMachine (fun _ => false)
      (MessageRepository.history (.ofInt 1) 50 none) s).1 with
  | error e =>
      rw [hrun] at h
      cases h
  | ok messages =>
      rw [hrun] at h
      rw [noFault_eq, hrun] at hfin
      exact ⟨messages, _, hfin, Option.some.inj h⟩

theorem reads_summaryCall {clock clock' : Nat} : summaryCall.Reads clock clock' := by
  have hversion : summaryId4.version = 4 := by decide
  exact hversion

/-- The summary is created last, and the history lists it below the question. -/
theorem summary_listed_last :
    exists s created clock messages t,
      CreationRun noFault (.ofInt 1) (fun _ _ _ => True) ⟨.blank, [], 0⟩
        ⟨s, created, clock⟩ ∧
      Prog.Finishes storageMachine noFault (MessageRepository.history (.ofInt 1) 50 none) s
        (.ok messages) t ∧
      created = [summaryId4, replyAt1001, askedAt1000.messageId] ∧
      messages.map (fun m => m.messageId) =
        [replyAt1001, askedAt1000.messageId, summaryId4] ∧
      messages.map (fun m => m.messageId) ≠
        ((created.filter (belowCursor none)).take 50).filter (s.shows (.ofInt 1)) := by
  have hask : newIds .blank (askCall.storeAfter .blank) (.ofInt 1)
      (askCall.ids Deployment.single.api .blank) = [replyAt1001, askedAt1000.messageId] := by
    decide
  have hsummary : newIds (askCall.storeAfter .blank)
      (summaryCall.storeAfter (askCall.storeAfter .blank)) (.ofInt 1)
      (summaryCall.ids Deployment.single.api (askCall.storeAfter .blank)) = [summaryId4] := by
    decide
  have hids : historyIds (summaryCall.storeAfter (askCall.storeAfter .blank)) =
      some [replyAt1001, askedAt1000.messageId, summaryId4] := by
    decide
  rcases finishes_history hids with ⟨messages, t, hfin, hlist⟩
  refine ⟨_, _, 1001, messages, t, ?_, hfin, rfl, hlist, ?_⟩
  · exact (Relation.ReflTransGen.single
      (creationStep_storeAfter rfl (by decide) reads_askCall trivial hask)).tail
      (creationStep_storeAfter rfl (by decide) reads_summaryCall trivial hsummary)
  · rw [hlist]
    decide

/-- Here the summary is attached to the empty conversation, and the question follows. -/
theorem history_in_creation_order_summaryFirst :
    historyIds (askCall.storeAfter (summaryCall.storeAfter .blank)) =
      some [replyAt1001, askedAt1000.messageId, summaryId4] := by
  have hsummary : newIds .blank (summaryCall.storeAfter .blank) (.ofInt 1)
      (summaryCall.ids Deployment.single.api .blank) = [summaryId4] := by
    decide
  have hask : newIds (summaryCall.storeAfter .blank)
      (askCall.storeAfter (summaryCall.storeAfter .blank)) (.ofInt 1)
      (askCall.ids Deployment.single.api (summaryCall.storeAfter .blank)) =
      [replyAt1001, askedAt1000.messageId] := by
    decide
  have hshows : ([replyAt1001, askedAt1000.messageId, summaryId4].filter
      (belowCursor none)).filter
      ((askCall.storeAfter (summaryCall.storeAfter .blank)).shows (.ofInt 1)) =
      [replyAt1001, askedAt1000.messageId, summaryId4] := by
    decide
  have hsome : (historyIds
      (askCall.storeAfter (summaryCall.storeAfter .blank))).isSome = true := by
    decide
  rcases Option.isSome_iff_exists.mp hsome with ⟨ids, hids⟩
  rcases finishes_history hids with ⟨messages, t, hfin, hmap⟩
  have hstep : KeepsCreationOrder Deployment.single.api .blank summaryCall := by
    intro m' row hrow
    cases hrow
  have hsteps : CreationRun noFault (.ofInt 1) KeepsCreationOrder ⟨.blank, [], 0⟩
      ⟨askCall.storeAfter (summaryCall.storeAfter .blank),
        [replyAt1001, askedAt1000.messageId, summaryId4], 1001⟩ :=
    (Relation.ReflTransGen.single
      (creationStep_storeAfter rfl (Nat.le_refl 0) reads_summaryCall hstep hsummary)).tail
      (creationStep_storeAfter rfl (by decide) reads_askCall trivial hask)
  have hlist := (history_in_creation_order (fun _ => rfl) hsteps hfin).right.right
  rw [List.take_of_length_le (by decide), hshows, hmap] at hlist
  rw [hids, hlist]

end ConversationService
