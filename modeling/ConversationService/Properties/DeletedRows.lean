import ConversationService.Effects.RowChanges

/-!
# Deleted messages

A deletion is a status of the row. `get_message` shows a deleted row as a failed
one, so the guards of the replies and of the timeout worker let it be written over, and a
request does not look at the row of an id that it generates. A deleted row stays deleted as
long as no final event answers it, no live marker points to it when its deadline passes, and
no request generates its id.
-/

namespace ConversationService

open Python Programs

variable {d : Deployment} {mayFail : Op -> Prop}

/-!
# Histories
-/

theorem row_of_selected {s : Store} {c : UUID} {limit : Nat} {cursor : Option UUID}
    {entry : UUID × Row} (h : entry ∈ ((Op.selectHistory c limit cursor).exec s).1) :
    s.row c entry.1 = some entry.2 := by
  have hrow : entry ∈ (s.messages c).rows := by
    cases cursor with
    | none => exact List.mem_of_mem_take h
    | some k => exact (List.mem_filter.mp (List.mem_of_mem_take h)).left
  unfold Store.row
  rw [ClusteredTable.Partition.get_eq_some_iff]
  exact hrow

theorem omitted_of_deleted {s : Store} {c m : UUID} (hdeleted : IsDeleted s c m)
    (limit : Nat) (cursor : Option UUID) :
    forall msg, msg ∈ (((Op.selectHistory c limit cursor).exec s).1).filterMap
      (MessageRepository.liveMessage c) -> msg.messageId ≠ m := by
  intro msg hmem hid
  rcases hdeleted with ⟨row, hrow, hstatus⟩
  rcases List.mem_filterMap.mp hmem with ⟨entry, hentry, hlive⟩
  have hentryRow := row_of_selected hentry
  unfold MessageRepository.liveMessage at hlive
  rcases Option.map_eq_some_iff.mp hlive with ⟨status, hshown, heq⟩
  have hkey : entry.1 = m := by
    rw [← hid, ← heq]
    rfl
  rw [hkey, hrow] at hentryRow
  cases hentryRow
  rw [hstatus] at hshown
  cases hshown

theorem wp_history_omits (svc : MessageService) {s : Store} {c m : UUID}
    (hdeleted : IsDeleted s c m) (hcache : s.historyCache c = none) (limit : Nat)
    (cursor : Option UUID) :
    Prog.wp storageMachine mayFail (svc.history c limit cursor)
      (fun page _ => forall msg, msg ∈ page -> msg.messageId ≠ m)
      (fun _ _ => True) s := by
  have hcached : Prog.wp storageMachine mayFail (svc.cachedHistory c limit cursor)
      (fun cached t => cached = none ∧ t = s) (fun _ _ => True) s := by
    unfold MessageService.cachedHistory
    split
    · rename_i cache
      unfold CacheService.getLast50Messages
      split
      · rw [Prog.wp_tryCatch, Prog.wp_bind, wp_perform]
        constructor
        · have hempty : ((Op.lrangeHistory c limit).exec s).1 = [] := by
            simp [Op.exec, hcache]
          rw [hempty]
          exact ⟨rfl, rfl⟩
        · intro _
          exact ⟨rfl, rfl⟩
      · exact ⟨rfl, rfl⟩
    · exact ⟨rfl, rfl⟩
  unfold MessageService.history
  rw [Prog.wp_bind]
  apply Prog.wp_mono hcached
  · intro cached t h
    rcases h with ⟨rfl, rfl⟩
    dsimp only
    unfold MessageRepository.history
    rw [Prog.wp_bind, Prog.wp_bind, wp_perform]
    refine ⟨?_, fun _ => trivial⟩
    have hpage := omitted_of_deleted hdeleted limit cursor
    rw [Prog.wp_pure]
    split
    · rw [Prog.wp_bind]
      apply wp_traffic (onlyPages_setLast50Messages _ _ _).readsPage.isTraffic
      · intro _ u _
        exact hpage
      · intro _ u _
        trivial
    · exact hpage
  · intro _ _ h
    exact h

/-!
# Calls and runs
-/

/--
No id that the call generates is that of a deleted row of its conversation, no final event
answers a deleted row, and no pass finds one behind an overdue marker.
-/
structure SparesDeleted (d : Deployment) (s : Store) (call : Call) : Prop where
  minted : forall c id, Mints d s call id -> call.Serves c -> ¬IsDeleted s c id
  answered : forall now event, call = .generated now event ->
    forall r c, Consumers.Answers now event s r c -> ¬IsDeleted s c r
  overdue : forall now nowTs, call = .timeoutPass now nowTs ->
    forall r c, r ∈ PendingTimeoutWorker.expired s nowTs -> s.liveMarker r = some c ->
      ¬IsDeleted s c r

theorem sparesDeleted_event {s : Store} {now : Datetime} {event : Event}
    (h : forall r c, Consumers.Answers now event s r c -> ¬IsDeleted s c r) :
    SparesDeleted d s (.generated now event) where
  minted := fun _ _ hmints _ => hmints.elim
  answered := by
    intro now event hcall
    cases hcall
    exact h
  overdue := by
    intro now nowTs hcall
    cases hcall

section Requests

variable {s : Store} {c m : UUID}

theorem wp_send_row (svc : MessageService) (reads : Readings) (args : SendArgs)
    (hmessage : ¬(c = args.conversationId ∧ m = args.messageId))
    (hresponse : forall r, MessageService.responseIdFor reads args = some r ->
      ¬(c = args.conversationId ∧ m = r)) :
    Prog.wp storageMachine mayFail (svc.send reads args)
      (fun _ t => t.row c m = s.row c m) (fun _ t => t.row c m = s.row c m) s := by
  have hkeeps := @wp_send_keeps mayFail svc reads args
    (K := fun t => t.row c m = s.row c m) (L := fun t => t.row c m = s.row c m) (s := s)
    ?_ ?_ ?_ ?_
  · apply Prog.wp_mono hkeeps
    · intro msg t ht
      exact ht.left
    · intro e t ht
      exact ht.elim id (fun hcore => hcore.row c m)
  · intro r t hr hcore
    rw [Store.row_upsertMessage_ne _ _ (hresponse r hr), hcore.row]
  · intro r o t hr ho ht
    rw [row_onResponse_ne ho (hresponse r hr), ht]
  · intro payload t ht
    unfold stagedStore
    rw [Store.row_putOutbox, Store.row_upsertMessage_ne _ _ hmessage]
    exact ht.elim id (fun hnone => hnone.right.row c m)
  · intro t u ht hcore
    rw [hcore.row, ht]

theorem wp_regenerate_row (svc : MessageService) (reads : Readings) (c' target : UUID)
    (userId : Option UUID)
    (hrows : forall found below,
      MessageService.locate target (historyPage s c' svc.settings.cacheHistoryLimit) =
        some (found, below) ->
      ¬(c = c' ∧ m = MessageService.regenerateResponseId reads found below.head?) ∧
        ¬(c = c' ∧ m = target)) :
    Prog.wp storageMachine mayFail (svc.regenerate reads c' target userId)
      (fun _ t => t.row c m = s.row c m) (fun _ t => t.row c m = s.row c m) s := by
  have hkeeps := @wp_regenerate_keeps mayFail svc reads c' target userId
    (K := fun t => t.row c m = s.row c m) (L := fun t => t.row c m = s.row c m) (s := s)
    ?_ ?_ ?_ ?_ ?_
  · apply Prog.wp_mono hkeeps
    · intro _ t ht
      exact ht.elim id (fun hcore => hcore.row c m)
    · intro _ t ht
      exact ht.elim id (fun hcore => hcore.row c m)
  · intro found below t hlocate hcore
    rw [Store.row_upsertMessage_ne _ _ (hrows found below hlocate).left, hcore.row]
  · intro found below o t hlocate ho ht
    rw [row_onResponse_ne ho (hrows found below hlocate).left, ht]
  · intro found below payload t hlocate ht
    unfold stagedStore
    rw [Store.row_putOutbox, Store.row_upsertMessage_ne _ _ (hrows found below hlocate).left, ht]
  · intro found below t hlocate _ ht
    rw [Store.row_upsertMessage_ne _ _ (hrows found below hlocate).right, ht]
  · intro t u ht hcore
    rw [hcore.row, ht]

end Requests

section Calls

variable {call : Call} {s t : Store} {c m : UUID} {row : Row} {r : Except PyExc Unit}

theorem deleted_request (hspares : SparesDeleted d s call)
    (hrequest : exists c', call.Serves c')
    (hfin : Prog.Finishes storageMachine mayFail (call.program d) s r t)
    (hdeleted : IsDeleted s c m) : t.row c m = s.row c m := by
  have hother : forall c' id, Mints d s call id -> call.Serves c' -> ¬(c = c' ∧ m = id) := by
    rintro c' id hmints hserves ⟨rfl, rfl⟩
    exact hspares.minted c m hmints hserves hdeleted
  have hwp : Prog.wp storageMachine mayFail (call.program d)
      (fun _ t => t.row c m = s.row c m) (fun _ t => t.row c m = s.row c m) s := by
    cases call with
    | send reads args =>
        apply wp_ignoreResult
        apply wp_send_row
        · exact hother _ _ (Or.inl rfl) rfl
        · intro r hr
          exact hother _ _ (Or.inr hr) rfl
    | regenerate reads c' target userId =>
        apply wp_ignoreResult
        apply wp_regenerate_row
        intro found below hlocate
        refine ⟨hother _ _ ⟨found, below, hlocate, rfl⟩ rfl, ?_⟩
        rintro ⟨rfl, rfl⟩
        rcases isLive_of_locate hlocate with ⟨live, hlive, hstatus⟩
        rcases hdeleted with ⟨row, hrow, hgone⟩
        rw [hrow] at hlive
        cases hlive
        exact hstatus hgone
    | attachSummary now c' id summary =>
        apply wp_ignoreResult
        apply wp_attachSummary
        · rfl
        · intro stored u hcore
          rw [hcore.row, Store.row_upsertMessage_ne _ _ (hother _ _ rfl rfl)]
    | delete c' m' => exact hrequest.elim (fun _ h => h.elim)
    | chunk event => exact hrequest.elim (fun _ h => h.elim)
    | generated now event => exact hrequest.elim (fun _ h => h.elim)
    | timeoutPass now nowTs => exact hrequest.elim (fun _ h => h.elim)
  have hend := Prog.wp_finishes hwp hfin
  cases r with
  | ok a => exact hend
  | error e => exact hend

theorem deleted_call (hspares : SparesDeleted d s call)
    (hfin : Prog.Finishes storageMachine mayFail (call.program d) s r t)
    (hrow : s.row c m = some row) (hdeleted : row.status = .deleted) :
    exists row', t.row c m = some row' ∧ row'.status = .deleted ∧
      row'.content = row.content := by
  by_cases hrequest : exists c', call.Serves c'
  · refine ⟨row, ?_, hdeleted, rfl⟩
    rw [deleted_request hspares hrequest hfin ⟨row, hrow, hdeleted⟩, hrow]
  · have hmints : MintsUnused d s call := by
      cases call with
      | send reads args => exact absurd ⟨_, rfl⟩ hrequest
      | regenerate reads c' target userId => exact absurd ⟨_, rfl⟩ hrequest
      | attachSummary now c' id summary => exact absurd ⟨_, rfl⟩ hrequest
      | delete c' m' => exact mintsUnused_of_none (fun _ h => h) (by simp)
      | chunk event => exact mintsUnused_of_none (fun _ h => h) (by simp)
      | generated now event => exact mintsUnused_generated d now event s
      | timeoutPass now nowTs => exact mintsUnused_timeoutPass d now nowTs s
    rcases call_row hmints (callEffect hmints hfin) hrow with ⟨row', hrow', hchange⟩
    cases hchange with
    | same => exact ⟨row, hrow', hdeleted, rfl⟩
    | deleted => exact ⟨_, hrow', rfl, rfl⟩
    | replied hcall hanswers _ _ =>
        exact absurd ⟨row, hrow, hdeleted⟩ (hspares.answered _ _ hcall m c hanswers)
    | timedOut hcall hmem hmarker _ =>
        exact absurd ⟨row, hrow, hdeleted⟩ (hspares.overdue _ _ hcall m c hmem hmarker)

end Calls

/-- A final event brings a deleted row back exactly when it answers it. -/
theorem deleted_after_event_iff {now : Datetime} {event : Event} {s t : Store}
    {c r : UUID} {result : Except PyExc Unit} (hdeleted : IsDeleted s c r)
    (hfin : Prog.Finishes storageMachine noFault
      (Call.program d (.generated now event)) s result t) :
    IsDeleted t c r <-> ¬Consumers.Answers now event s r c := by
  rcases hdeleted with ⟨row, hrow, hstatus⟩
  constructor
  · intro hkept hanswers
    have hincomplete : ¬Consumers.HasCompleted s c r := by
      intro h
      rcases h with ⟨row', hrow', _, hsent, _⟩
      rw [hrow] at hrow'
      cases hrow'
      rw [hstatus] at hsent
      cases hsent
    rcases Option.isSome_iff_exists.mp (hanswers.bindable (Or.inr hincomplete)) with
      ⟨write, hwrite⟩
    have hwritten := generated_written hfin hanswers (Or.inr hincomplete) hwrite
    rcases replyRow_shape hwrite with ⟨t', status, column, rfl, hshape⟩
    rcases hkept with ⟨row', hrow', hstatus'⟩
    rw [hwritten.left] at hrow'
    cases hrow'
    cases status <;> cases hstatus'
  · intro hnot
    have hmints := mintsUnused_generated d now event s
    rcases call_row hmints (callEffect hmints hfin) hrow with ⟨row', hrow', hchange⟩
    cases hchange with
    | same => exact ⟨row, hrow', hstatus⟩
    | deleted => exact ⟨_, hrow', rfl⟩
    | replied hcall hanswers _ _ =>
        cases hcall
        exact absurd hanswers hnot
    | timedOut hcall _ _ _ => cases hcall

def SparingRuns (d : Deployment) (mayFail : Op -> Prop) : Store -> Store -> Prop :=
  Runs d mayFail (SparesDeleted d)

/--
In each run that spares the deleted rows, a deleted row stays deleted with its content, and
out of every page read from the database.
-/
theorem deletedRow_kept {s t : Store} {c m : UUID} {row : Row}
    (hrun : SparingRuns d mayFail s t) (hrow : s.row c m = some row)
    (hdeleted : row.status = .deleted) :
    (exists row', t.row c m = some row' ∧ row'.status = .deleted ∧
        row'.content = row.content) ∧
      (t.historyCache c = none ->
        forall (svc : MessageService) (limit : Nat) (cursor : Option UUID),
          Prog.wp storageMachine mayFail (svc.history c limit cursor)
            (fun page _ => forall msg, msg ∈ page -> msg.messageId ≠ m)
            (fun _ _ => True) t) := by
  have hkept : exists row', t.row c m = some row' ∧ row'.status = .deleted ∧
      row'.content = row.content := by
    apply runs_invariant (I := fun u => exists row', u.row c m = some row' ∧
      row'.status = .deleted ∧ row'.content = row.content) _ _ hrun
      ⟨row, hrow, hdeleted, rfl⟩
    · intro call u v r hguard hu hfin
      rcases hu with ⟨row', hrow', hdeleted', hcontent⟩
      rcases deleted_call hguard hfin hrow' hdeleted' with
        ⟨row'', hrow'', hdeleted'', hcontent'⟩
      exact ⟨row'', hrow'', hdeleted'', by rw [hcontent', hcontent]⟩
    · intro u v helapsed hu
      rw [helapsed.row]
      exact hu
  refine ⟨hkept, ?_⟩
  intro hcache svc limit cursor
  rcases hkept with ⟨row', hrow', hdeleted', _⟩
  exact wp_history_omits svc ⟨row', hrow', hdeleted'⟩ hcache limit cursor

/-! A question whose reply is deleted before its reply arrives. -/

def abandoned : SendArgs :=
  .plain (.ofInt 1) (uuidv7 (.at 1000)) (text "Never mind.")

def abandonedResponse : UUID :=
  uuidv7After abandoned.messageId (Readings.at 1001).response

def abandonedStore : Store :=
  Call.after .single (.delete abandoned.conversationId abandonedResponse)
    (Call.after .single (.send (.at 1001) abandoned) .blank)

def lateReply (r : UUID) : Event :=
  Consumers.finalEvent r abandoned.conversationId
    [(text "status", .str (text "success")), (text "full_content", .str (text "Late."))]

theorem abandonedStore_deleted :
    exists row, abandonedStore.row abandoned.conversationId abandonedResponse = some row ∧
      row.status = .deleted := by
  have hdecide : (abandonedStore.row abandoned.conversationId abandonedResponse).map
      Row.status = some .deleted := by
    decide
  exact Option.map_eq_some_iff.mp hdecide

theorem deletedRow_kept_other :
    exists row, (Call.after .single (.generated ⟨0, true⟩ (lateReply (.ofInt 7)))
        abandonedStore).row abandoned.conversationId abandonedResponse = some row ∧
      row.status = .deleted := by
  rcases abandonedStore_deleted with ⟨row, hrow, hdeleted⟩
  have hspares : SparesDeleted .single abandonedStore
      (.generated ⟨0, true⟩ (lateReply (.ofInt 7))) := by
    apply sparesDeleted_event
    intro r c hanswers
    cases Consumers.names_unique (Consumers.names_finalEvent _ _ _) hanswers.names
    have hnone : abandonedStore.row abandoned.conversationId (.ofInt 7) = none := by
      decide
    intro h
    rcases h with ⟨row', hrow', _⟩
    rw [hnone] at hrow'
    cases hrow'
  rcases after_finishes .single (.generated ⟨0, true⟩ (lateReply (.ofInt 7)))
    abandonedStore with ⟨_, hfin⟩
  have hrun : SparingRuns .single noFault abandonedStore
      (Call.after .single (.generated ⟨0, true⟩ (lateReply (.ofInt 7)))
        abandonedStore) :=
    Relation.ReflTransGen.single
      (.call _ _ hspares hfin)
  rcases (deletedRow_kept hrun hrow hdeleted).left with ⟨row', hrow', hdeleted', _⟩
  exact ⟨row', hrow', hdeleted'⟩

/-- The reply to the deleted row itself brings the row back as a sent message. -/
theorem lateReply_revives :
    (abandonedStore.row abandoned.conversationId abandonedResponse).map Row.status =
        some .deleted ∧
      ((Call.after .single (.generated ⟨0, true⟩ (lateReply abandonedResponse))
          abandonedStore).row abandoned.conversationId abandonedResponse).map
            (fun row => (row.status, row.content)) =
        some (.sent, some (text "Late.")) :=
  ⟨by decide, by decide⟩

end ConversationService
