import ConversationService.Effects.Calls

/-!
# What a call does to one row and to one marker

A row that exists is rewritten only by an event that names it, by a timeout pass
with a live marker for it, or by a soft delete; a marker is set only for an id
that the call generated, after its row.
-/

namespace ConversationService

open Python Programs

variable {d : Deployment} {mayFail : Op -> Prop}

/-- The conversation that a request adds its rows to. -/
def Call.Serves : Call -> UUID -> Prop
  | .send _ args, c => c = args.conversationId
  | .regenerate _ c' _ _, c => c = c'
  | .attachSummary _ c' _ _, c => c = c'
  | _, _ => False

/-- The rows that a call may put in the place of an existing one. -/
inductive RowChange (call : Call) (s : Store) (c m : UUID) (row : Row) :
    Row -> Prop where
  | same : RowChange call s c m row row
  | deleted : RowChange call s c m row (Row.softDeleted (some row))
  | replied {now : Datetime} {event : Event} {write : Option Row -> Row} :
      call = .generated now event -> Consumers.Answers now event s m c ->
      (Consumers.isSuccess event = true ∨ ¬Consumers.HasCompleted s c m) ->
      Consumers.replyRow now event = some write ->
      RowChange call s c m row (write (some row))
  | timedOut {now : UUID -> Datetime} {nowTs : Nat} :
      call = .timeoutPass now nowTs ->
      m ∈ PendingTimeoutWorker.expired s nowTs -> s.liveMarker m = some c ->
      ¬PendingTimeoutWorker.HasSent s c m ->
      RowChange call s c m row (PendingTimeoutWorker.timeoutRow (now m) (some row))

theorem replyRow_success {now : Datetime} {event : Event}
    {write : Option Row -> Row} (hevent : Consumers.isSuccess event = true)
    (h : Consumers.replyRow now event = some write) :
    exists t column, boundText (Consumers.fullContent event) = some t ∧
      write = Row.inserted .assistant t now .sent column := by
  unfold Consumers.replyRow at h
  rw [if_pos hevent] at h
  rcases Option.bind_eq_some_iff.mp h with ⟨citations, _, hbind⟩
  rcases Option.bind_eq_some_iff.mp hbind with ⟨column, _, hmap⟩
  rcases Option.map_eq_some_iff.mp hmap with ⟨t, htext, heq⟩
  exact ⟨t, column, htext, heq.symm⟩

theorem replyRow_error {now : Datetime} {event : Event} {write : Option Row -> Row}
    (hevent : Consumers.isSuccess event = false)
    (h : Consumers.replyRow now event = some write) :
    exists t, boundText (Consumers.errorMessage event) = some t ∧
      write = Row.inserted .assistant t now .failed none := by
  unfold Consumers.replyRow at h
  rw [if_neg (by rw [hevent]; exact Bool.false_ne_true)] at h
  rcases Option.map_eq_some_iff.mp h with ⟨t, htext, heq⟩
  exact ⟨t, htext, heq.symm⟩

theorem replyRow_shape {now : Datetime} {event : Event} {write : Option Row -> Row}
    (h : Consumers.replyRow now event = some write) :
    exists t status column, write = Row.inserted .assistant t now status column ∧
      status ≠ .pending := by
  cases hevent : Consumers.isSuccess event with
  | true =>
      rcases replyRow_success hevent h with ⟨t, column, _, heq⟩
      exact ⟨t, .sent, column, heq, by decide⟩
  | false =>
      rcases replyRow_error hevent h with ⟨t, _, heq⟩
      exact ⟨t, .failed, none, heq, by decide⟩

/-!
# Passes
-/

namespace PendingTimeoutWorker

theorem EntryEffect.liveMarker {now : Datetime} {r m c : UUID} {s t : Store}
    (h : EntryEffect mayFail now r s t) (hlive : t.liveMarker m = some c) :
    s.liveMarker m = some c := by
  cases h with
  | skipped _ => exact hlive
  | dropped _ => exact hlive
  | answered _ _ hclear => exact hclear.liveMarker hlive
  | failed _ _ hclear =>
      have hupsert := hclear.liveMarker hlive
      exact hupsert

theorem EntryEffect.row {now : Datetime} {r c m : UUID} {s t : Store} {row : Row}
    (h : EntryEffect mayFail now r s t) (hrow : s.row c m = some row) :
    t.row c m = some row ∨
      (m = r ∧ s.liveMarker m = some c ∧ ¬HasSent s c m ∧
        t.row c m = some (timeoutRow now (some row))) := by
  cases h with
  | skipped _ => exact Or.inl hrow
  | dropped _ => exact Or.inl hrow
  | answered _ _ hclear =>
      left
      rw [hclear.row, hrow]
  | @failed c' _ hmarker hsent hclear =>
      by_cases hkey : c = c' ∧ m = r
      · rcases hkey with ⟨rfl, rfl⟩
        right
        refine ⟨rfl, hmarker, hsent, ?_⟩
        rw [hclear.row, Store.row_upsertMessage_self, hrow]
      · left
        rw [hclear.row, Store.row_upsertMessage_ne _ _ hkey, hrow]

theorem timeoutRow_idem (now : Datetime) (row : Row) :
    timeoutRow now (some (timeoutRow now (some row))) = timeoutRow now (some row) := by
  rfl

theorem PassEffect.row {now : UUID -> Datetime} {ids : List UUID} {c m : UUID}
    {s t : Store} {row : Row} (h : PassEffect mayFail now ids s t)
    (hrow : s.row c m = some row) :
    t.row c m = some row ∨
      (m ∈ ids ∧ s.liveMarker m = some c ∧ ¬HasSent s c m ∧
        t.row c m = some (timeoutRow (now m) (some row))) := by
  induction h generalizing row with
  | done hcore =>
      left
      rw [hcore.row, hrow]
  | @entry r rest s t u v hentry hcore _ ih =>
      rcases hentry.row hrow with hsame | ⟨rfl, hmarker, hsent, hfailed⟩
      · have hu : u.row c m = some row := by rw [hcore.row, hsame]
        rcases ih hu with hkept | ⟨hmem, hlive, hnot, hrow'⟩
        · exact Or.inl hkept
        · right
          refine ⟨List.mem_cons_of_mem _ hmem, ?_, ?_, hrow'⟩
          · rw [hcore.liveMarker] at hlive
            exact hentry.liveMarker hlive
          · intro hsent
            apply hnot
            rcases hsent with ⟨row', hrow'', hrest⟩
            rw [hrow] at hrow''
            cases hrow''
            exact ⟨row, hu, hrest⟩
      · right
        have hu : u.row c m = some (timeoutRow (now m) (some row)) := by
          rw [hcore.row, hfailed]
        refine ⟨by simp, hmarker, hsent, ?_⟩
        rcases ih hu with hkept | ⟨_, _, _, hrow'⟩
        · exact hkept
        · rw [hrow', timeoutRow_idem]

theorem EntryEffect.markers {now : Datetime} {r id : UUID} {s t : Store}
    {mk : Marker} (h : EntryEffect mayFail now r s t) (hmk : t.markers id = some mk) :
    s.markers id = some mk := by
  cases h with
  | skipped _ => exact hmk
  | dropped _ => exact hmk
  | answered _ _ hclear => exact hclear.markers_some hmk
  | failed _ _ hclear =>
      have hupsert := hclear.markers_some hmk
      exact hupsert

theorem PassEffect.markers {now : UUID -> Datetime} {ids : List UUID} {id : UUID}
    {s t : Store} {mk : Marker} (h : PassEffect mayFail now ids s t)
    (hmk : t.markers id = some mk) : s.markers id = some mk := by
  induction h with
  | done hcore =>
      rw [hcore.markers] at hmk
      exact hmk
  | entry hentry hcore _ ih =>
      have hu := ih hmk
      rw [hcore.markers] at hu
      exact hentry.markers hu

theorem EntryEffect.inbox {now : Datetime} {r : UUID} {s t : Store}
    (h : EntryEffect mayFail now r s t) : t.inbox = s.inbox := by
  cases h with
  | skipped _ => rfl
  | dropped _ => rfl
  | answered _ _ hclear => exact hclear.inbox
  | failed _ _ hclear => exact hclear.inbox

theorem PassEffect.inbox {now : UUID -> Datetime} {ids : List UUID} {s t : Store}
    (h : PassEffect mayFail now ids s t) : t.inbox = s.inbox := by
  induction h with
  | done hcore => exact hcore.inbox
  | entry hentry hcore _ ih => rw [ih, hcore.inbox, hentry.inbox]

end PendingTimeoutWorker

/-!
# Calls
-/

section Calls

variable {call : Call} {s t : Store}

theorem ne_of_unused {id c m : UUID} {row : Row} (h : Unused s id)
    (hrow : s.row c m = some row) : m ≠ id := by
  intro hid
  have hnone := h c
  rw [← hid, hrow] at hnone
  cases hnone

theorem call_row {c m : UUID} {row : Row} (hmints : MintsUnused d s call)
    (h : CallEffect d mayFail call s t) (hrow : s.row c m = some row) :
    exists row', t.row c m = some row' ∧ RowChange call s c m row row' := by
  cases h with
  | untouched hcore => exact ⟨row, by rw [hcore.row, hrow], .same⟩
  | sent hresponse hopened _ =>
      have hr := ne_of_unused (hmints.unused _ (Or.inr hresponse)) hrow
      have hm := ne_of_unused (hmints.unused _ (Or.inl rfl)) hrow
      refine ⟨row, ?_, .same⟩
      rw [hopened.rows c m (fun hkey => hkey.right.elim hr hm), hrow]
  | noted _ hcore =>
      have hm := ne_of_unused (hmints.unused _ (Or.inl rfl)) hrow
      refine ⟨row, ?_, .same⟩
      rw [hcore.row]
      unfold stagedStore
      rw [Store.row_putOutbox, Store.row_upsertMessage_ne _ _ (fun h => hm h.right),
        hrow]
  | @regenerated reads c' m' userId target below _ _ hlocate hopened hother =>
      have hr := ne_of_unused (hmints.unused _ ⟨target, below, hlocate, rfl⟩) hrow
      by_cases hkey : c = c' ∧ m = m'
      · rcases hkey with ⟨rfl, rfl⟩
        rcases hother with hsame | hdeleted
        · exact ⟨row, by rw [hsame, hrow], .same⟩
        · exact ⟨_, by rw [hdeleted, hrow], .deleted⟩
      · refine ⟨row, ?_, .same⟩
        rw [hopened.rows c m, hrow]
        intro h
        rcases h.right with hid | hid
        · exact hr hid
        · exact hkey ⟨h.left, hid⟩
  | summarised hcore =>
      have hm := ne_of_unused (hmints.unused _ rfl) hrow
      refine ⟨row, ?_, .same⟩
      rw [hcore.row, Store.row_upsertMessage_ne _ _ (fun h => hm h.right), hrow]
  | @deleted c' m' _ _ hcore =>
      by_cases hkey : c = c' ∧ m = m'
      · rcases hkey with ⟨rfl, rfl⟩
        refine ⟨_, ?_, .deleted⟩
        rw [hcore.row, Store.row_upsertMessage_self, hrow]
      · refine ⟨row, ?_, .same⟩
        rw [hcore.row, Store.row_upsertMessage_ne _ _ hkey, hrow]
  | chunk _ hcore => exact ⟨row, by rw [hcore.row, Store.row_saveInbox, hrow], .same⟩
  | replied heffect hcore =>
      cases heffect with
      | skipped _ => exact ⟨row, by rw [hcore.row, hrow], .same⟩
      | kept _ _ _ hcleared hrecorded =>
          exact ⟨row, by rw [hcore.row, hrecorded.row, hcleared.row, hrow], .same⟩
      | @written r c' write _ _ hanswers hwin hwrite hcleared hrecorded =>
          by_cases hkey : c = c' ∧ m = r
          · rcases hkey with ⟨rfl, rfl⟩
            refine ⟨write (some row), ?_, .replied rfl hanswers hwin hwrite⟩
            rw [hcore.row, hrecorded.row, hcleared.row, Store.row_upsertMessage_self,
              hrow]
          · refine ⟨row, ?_, .same⟩
            rw [hcore.row, hrecorded.row, hcleared.row,
              Store.row_upsertMessage_ne _ _ hkey, hrow]
  | passed hpass =>
      rcases hpass.row hrow with hsame | ⟨hmem, hmarker, hsent, hfailed⟩
      · exact ⟨row, hsame, .same⟩
      · exact ⟨_, hfailed, .timedOut rfl hmem hmarker hsent⟩

theorem generated_written {now : Datetime} {event : Event} {c r : UUID}
    {write : Option Row -> Row} {result : Except PyExc Unit}
    (hfin : Prog.Finishes storageMachine noFault
      (Call.program d (.generated now event)) s result t)
    (hanswers : Consumers.Answers now event s r c)
    (hwin : Consumers.isSuccess event = true ∨ ¬Consumers.HasCompleted s c r)
    (hwrite : Consumers.replyRow now event = some write) :
    t.row c r = some (write (s.row c r)) ∧
      t.inbox (Consumers.generatedKey r) = true := by
  have hdone : exists u,
      Consumers.ReplyEffect noFault d.consumer.redis now event s u ∧ SameCore u t := by
    have hwp : Prog.wp storageMachine noFault (Call.program d (.generated now event))
        (fun _ t => exists u,
          Consumers.ReplyEffect noFault d.consumer.redis now event s u ∧ SameCore u t)
        (fun _ t => exists u,
          Consumers.ReplyEffect noFault d.consumer.redis now event s u ∧ SameCore u t)
        s := by
      apply Consumers.wp_handleChatResponseGenerated
      intro u v hu hv
      exact ⟨u, hu, hv⟩
    have hend := Prog.wp_finishes hwp hfin
    split at hend
    · exact hend
    · exact hend
  rcases hdone with ⟨u, heffect, hcore⟩
  cases heffect with
  | skipped hskip =>
      rcases hskip ⟨r, c, hanswers⟩ with ⟨o, hfail⟩
      exact hfail.elim
  | kept hanswers' hevent hcompleted _ _ =>
      cases Consumers.names_unique hanswers.names hanswers'.names
      rcases hwin with hsuccess | hnot
      · rw [hevent] at hsuccess
        cases hsuccess
      · exact absurd hcompleted hnot
  | written hanswers' _ hwrite' hcleared hrecorded =>
      cases Consumers.names_unique hanswers.names hanswers'.names
      rw [hwrite] at hwrite'
      cases hwrite'
      cases hrecorded with
      | saved =>
          constructor
          · rw [hcore.row, Store.row_saveInbox, hcleared.row,
              Store.row_upsertMessage_self]
          · rw [hcore.inbox, Store.inbox_saveInbox_self]
      | lost hfail => exact hfail.elim

theorem call_marker {id : UUID} {mk : Marker}
    (h : CallEffect d mayFail call s t) (hmk : t.markers id = some mk) :
    s.markers id = some mk ∨
      (Mints d s call id ∧
        exists row, t.row mk.conversationId id = some row ∧
          row.sender = some .assistant) := by
  have hopened : forall {c r other : UUID} {t : Store}, Opened c r other s t ->
      Mints d s call r -> t.markers id = some mk -> s.markers id = some mk ∨
        (Mints d s call id ∧
          exists row, t.row mk.conversationId id = some row ∧
            row.sender = some .assistant) := by
    intro c r other t hopen hmint hmk
    by_cases hid : id = r
    · subst hid
      rcases hopen.marker mk hmk with hold | hc
      · exact Or.inl hold
      · right
        rw [hc]
        rcases hopen.placed with ⟨row, hrow, hopenRow⟩
        exact ⟨hmint, row, hrow, hopenRow.left⟩
    · left
      rw [← hopen.markers id hid, hmk]
  cases h with
  | untouched hcore =>
      rw [hcore.markers] at hmk
      exact Or.inl hmk
  | sent hresponse hopen _ => exact hopened hopen (Or.inr hresponse) hmk
  | noted _ hcore =>
      rw [hcore.markers] at hmk
      exact Or.inl hmk
  | regenerated hlocate hopen _ => exact hopened hopen ⟨_, _, hlocate, rfl⟩ hmk
  | summarised hcore =>
      rw [hcore.markers] at hmk
      exact Or.inl hmk
  | deleted hcore =>
      rw [hcore.markers] at hmk
      exact Or.inl hmk
  | chunk _ hcore =>
      rw [hcore.markers] at hmk
      exact Or.inl hmk
  | replied heffect hcore =>
      rw [hcore.markers] at hmk
      left
      cases heffect with
      | skipped _ => exact hmk
      | kept _ _ _ hclear hrecorded =>
          rw [hrecorded.markers] at hmk
          exact hclear.markers_some hmk
      | written _ _ _ hclear hrecorded =>
          rw [hrecorded.markers] at hmk
          have hupsert := hclear.markers_some hmk
          exact hupsert
  | passed hpass => exact Or.inl (hpass.markers hmk)

theorem call_inbox {r : UUID} (h : CallEffect d mayFail call s t)
    (hkey : t.inbox (Consumers.generatedKey r) = true) :
    s.inbox (Consumers.generatedKey r) = true ∨
      exists c row, t.row c r = some row := by
  cases h with
  | untouched hcore =>
      rw [hcore.inbox] at hkey
      exact Or.inl hkey
  | sent _ hopened _ =>
      rw [hopened.inbox] at hkey
      exact Or.inl hkey
  | noted _ hcore =>
      rw [hcore.inbox] at hkey
      exact Or.inl hkey
  | regenerated _ hopened _ =>
      rw [hopened.inbox] at hkey
      exact Or.inl hkey
  | summarised hcore =>
      rw [hcore.inbox] at hkey
      exact Or.inl hkey
  | deleted hcore =>
      rw [hcore.inbox] at hkey
      exact Or.inl hkey
  | chunk hne hcore =>
      rw [hcore.inbox, Store.inbox_saveInbox_ne _ _ (hne r).symm] at hkey
      exact Or.inl hkey
  | replied heffect hcore =>
      rw [hcore.inbox] at hkey
      cases heffect with
      | skipped _ => exact Or.inl hkey
      | @kept r' c _ _ _ _ hcompleted hcleared hrecorded =>
          rcases hcompleted with ⟨row, hrow, _⟩
          have hrow' : t.row c r' = some row := by
            rw [hcore.row, hrecorded.row, hcleared.row, hrow]
          cases hrecorded with
          | saved =>
              by_cases hr : r = r'
              · subst hr
                exact Or.inr ⟨c, row, hrow'⟩
              · rw [Store.inbox_saveInbox_ne _ _
                  (fun h => hr (Consumers.generatedKey_injective h)),
                  hcleared.inbox] at hkey
                exact Or.inl hkey
          | lost _ =>
              rw [hcleared.inbox] at hkey
              exact Or.inl hkey
      | @written r' c write _ _ _ _ _ hcleared hrecorded =>
          have hrow' : t.row c r' = some (write (s.row c r')) := by
            rw [hcore.row, hrecorded.row, hcleared.row, Store.row_upsertMessage_self]
          cases hrecorded with
          | saved =>
              by_cases hr : r = r'
              · subst hr
                exact Or.inr ⟨c, _, hrow'⟩
              · rw [Store.inbox_saveInbox_ne _ _
                  (fun h => hr (Consumers.generatedKey_injective h)),
                  hcleared.inbox] at hkey
                exact Or.inl hkey
          | lost _ =>
              rw [hcleared.inbox] at hkey
              exact Or.inl hkey
  | passed hpass =>
      rw [hpass.inbox] at hkey
      exact Or.inl hkey

end Calls

/-!
# Markers belong to assistant rows
-/

/-- Every marker, live or not, is for an assistant row of its conversation. -/
def MarkersOwned (s : Store) : Prop :=
  forall id mk, s.markers id = some mk ->
    exists row, s.row mk.conversationId id = some row ∧ row.sender = some .assistant

theorem RowChange.assistant {call : Call} {s : Store} {c m : UUID} {row row' : Row}
    (h : RowChange call s c m row row') (hrow : row.sender = some .assistant) :
    row'.sender = some .assistant := by
  cases h with
  | same => exact hrow
  | deleted => exact hrow
  | replied _ _ _ hwrite =>
      rcases replyRow_shape hwrite with ⟨t, status, column, heq, _⟩
      rw [heq]
      rfl
  | timedOut _ _ _ _ => rfl

theorem markersOwned_call {call : Call} {s t : Store}
    (hmints : MintsUnused d s call) (h : CallEffect d mayFail call s t)
    (hs : MarkersOwned s) : MarkersOwned t := by
  intro id mk hmk
  rcases call_marker h hmk with hold | ⟨_, hnew⟩
  · rcases hs id mk hold with ⟨row, hrow, hsender⟩
    rcases call_row hmints h hrow with ⟨row', hrow', hchange⟩
    exact ⟨row', hrow', hchange.assistant hsender⟩
  · exact hnew

theorem Elapsed.row {s t : Store} (h : Elapsed s t) (c m : UUID) :
    t.row c m = s.row c m := by
  rw [h.rest]
  rfl

theorem Elapsed.markers {s t : Store} (h : Elapsed s t) : t.markers = s.markers := by
  rw [h.rest]

theorem Elapsed.isPending {s t : Store} (h : Elapsed s t) (id : UUID) :
    t.IsPending id <-> s.IsPending id := by
  rw [h.rest]
  exact Iff.rfl

theorem markersOwned_elapsed {s t : Store} (h : Elapsed s t) (hs : MarkersOwned s) :
    MarkersOwned t := by
  intro id mk hmk
  rw [h.markers] at hmk
  rcases hs id mk hmk with ⟨row, hrow, hsender⟩
  exact ⟨row, by rw [h.row, hrow], hsender⟩

theorem markersOwned_initial {s : Store} (h : Initial s) : MarkersOwned s := by
  intro id mk hmk
  rw [h.markers id] at hmk
  cases hmk

/-!
# Recorded replies have rows
-/

/-- A final event is recorded only for an id that has a row. -/
def InboxExplained (s : Store) : Prop :=
  forall r, s.inbox (Consumers.generatedKey r) = true ->
    exists c row, s.row c r = some row

theorem inboxExplained_call {call : Call} {s t : Store}
    (hmints : MintsUnused d s call) (h : CallEffect d mayFail call s t)
    (hs : InboxExplained s) : InboxExplained t := by
  intro r hkey
  rcases call_inbox h hkey with hold | hnew
  · rcases hs r hold with ⟨c, row, hrow⟩
    rcases call_row hmints h hrow with ⟨row', hrow', _⟩
    exact ⟨c, row', hrow'⟩
  · exact hnew

theorem inboxExplained_elapsed {s t : Store} (h : Elapsed s t)
    (hs : InboxExplained s) : InboxExplained t := by
  intro r hkey
  rcases hs r (h.inbox _ hkey) with ⟨c, row, hrow⟩
  exact ⟨c, row, by rw [h.row, hrow]⟩

theorem inboxExplained_initial {s : Store} (h : Initial s) : InboxExplained s := by
  intro r hkey
  rw [h.inbox r] at hkey
  cases hkey

theorem inbox_of_unused {s : Store} {r : UUID} (hs : InboxExplained s)
    (hunused : Unused s r) : s.inbox (Consumers.generatedKey r) = false := by
  cases hkey : s.inbox (Consumers.generatedKey r) with
  | false => rfl
  | true =>
      rcases hs r hkey with ⟨c, row, hrow⟩
      rw [hunused c] at hrow
      cases hrow

/-!
# Runs
-/

/-- The guard of a run lets only calls through that generate unused ids. -/
def GuardMints (d : Deployment) (guard : Store -> Call -> Prop) : Prop :=
  forall s call, guard s call -> MintsUnused d s call

theorem markersOwned_runs {guard : Store -> Call -> Prop} {s t : Store}
    (hguard : GuardMints d guard) (hrun : Runs d mayFail guard s t)
    (hs : MarkersOwned s) : MarkersOwned t := by
  apply runs_invariant _ _ hrun hs
  · intro call u v r hcall hu hfin
    exact markersOwned_call (hguard u call hcall) (callEffect (hguard u call hcall) hfin) hu
  · intro u v helapsed hu
    exact markersOwned_elapsed helapsed hu

theorem inboxExplained_runs {guard : Store -> Call -> Prop} {s t : Store}
    (hguard : GuardMints d guard) (hrun : Runs d mayFail guard s t)
    (hs : InboxExplained s) : InboxExplained t := by
  apply runs_invariant _ _ hrun hs
  · intro call u v r hcall hu hfin
    exact inboxExplained_call (hguard u call hcall)
      (callEffect (hguard u call hcall) hfin) hu
  · intro u v helapsed hu
    exact inboxExplained_elapsed helapsed hu

end ConversationService
