import ConversationService.Effects.RowChanges

/-!
# Pending replies under the watchdog

The entry of a reply in `pending_response:zset` never expires, the key with its
conversation does. A pass takes a missing key for an answer and drops the entry, so a
pending reply is abandoned by the first pass that comes after its key has expired, and
by no other.
-/

namespace ConversationService

open Python Programs

variable {d : Deployment} {mayFail : Op -> Prop}

namespace PendingTimeoutWorker

/-!
# Passes
-/

theorem EntryEffect.pendingReply {now : Datetime} {r c m : UUID} {s t : Store}
    (h : EntryEffect mayFail now r s t) (hpending : IsPendingReply t c m) :
    IsPendingReply s c m := by
  rcases hpending with ⟨row, hrow, hsender, hstatus⟩
  cases h with
  | skipped _ => exact ⟨row, hrow, hsender, hstatus⟩
  | dropped _ => exact ⟨row, hrow, hsender, hstatus⟩
  | answered _ _ hclear =>
      rw [hclear.row] at hrow
      exact ⟨row, hrow, hsender, hstatus⟩
  | @failed c' _ _ _ hclear =>
      rw [hclear.row] at hrow
      by_cases hkey : c = c' ∧ m = r
      · rcases hkey with ⟨rfl, rfl⟩
        rw [Store.row_upsertMessage_self] at hrow
        cases hrow
        cases hstatus
      · rw [Store.row_upsertMessage_ne _ _ hkey] at hrow
        exact ⟨row, hrow, hsender, hstatus⟩

theorem PassEffect.pendingReply {now : UUID -> Datetime} {ids : List UUID}
    {c m : UUID} {s t : Store} (h : PassEffect mayFail now ids s t)
    (hpending : IsPendingReply t c m) : IsPendingReply s c m := by
  induction h with
  | done hcore =>
      unfold IsPendingReply at hpending
      rw [hcore.row] at hpending
      exact hpending
  | entry hentry hcore _ ih =>
      have hu := ih hpending
      unfold IsPendingReply at hu
      rw [hcore.row] at hu
      exact hentry.pendingReply hu

theorem EntryEffect.liveMarker_kept {now : Datetime} {r id c : UUID} {s t : Store}
    (h : EntryEffect mayFail now r s t) (hlive : s.liveMarker id = some c)
    (hreply : IsPendingReply t c id) : t.liveMarker id = some c := by
  rcases hreply with ⟨row, hrow, _, hstatus⟩
  cases h with
  | skipped _ => exact hlive
  | dropped _ => exact hlive
  | answered hmarker hsent hclear =>
      by_cases hid : id = r
      · subst hid
        rw [hmarker] at hlive
        cases hlive
        rcases hsent with ⟨row', hrow', _, hstatus'⟩
        rw [hclear.row, hrow'] at hrow
        cases hrow
        rw [hstatus] at hstatus'
        cases hstatus'
      · unfold Store.liveMarker
        rw [hclear.markers_of_ne hid, hclear.clock]
        exact hlive
  | failed hmarker _ hclear =>
      by_cases hid : id = r
      · subst hid
        rw [hmarker] at hlive
        cases hlive
        rw [hclear.row, Store.row_upsertMessage_self] at hrow
        cases hrow
        cases hstatus
      · unfold Store.liveMarker
        rw [hclear.markers_of_ne hid, hclear.clock]
        exact hlive

/-- An entry is dropped only if its row is no longer pending. -/
theorem EntryEffect.isPending {now : Datetime} {r id c : UUID} {s t : Store}
    (h : EntryEffect mayFail now r s t) (hlive : id = r -> s.liveMarker id = some c)
    (hpending : s.IsPending id) (hreply : IsPendingReply t c id) : t.IsPending id := by
  rcases hreply with ⟨row, hrow, _, hstatus⟩
  cases h with
  | skipped _ => exact hpending
  | dropped hnone =>
      rw [Store.isPending_removePending]
      refine ⟨?_, hpending⟩
      intro hid
      subst hid
      rw [hlive rfl] at hnone
      cases hnone
  | answered hmarker hsent hclear =>
      rw [hclear.isPending_of_ne]
      · exact hpending
      · intro hid
        subst hid
        rw [hlive rfl] at hmarker
        cases hmarker
        rcases hsent with ⟨row', hrow', _, hstatus'⟩
        rw [hclear.row, hrow'] at hrow
        cases hrow
        rw [hstatus] at hstatus'
        cases hstatus'
  | failed hmarker _ hclear =>
      rw [hclear.isPending_of_ne]
      · exact hpending
      · intro hid
        subst hid
        rw [hlive rfl] at hmarker
        cases hmarker
        rw [hclear.row, Store.row_upsertMessage_self] at hrow
        cases hrow
        cases hstatus

theorem PassEffect.isPending {now : UUID -> Datetime} {ids : List UUID} {id c : UUID}
    {s t : Store} (h : PassEffect mayFail now ids s t)
    (hlive : id ∈ ids -> s.liveMarker id = some c) (hpending : s.IsPending id)
    (hreply : IsPendingReply t c id) : t.IsPending id := by
  induction h with
  | done hcore => exact (hcore.isPending id).mpr hpending
  | @entry r rest s t u v hentry hcore hrest ih =>
      have hreplyT : IsPendingReply t c id := by
        have hu := hrest.pendingReply hreply
        unfold IsPendingReply at hu
        rw [hcore.row] at hu
        exact hu
      apply ih _ _ hreply
      · intro hmem
        rw [hcore.liveMarker]
        exact hentry.liveMarker_kept (hlive (List.mem_cons_of_mem _ hmem)) hreplyT
      · rw [hcore.isPending]
        apply hentry.isPending _ hpending hreplyT
        intro hid
        exact hlive (List.mem_cons.mpr (Or.inl hid))

theorem EntryEffect.isPending_before {now : Datetime} {r id : UUID} {s t : Store}
    (h : EntryEffect mayFail now r s t) (hpending : t.IsPending id) : s.IsPending id := by
  cases h with
  | skipped _ => exact hpending
  | dropped _ =>
      rw [Store.isPending_removePending] at hpending
      exact hpending.right
  | answered _ _ hclear => exact hclear.isPending_before hpending
  | failed _ _ hclear => exact hclear.isPending_before hpending

theorem PassEffect.isPending_before {now : UUID -> Datetime} {ids : List UUID}
    {id : UUID} {s t : Store} (h : PassEffect mayFail now ids s t)
    (hpending : t.IsPending id) : s.IsPending id := by
  induction h with
  | done hcore => exact (hcore.isPending id).mp hpending
  | entry hentry hcore _ ih =>
      exact hentry.isPending_before ((hcore.isPending id).mp (ih hpending))

theorem EntryEffect.liveMarker_none {now : Datetime} {r id : UUID} {s t : Store}
    (h : EntryEffect mayFail now r s t) (hnone : s.liveMarker id = none) :
    t.liveMarker id = none := by
  cases hlive : t.liveMarker id with
  | none => rfl
  | some c =>
      rw [h.liveMarker hlive] at hnone
      cases hnone

/-- Without faults an overdue id whose key has expired leaves the set. -/
theorem PassEffect.drops {now : UUID -> Datetime} {ids : List UUID} {id : UUID}
    {s t : Store} (h : PassEffect noFault now ids s t) (hmem : id ∈ ids)
    (hnone : s.liveMarker id = none) : ¬t.IsPending id := by
  induction h with
  | done _ => cases hmem
  | @entry r rest s t u v hentry hcore hrest ih =>
      rcases List.mem_cons.mp hmem with rfl | hlater
      · intro hpending
        have hkept := (hcore.isPending id).mp (hrest.isPending_before hpending)
        cases hentry with
        | skipped hfault =>
            rcases hfault with ⟨o, hfail⟩
            exact hfail
        | dropped _ =>
            rw [Store.isPending_removePending] at hkept
            exact hkept.left rfl
        | answered hmarker _ _ =>
            rw [hnone] at hmarker
            cases hmarker
        | failed hmarker _ _ =>
            rw [hnone] at hmarker
            cases hmarker
      · apply ih hlater
        rw [hcore.liveMarker]
        exact hentry.liveMarker_none hnone

end PendingTimeoutWorker

/-!
# Calls
-/

section Calls

variable {call : Call} {s t : Store}

theorem serves_of_minted {id c : UUID} {row : Row} (h : CallEffect d mayFail call s t)
    (hmint : Mints d s call id) (hunused : Unused s id) (hrow : t.row c id = some row) :
    call.Serves c := by
  have hnone := hunused c
  cases h with
  | untouched hcore =>
      rw [hcore.row, hnone] at hrow
      cases hrow
  | sent _ hopened _ =>
      exact (hopened.newRow hnone hrow).left
  | noted _ hcore =>
      by_contra hne
      rw [hcore.row] at hrow
      unfold stagedStore at hrow
      rw [Store.row_putOutbox, Store.row_upsertMessage_ne _ _ (fun h => hne h.left),
        hnone] at hrow
      cases hrow
  | regenerated _ hopened _ =>
      exact (hopened.newRow hnone hrow).left
  | summarised hcore =>
      by_contra hne
      rw [hcore.row, Store.row_upsertMessage_ne _ _ (fun h => hne h.left),
        hnone] at hrow
      cases hrow
  | deleted _ => exact hmint.elim
  | chunk _ _ => exact hmint.elim
  | replied _ _ => exact hmint.elim
  | passed _ => exact hmint.elim

theorem serves_unique {c c' : UUID} (h : call.Serves c) (h' : call.Serves c') :
    c = c' := by
  cases call with
  | send reads args => exact Eq.trans h (Eq.symm h')
  | regenerate reads c m userId => exact Eq.trans h (Eq.symm h')
  | attachSummary now c m summary => exact Eq.trans h (Eq.symm h')
  | delete c m => exact h.elim
  | chunk event => exact h.elim
  | generated now event => exact h.elim
  | timeoutPass now nowTs => exact h.elim

/-- Only a request makes a reply pending, and only under an id it generated. -/
theorem pendingReply_call {c r : UUID} (hmints : MintsUnused d s call)
    (h : CallEffect d mayFail call s t) (hpending : IsPendingReply t c r) :
    IsPendingReply s c r ∨ Mints d s call r := by
  rcases hpending with ⟨row', hrow', hsender, hstatus⟩
  cases hrow : s.row c r with
  | some row =>
      left
      rcases call_row hmints h hrow with ⟨row'', hrow'', hchange⟩
      rw [hrow'] at hrow''
      cases hrow''
      cases hchange with
      | same => exact ⟨_, hrow, hsender, hstatus⟩
      | deleted => cases hstatus
      | replied _ _ _ hwrite =>
          rcases replyRow_shape hwrite with ⟨_, status, _, rfl, hshape⟩
          cases status with
          | pending => exact absurd rfl hshape
          | sent => cases hstatus
          | failed => cases hstatus
      | timedOut _ _ _ _ => cases hstatus
  | none =>
      cases h with
      | untouched hcore =>
          rw [hcore.row, hrow] at hrow'
          cases hrow'
      | sent hresponse hopened _ =>
          rcases hopened.newRow hrow hrow' with ⟨_, rfl | rfl⟩
          · exact Or.inr (Or.inr hresponse)
          · exact Or.inr (Or.inl rfl)
      | @noted _ args _ _ _ _ hcore =>
          by_cases hkey : c = args.conversationId ∧ r = args.messageId
          · exact Or.inr (Or.inl hkey.right)
          · rw [hcore.row] at hrow'
            unfold stagedStore at hrow'
            rw [Store.row_putOutbox, Store.row_upsertMessage_ne _ _ hkey,
              hrow] at hrow'
            cases hrow'
      | regenerated hlocate hopened hother =>
          rcases hopened.newRow hrow hrow' with ⟨rfl, rfl | rfl⟩
          · exact Or.inr ⟨_, _, hlocate, rfl⟩
          · rcases hother with hsame | hdeleted
            · rw [hsame, hrow] at hrow'
              cases hrow'
            · rw [hdeleted, hrow] at hrow'
              cases hrow'
              cases hstatus
      | @summarised _ c' m' _ _ _ _ hcore =>
          by_cases hkey : c = c' ∧ r = m'
          · exact Or.inr hkey.right
          · rw [hcore.row, Store.row_upsertMessage_ne _ _ hkey, hrow] at hrow'
            cases hrow'
      | @deleted c' m' _ _ hcore =>
          by_cases hkey : c = c' ∧ r = m'
          · rcases hkey with ⟨rfl, rfl⟩
            rw [hcore.row, Store.row_upsertMessage_self, hrow] at hrow'
            cases hrow'
            cases hstatus
          · rw [hcore.row, Store.row_upsertMessage_ne _ _ hkey, hrow] at hrow'
            cases hrow'
      | chunk _ hcore =>
          rw [hcore.row, Store.row_saveInbox, hrow] at hrow'
          cases hrow'
      | replied heffect hcore =>
          rw [hcore.row] at hrow'
          cases heffect with
          | skipped _ =>
              rw [hrow] at hrow'
              cases hrow'
          | kept _ _ _ hcleared hrecorded =>
              rw [hrecorded.row, hcleared.row, hrow] at hrow'
              cases hrow'
          | @written r' c' _ _ _ _ _ hwrite hcleared hrecorded =>
              rw [hrecorded.row, hcleared.row] at hrow'
              by_cases hkey : c = c' ∧ r = r'
              · rcases hkey with ⟨rfl, rfl⟩
                rw [Store.row_upsertMessage_self] at hrow'
                rcases replyRow_shape hwrite with ⟨_, status, _, rfl, hshape⟩
                cases hrow'
                cases status with
                | pending => exact absurd rfl hshape
                | sent => cases hstatus
                | failed => cases hstatus
              · rw [Store.row_upsertMessage_ne _ _ hkey, hrow] at hrow'
                cases hrow'
      | passed hpass =>
          rcases hpass.pendingReply ⟨row', hrow', hsender, hstatus⟩ with ⟨row, hold, _⟩
          rw [hrow] at hold
          cases hold

/-!
# The key of a pending reply names its conversation
-/

def MarkersMatch (s : Store) : Prop :=
  forall id mk c, s.markers id = some mk -> IsPendingReply s c id ->
    mk.conversationId = c

theorem markersMatch_call (hmints : MintsUnused d s call)
    (h : CallEffect d mayFail call s t) (howned : MarkersOwned s)
    (hs : MarkersMatch s) : MarkersMatch t := by
  intro id mk c hmk hpending
  rcases call_marker h hmk with hold | ⟨hmint, row, hrow, _⟩
  · rcases pendingReply_call hmints h hpending with hbefore | hmint
    · exact hs id mk c hold hbefore
    · rcases howned id mk hold with ⟨row, hrow, _⟩
      rw [hmints.unused id hmint] at hrow
      cases hrow
  · rcases hpending with ⟨row', hrow', _⟩
    have hunused := hmints.unused id hmint
    exact serves_unique (serves_of_minted h hmint hunused hrow)
      (serves_of_minted h hmint hunused hrow')

end Calls

theorem markersMatch_elapsed {s t : Store} (h : Elapsed s t) (hs : MarkersMatch s) :
    MarkersMatch t := by
  intro id mk c hmk hpending
  rw [h.markers] at hmk
  unfold IsPendingReply at hpending
  rw [h.row] at hpending
  exact hs id mk c hmk hpending

theorem markersMatch_runs {s t : Store} (hrun : Runs d mayFail (MintsUnused d) s t)
    (howned : MarkersOwned s) (hs : MarkersMatch s) :
    MarkersOwned t ∧ MarkersMatch t := by
  apply runs_invariant (I := fun u => MarkersOwned u ∧ MarkersMatch u) _ _ hrun
    ⟨howned, hs⟩
  · intro call u v r hmints hu hfin
    have heffect := callEffect hmints hfin
    exact ⟨markersOwned_call hmints heffect hu.left,
      markersMatch_call hmints heffect hu.left hu.right⟩
  · intro u v helapsed hu
    exact ⟨markersOwned_elapsed helapsed hu.left, markersMatch_elapsed helapsed hu.right⟩

theorem markersMatch_initial {s : Store} (h : Initial s) : MarkersMatch s := by
  intro id mk c hmk
  rw [h.markers id] at hmk
  cases hmk

/-!
# Runs
-/

/--
A pass finds the key of every overdue pending reply alive, and a final event names the
conversation of the pending reply that it answers.
-/
def Watches (s : Store) : Call -> Prop
  | .generated _ event => forall r c c', Consumers.Names event r c' ->
      IsPendingReply s c r -> c' = c
  | .timeoutPass _ nowTs => forall r c, r ∈ PendingTimeoutWorker.expired s nowTs ->
      IsPendingReply s c r -> s.liveMarker r ≠ none
  | _ => True

theorem liveMarker_of_match {s : Store} {c r : UUID} (hmatch : MarkersMatch s)
    (hreply : IsPendingReply s c r) (hlive : s.liveMarker r ≠ none) :
    s.liveMarker r = some c := by
  cases hcase : s.liveMarker r with
  | none => exact absurd hcase hlive
  | some c' =>
      rcases Store.markers_of_liveMarker hcase with ⟨mk, hmk, rfl⟩
      rw [hmatch r mk c hmk hreply]

theorem isPending_call {call : Call} {s t : Store} {c r : UUID}
    (hmints : MintsUnused d s call) (hwatch : Watches s call) (hmatch : MarkersMatch s)
    (h : CallEffect d mayFail call s t) (hregistered : s.IsPending r)
    (hbefore : IsPendingReply s c r) (hafter : IsPendingReply t c r) :
    t.IsPending r := by
  rcases hbefore with ⟨row, hrow, hsender, hstatus⟩
  cases h with
  | untouched hcore => exact (hcore.isPending r).mpr hregistered
  | sent hresponse hopened _ =>
      have hne := ne_of_unused (hmints.unused _ (Or.inr hresponse)) hrow
      exact (hopened.pending r hne).mpr hregistered
  | noted _ hcore => exact (hcore.isPending r).mpr hregistered
  | regenerated hlocate hopened _ =>
      have hne := ne_of_unused (hmints.unused _ ⟨_, _, hlocate, rfl⟩) hrow
      exact (hopened.pending r hne).mpr hregistered
  | summarised hcore => exact (hcore.isPending r).mpr hregistered
  | deleted hcore => exact (hcore.isPending r).mpr hregistered
  | chunk _ hcore => exact (hcore.isPending r).mpr hregistered
  | replied heffect hcore =>
      rw [hcore.isPending]
      cases heffect with
      | skipped _ => exact hregistered
      | @kept r' c' _ _ hanswers _ hcompleted hcleared hrecorded =>
          rw [hrecorded.isPending, hcleared.isPending_of_ne]
          · exact hregistered
          · intro hid
            subst hid
            cases hwatch r c c' hanswers.names ⟨row, hrow, hsender, hstatus⟩
            rcases hcompleted with ⟨row', hrow', _, hsent, _⟩
            rw [hrow] at hrow'
            cases hrow'
            rw [hstatus] at hsent
            cases hsent
      | @written r' c' _ _ _ hanswers _ hwrite hcleared hrecorded =>
          rw [hrecorded.isPending, hcleared.isPending_of_ne]
          · exact hregistered
          · intro hid
            subst hid
            cases hwatch r c c' hanswers.names ⟨row, hrow, hsender, hstatus⟩
            rcases hafter with ⟨row', hrow', _, hstatus'⟩
            rw [hcore.row, hrecorded.row, hcleared.row,
              Store.row_upsertMessage_self] at hrow'
            rcases replyRow_shape hwrite with ⟨_, status, _, rfl, hshape⟩
            cases hrow'
            cases status with
            | pending => exact absurd rfl hshape
            | sent => cases hstatus'
            | failed => cases hstatus'
  | passed hpass =>
      apply hpass.isPending _ hregistered hafter
      intro hmem
      have hbefore : IsPendingReply s c r := ⟨row, hrow, hsender, hstatus⟩
      exact liveMarker_of_match hmatch hbefore (hwatch r c hmem hbefore)

theorem isPending_of_expired {s : Store} {r : UUID} {nowTs : Nat}
    (h : r ∈ PendingTimeoutWorker.expired s nowTs) : s.IsPending r := by
  rcases List.mem_map.mp h with ⟨entry, hmem, rfl⟩
  exact ⟨entry.2, (List.mem_filter.mp hmem).left⟩

/-- A pass without faults abandons an overdue pending reply exactly if its key is gone. -/
theorem abandoned_after_pass_iff {now : UUID -> Datetime} {nowTs : Nat} {s t : Store}
    {c r : UUID} {result : Except PyExc Unit}
    (hmatch : MarkersMatch s) (hoverdue : r ∈ PendingTimeoutWorker.expired s nowTs)
    (hbefore : IsPendingReply s c r)
    (hfin : Prog.Finishes storageMachine noFault
      (Call.program d (.timeoutPass now nowTs)) s result t) :
    (IsPendingReply t c r ∧ ¬t.IsPending r) <-> s.liveMarker r = none := by
  have hpass : PendingTimeoutWorker.PassEffect noFault now
      (PendingTimeoutWorker.expired s nowTs) s t := by
    have hwp : Prog.wp storageMachine noFault (Call.program d (.timeoutPass now nowTs))
        (fun _ t => PendingTimeoutWorker.PassEffect noFault now
          (PendingTimeoutWorker.expired s nowTs) s t)
        (fun _ t => PendingTimeoutWorker.PassEffect noFault now
          (PendingTimeoutWorker.expired s nowTs) s t) s := by
      apply wp_ignoreResult
      apply PendingTimeoutWorker.wp_processExpiredPending
      · intro _ u hu
        exact hu
      · intro hfault
        rcases hfault with ⟨o, hfail⟩
        exact hfail.elim
    have hend := Prog.wp_finishes hwp hfin
    split at hend
    · exact hend
    · exact hend
  rcases hbefore with ⟨row, hrow, hsender, hstatus⟩
  constructor
  · intro h
    by_contra hlive
    apply h.right
    apply hpass.isPending _ (isPending_of_expired hoverdue) h.left
    intro _
    exact liveMarker_of_match hmatch ⟨row, hrow, hsender, hstatus⟩ hlive
  · intro hnone
    refine ⟨?_, hpass.drops hoverdue hnone⟩
    rcases hpass.row hrow with hsame | ⟨_, hmarker, _, _⟩
    · exact ⟨row, hsame, hsender, hstatus⟩
    · rw [hnone] at hmarker
      cases hmarker

/-- A run in which every pass comes before the keys of its pending replies expire. -/
def WatchedRuns (d : Deployment) (mayFail : Op -> Prop) : Store -> Store -> Prop :=
  Runs d mayFail (fun s call => MintsUnused d s call ∧ Watches s call)

/--
A registered pending reply is in the set as long as it is pending, in each run in which
a pass finds the key of every overdue pending reply alive.
-/
theorem pendingReply_watched {initial s t : Store} {c r : UUID}
    (hinitial : Initial initial) (hreach : Runs d mayFail (MintsUnused d) initial s)
    (hregistered : s.IsPending r) (hbefore : IsPendingReply s c r)
    (hrun : WatchedRuns d mayFail s t) (hafter : IsPendingReply t c r) :
    t.IsPending r := by
  have hstart := markersMatch_runs hreach (markersOwned_initial hinitial)
    (markersMatch_initial hinitial)
  have hboth : (MarkersOwned t ∧ MarkersMatch t) ∧
      (exists row, t.row c r = some row) ∧ (IsPendingReply t c r -> t.IsPending r) := by
    apply runs_invariant (I := fun u => (MarkersOwned u ∧ MarkersMatch u) ∧
      (exists row, u.row c r = some row) ∧ (IsPendingReply u c r -> u.IsPending r))
      _ _ hrun
    · rcases hbefore with ⟨row, hrow, _⟩
      exact ⟨hstart, ⟨row, hrow⟩, fun _ => hregistered⟩
    · intro call u v result hguard hu hfin
      rcases hu with ⟨⟨howned, hmatch⟩, ⟨row, hrow⟩, hkept⟩
      have heffect := callEffect hguard.left hfin
      refine ⟨⟨markersOwned_call hguard.left heffect howned,
        markersMatch_call hguard.left heffect howned hmatch⟩, ?_, ?_⟩
      · rcases call_row hguard.left heffect hrow with ⟨row', hrow', _⟩
        exact ⟨row', hrow'⟩
      · intro hpending
        rcases pendingReply_call hguard.left heffect hpending with hold | hmint
        · exact isPending_call hguard.left hguard.right hmatch heffect (hkept hold) hold
            hpending
        · rw [hguard.left.unused r hmint] at hrow
          cases hrow
    · intro u v helapsed hu
      rcases hu with ⟨⟨howned, hmatch⟩, hrow, hkept⟩
      refine ⟨⟨markersOwned_elapsed helapsed howned, ?_⟩, ?_, ?_⟩
      · exact markersMatch_elapsed helapsed hmatch
      · rw [helapsed.row]
        exact hrow
      · intro hpending
        unfold IsPendingReply at hpending
        rw [helapsed.row] at hpending
        exact (helapsed.isPending r).mpr (hkept hpending)
  exact hboth.right.right hafter

/-! A question that no worker looks at before its key has expired. -/

def unanswered : SendArgs :=
  .plain (.ofInt 1) (uuidv7 (.at 1000)) (text "Anyone there?")

def unansweredResponse : UUID :=
  uuidv7After unanswered.messageId (Readings.at 1001).response

def unansweredStore : Store :=
  Call.after .single (.send (.at 1001) unanswered) .blank

def passAt (seconds : Nat) : Call :=
  .timeoutPass (fun _ => ⟨seconds * second, true⟩) (seconds * second)

theorem isPendingReply_of_columns {s : Store} {c r : UUID}
    (h : (s.row c r).map (fun row => (row.sender, row.status)) =
      some (some .assistant, .pending)) : IsPendingReply s c r := by
  rcases Option.map_eq_some_iff.mp h with ⟨row, hrow, heq⟩
  exact ⟨row, hrow, congrArg Prod.fst heq, congrArg Prod.snd heq⟩

theorem isPending_of_mem {s : Store} {r : UUID}
    (h : r ∈ s.pendingSet.map Prod.fst) : s.IsPending r := by
  rcases List.mem_map.mp h with ⟨entry, hentry, rfl⟩
  exact ⟨entry.2, hentry⟩

/-- A pass before the deadline keeps the entry. -/
theorem pendingReply_watched_early :
    (Call.after .single (passAt 100) unansweredStore).IsPending unansweredResponse := by
  rcases after_finishes .single (.send (.at 1001) unanswered) .blank with ⟨_, hsend⟩
  have hreach : Runs .single noFault (MintsUnused .single) .blank unansweredStore :=
    Relation.ReflTransGen.single (.call _ _ (mintsUnused_blank (by decide)) hsend)
  rcases after_finishes .single (passAt 100) unansweredStore with ⟨_, hpass⟩
  have hwatch : Watches unansweredStore (passAt 100) := by
    have hnone : PendingTimeoutWorker.expired unansweredStore (100 * second) = [] := by
      decide
    intro r c hmem
    rw [hnone] at hmem
    cases hmem
  have hrun : WatchedRuns .single noFault unansweredStore
      (Call.after .single (passAt 100) unansweredStore) :=
    Relation.ReflTransGen.single
      (.call _ _ ⟨mintsUnused_timeoutPass _ _ _ _, hwatch⟩ hpass)
  exact pendingReply_watched initial_blank hreach
    (isPending_of_mem (by decide))
    (isPendingReply_of_columns (c := unanswered.conversationId) (by decide)) hrun
    (isPendingReply_of_columns (by decide))

/-- A pass after the key has expired drops the entry and leaves the row pending. -/
theorem latePass_abandons :
    ((Call.after .single (passAt 430)
          { unansweredStore with clock := unansweredStore.clock + 421 * second }).row
        unanswered.conversationId unansweredResponse).map
          (fun row => (row.sender, row.status)) = some (some .assistant, .pending) ∧
      unansweredResponse ∈ unansweredStore.pendingSet.map Prod.fst ∧
      unansweredResponse ∉ (Call.after .single (passAt 430)
          { unansweredStore with
            clock := unansweredStore.clock + 421 * second }).pendingSet.map Prod.fst :=
  ⟨by decide, by decide, by decide⟩

end ConversationService
