import ConversationService.Effects.Replies

/-!
# What chunks and timeout passes do

The outcomes of the handler of a chunk and of a scan of the timeout worker, for
any choice of raising operations, up to caches and streams.
-/

namespace ConversationService

open Python Programs

variable {mayFail : Op -> Prop}

namespace Consumers

theorem wp_handleChatResponseChunk (stream : StreamService) (event : Event)
    {P : Store -> Prop} {s : Store} (hP : forall u, SameCore s u -> P u)
    (hsaved : forall key u, (forall r, key ≠ generatedKey r) ->
      SameCore (s.saveInbox key) u -> P u) :
    Prog.wp storageMachine mayFail (handleChatResponseChunk stream event)
      (fun _ u => P u) (fun _ u => P u) s := by
  have hstart : P s := hP s (SameCore.refl s)
  unfold handleChatResponseChunk
  split
  · exact hstart
  · rw [Prog.wp_bind]
    unfold deriveEventId
    dsimp only
    split
    · rw [Prog.wp_ret, Prog.wp_bind, wp_perform]
      refine ⟨?_, fun _ => hstart⟩
      split
      · exact hstart
      · rw [Prog.wp_bind]
        unfold parseConversationId
        split
        · split
          · rw [Prog.wp_ret, Prog.wp_bind]
            apply wp_publishToken
            intro t ht
            rw [wp_perform]
            refine ⟨hsaved _ _ ?_ (ht.saveInbox _), fun _ => hP t ht⟩
            intro r
            exact chunkKey_ne _ r _
          · exact hstart
        · exact hstart
    · exact hstart

end Consumers

namespace PendingTimeoutWorker

def timeoutRow (now : Datetime) : Option Row -> Row :=
  Row.inserted .assistant timeoutMessage now .failed none

/-- A row that the worker does not fail. -/
def HasSent (s : Store) (c r : UUID) : Prop :=
  exists row, s.row c r = some row ∧ row.sender = some .assistant ∧ row.status = .sent

/-- What the treatment of one expired id does to the core of the store. -/
inductive EntryEffect (mayFail : Op -> Prop) (now : Datetime) (r : UUID)
    (s : Store) : Store -> Prop where
  | skipped : (exists o, mayFail o) -> EntryEffect mayFail now r s s
  | dropped : s.liveMarker r = none ->
      EntryEffect mayFail now r s (s.removePending r)
  | answered {c : UUID} {t : Store} : s.liveMarker r = some c -> HasSent s c r ->
      Cleared mayFail true r s t -> EntryEffect mayFail now r s t
  | failed {c : UUID} {t : Store} : s.liveMarker r = some c -> ¬HasSent s c r ->
      Cleared mayFail true r (s.upsertMessage c r (timeoutRow now)) t ->
      EntryEffect mayFail now r s t

/-- The effects of the entries of a pass, in the order of their ids. -/
inductive PassEffect (mayFail : Op -> Prop) (now : UUID -> Datetime) :
    List UUID -> Store -> Store -> Prop where
  | done {s t : Store} : SameCore s t -> PassEffect mayFail now [] s t
  | entry {r : UUID} {rest : List UUID} {s t u v : Store} :
      EntryEffect mayFail (now r) r s t -> SameCore t u ->
      PassEffect mayFail now rest u v -> PassEffect mayFail now (r :: rest) s v

/-- The ids whose deadline has passed at `nowTs`. -/
def expired (s : Store) (nowTs : Nat) : List UUID :=
  (s.pendingSet.filter (fun e => e.2 ≤ nowTs)).map Prod.fst

theorem boundText_timeoutMessage :
    boundText (.str timeoutMessage) = some timeoutMessage := by
  have hascii := ascii_of_all (s := timeoutMessage) (by decide)
  simp [boundText, utf8Length_of_ascii hascii]

theorem any_isSentReply_iff (s : Store) (c r : UUID) :
    ((s.row c r).map (MessageRepository.messageOfRow c r)).any isSentReply = true <->
      HasSent s c r := by
  cases hrow : s.row c r with
  | none =>
      constructor
      · intro h
        simp at h
      · intro h
        rcases h with ⟨row, hsome, _⟩
        rw [hrow] at hsome
        cases hsome
  | some row =>
      have hkey : isSentReply (MessageRepository.messageOfRow c r row) = true <->
          row.sender = some .assistant ∧ row.status = .sent := by
        rcases row with ⟨sender, content, createdAt, status, fileIds, citations⟩
        cases status <;>
          simp [isSentReply, MessageRepository.messageOfRow,
            MessageRepository.rowMessage, RowStatus.message?]
      rw [Option.map_some, Option.any_some, hkey]
      constructor
      · intro h
        exact ⟨row, hrow, h⟩
      · intro h
        rcases h with ⟨row', hrow', hsent⟩
        rw [hrow] at hrow'
        cases hrow'
        exact hsent

theorem wp_clearEntry {r : UUID} {answer : Bool} {P : Store -> Prop} {s : Store}
    (hP : forall t, Cleared mayFail true r s t -> P t) :
    Prog.wp storageMachine mayFail
      (perform (.deletePending r) >>= fun _ =>
        perform (.zremPending r) >>= fun _ => (Prog.ret answer : Py Bool))
      (fun _ t => P t) (fun _ t => P t) s := by
  rw [Prog.wp_bind, wp_perform, Prog.wp_bind, wp_perform]
  refine ⟨⟨hP _ (.cleared rfl), ?_⟩, ?_⟩
  · intro hfail
    exact hP _ (.unmarked rfl hfail)
  · intro hfail
    exact hP _ (.untouched (fun _ => hfail))

theorem wp_processEntry (cache : CacheService) (stream : StreamService)
    (now : Datetime) (r : UUID) {P : Store -> Prop} {s : Store}
    (hP : forall t u, EntryEffect mayFail now r s t -> SameCore t u -> P u) :
    Prog.wp storageMachine mayFail (processEntry cache stream now r)
      (fun _ u => P u) (fun _ u => P u) s := by
  have hskip : (exists o, mayFail o) -> P s := by
    intro h
    exact hP s s (.skipped h) (SameCore.refl s)
  unfold processEntry
  rw [Prog.wp_bind, wp_perform]
  refine ⟨?_, fun hfail => hskip ⟨_, hfail⟩⟩
  have hexec : (Op.getPending r).exec s = (s.liveMarker r, s) := rfl
  rw [hexec]
  cases hmarker : s.liveMarker r with
  | none =>
      dsimp only
      rw [Prog.wp_bind, wp_perform]
      exact ⟨hP _ _ (.dropped hmarker) (SameCore.refl _),
        fun hfail => hskip ⟨_, hfail⟩⟩
  | some c =>
      dsimp only
      rw [Prog.wp_bind]
      apply wp_getMessage
      · by_cases hsent : HasSent s c r
        · rw [if_pos ((any_isSentReply_iff s c r).mpr hsent)]
          apply wp_clearEntry
          intro t ht
          exact hP t t (.answered hmarker hsent ht) (SameCore.refl t)
        · rw [if_neg (fun h => hsent ((any_isSentReply_iff s c r).mp h)), Prog.wp_bind]
          apply wp_createMessageDirect
          · intro t column msg htext hcolumn
            rw [boundText_timeoutMessage] at htext
            cases htext
            have hnone : column = none := by
              simpa [citationsColumn, Json.truthy] using hcolumn.symm
            subst hnone
            rw [Prog.wp_bind]
            apply wp_deleteLast50Messages
            intro u hu
            rw [Prog.wp_bind]
            apply wp_publishToken
            intro v hv
            apply wp_clearEntry
            intro w hw
            rcases hw.core (hu.trans hv) with ⟨w', hw', hcore⟩
            exact hP w' w (.failed hmarker hsent hw') hcore
          · intro e h
            rcases h with htext | hcolumn | hfail
            · rw [boundText_timeoutMessage] at htext
              cases htext
            · simp [citationsColumn, Json.truthy] at hcolumn
            · exact hskip hfail
      · exact hskip

theorem wp_processEntries (cache : CacheService) (stream : StreamService)
    (now : UUID -> Datetime) (failed : Nat) (ids : List UUID)
    {Q : Nat -> Store -> Prop} {E : PyExc -> Store -> Prop} {s : Store}
    (hQ : forall n t, PassEffect mayFail now ids s t -> Q n t) :
    Prog.wp storageMachine mayFail (processEntries cache stream now failed ids)
      Q E s := by
  induction ids generalizing failed s with
  | nil => exact hQ failed s (.done (SameCore.refl s))
  | cons r rest ih =>
      unfold processEntries
      rw [Prog.wp_bind, Prog.wp_tryCatch]
      have hentry : forall t u, EntryEffect mayFail (now r) r s t -> SameCore t u ->
          forall failed', Prog.wp storageMachine mayFail
            (processEntries cache stream now failed' rest) Q E u := by
        intro t u ht hu failed'
        apply ih
        intro n v hv
        exact hQ n v (.entry ht hu hv)
      apply Prog.wp_mono
        (wp_processEntry cache stream (now r) r
          (P := fun u => forall failed', Prog.wp storageMachine mayFail
            (processEntries cache stream now failed' rest) Q E u) hentry)
      · intro done u hu
        exact hu _
      · intro e u hu
        exact hu _

/-- A pass treats the expired ids, unless the scan raises. -/
theorem wp_processExpiredPending (cache : CacheService) (stream : StreamService)
    (now : UUID -> Datetime) (nowTs : Nat) {Q : Nat -> Store -> Prop}
    {E : PyExc -> Store -> Prop} {s : Store}
    (hpass : forall n t, PassEffect mayFail now (expired s nowTs) s t -> Q n t)
    (hscan : (exists o, mayFail o) -> forall n t, SameCore s t -> Q n t) :
    Prog.wp storageMachine mayFail
      (processExpiredPending cache stream now nowTs) Q E s := by
  unfold processExpiredPending
  rw [Prog.wp_bind, Prog.wp_tryCatch, wp_perform]
  constructor
  · exact wp_processEntries cache stream now 0 (expired s nowTs) hpass
  · intro hfail
    exact hscan ⟨_, hfail⟩ 0 s (SameCore.refl s)

end PendingTimeoutWorker

end ConversationService
