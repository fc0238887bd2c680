import ConversationService.Effects.Openings
import ConversationService.Effects.Pages

/-!
# A regeneration keeps the existing answer

The id of the new answer is made from the prompt, not from the answer that it replaces.
When the clock is behind the prompt, `uuidv7_after` steps one above it, and that is the
id of the answer if the clock was behind when the question was sent.
-/

namespace ConversationService

open Python Programs

variable {mayFail : Op -> Prop}

/-- What a regeneration may do to the answers of a conversation. -/
def AnswerKept (mayFail : Op -> Prop) (c m r : UUID) (s : Store)
    (result : Except PyExc (Option Message)) (t : Store) : Prop :=
  match result with
  | .error _ => t.row c m = s.row c m
  | .ok answer =>
      answer.bind Message.responseMessageId = some r ∧ s.row c r = none ∧
        IsPendingReply t c r ∧
        (forall c' id, IsDeleted t c' id -> IsDeleted s c' id ∨ (c' = c ∧ id = m)) ∧
        (¬mayFail (.updateDeleted c m) -> IsDeleted t c m)

section Regenerate

variable {svc : MessageService} {reads : Readings} {c m r : UUID}
  {userId : Option UUID} {target : Message} {below : List Message}
  {payload : ChatMessageCreated} {s t u : Store}

theorem row_restagedStore_ne {c' m' : UUID} (hne : ¬(c' = c ∧ m' = r)) :
    (restagedStore svc reads c r payload s).row c' m' = s.row c' m' := by
  unfold restagedStore stagedStore openedStore
  rw [Store.row_putOutbox, Store.row_upsertMessage_ne _ _ hne, Store.row_addPending,
    Store.row_setMarker, Store.row_upsertMessage_ne _ _ hne]

theorem pendingReply_restagedStore :
    IsPendingReply (restagedStore svc reads c r payload s) c r := by
  have hrow := Store.row_upsertMessage_self (openedStore svc reads c r s) c r
    (Row.staged .assistant [] reads.batchTime .pending [])
  exact ⟨_, hrow, rfl, rfl⟩

theorem answerKept_replaced (hassistant : target.sender = some .assistant)
    (hne : r ≠ m) (hnew : s.row c r = none) (hcore : SameCore s t)
    (h : Replaced mayFail c m target (restagedStore svc reads c r payload t) u) :
    AnswerKept mayFail c m r s (.ok (some { target with responseMessageId := some r }))
      u := by
  have hpending : IsPendingReply (restagedStore svc reads c r payload t) c r :=
    pendingReply_restagedStore
  have hold : forall {c' id}, IsDeleted (restagedStore svc reads c r payload t) c' id ->
      IsDeleted s c' id := by
    intro c' id hdeleted
    rcases hdeleted with ⟨row, hrow, hstatus⟩
    by_cases hkey : c' = c ∧ id = r
    · rcases hkey with ⟨rfl, rfl⟩
      rcases hpending with ⟨row', hrow', _, hstatus'⟩
      rw [hrow] at hrow'
      cases hrow'
      rw [hstatus] at hstatus'
      cases hstatus'
    · rw [row_restagedStore_ne hkey, hcore.row] at hrow
      exact ⟨row, hrow, hstatus⟩
  refine ⟨rfl, hnew, ?_⟩
  cases h with
  | deleted _ =>
      refine ⟨?_, ?_, ?_⟩
      · rcases hpending with ⟨row, hrow, hrest⟩
        refine ⟨row, ?_, hrest⟩
        rw [Store.row_upsertMessage_ne _ _ (fun hkey => hne hkey.right), hrow]
      · intro c' id hdeleted
        by_cases hkey : c' = c ∧ id = m
        · exact Or.inr hkey
        · left
          apply hold
          rcases hdeleted with ⟨row, hrow, hstatus⟩
          rw [Store.row_upsertMessage_ne _ _ hkey] at hrow
          exact ⟨row, hrow, hstatus⟩
      · intro _
        refine ⟨_, Store.row_upsertMessage_self _ _ _ _, ?_⟩
        cases (restagedStore svc reads c r payload t).row c m <;> rfl
  | kept hfail =>
      refine ⟨hpending, ?_, ?_⟩
      · intro c' id hdeleted
        exact Or.inl (hold hdeleted)
      · intro hok
        exact absurd (hfail hassistant) hok

theorem AnswerKept.core {result : Except PyExc (Option Message)}
    (h : AnswerKept mayFail c m r s result t) (hcore : SameCore t u) :
    AnswerKept mayFail c m r s result u := by
  cases result with
  | error e =>
      unfold AnswerKept
      rw [hcore.row]
      exact h
  | ok answer =>
      unfold AnswerKept IsPendingReply IsDeleted
      simp only [hcore.row]
      exact h

/-- The answer survives if the new id is nobody's, or if nothing can be registered. -/
theorem wp_regenerate_keeps_answer (userId : Option UUID)
    (hassistant : target.sender = some .assistant)
    (hlocate : MessageService.locate m
      (historyPage s c svc.settings.cacheHistoryLimit) = some (target, below))
    (hr : r = MessageService.regenerateResponseId reads target below.head?)
    (hne : r ≠ m) (hnew : svc.redis = true -> s.row c r = none) :
    Prog.wp storageMachine mayFail (svc.regenerate reads c m userId)
      (fun answer t => AnswerKept mayFail c m r s (.ok answer) t)
      (fun e t => AnswerKept mayFail c m r s (.error e) t) s := by
  subst hr
  refine wp_regenerate_located svc reads c m _ userId (R := fun _ => True) hlocate ?_ ?_ ?_
  · apply wp_traffic
      (MessageService.onlyReads_resolvePreferences (k := c) _ _ _ _).isTraffic
    · intro resolved t ht
      exact ⟨ht, trivial⟩
    · intro e t ht
      exact ht.row c m
  · rfl
  · intro resolved t ht _
    apply wp_replaceAnswer
    · intro u v hredis hu hv
      exact (answerKept_replaced hassistant hne (hnew hredis) ht hu).core hv
    · intro e u hu
      show u.row c m = s.row c m
      rw [hu.row_ne (fun hkey => hne hkey.right.symm), ht.row]

/-!
# The id in the clock readings
-/

/--
`K` holds of the id that 64 attempts find above a floor: the first one whose reading is above
it, or the id after the floor if the clock stays behind.
-/
def DrawsId (floor : UUID) (readings : Nat -> ClockReading) (K : UUID -> Prop) : Prop :=
  (exists i, i < 64 ∧ (forall j, j < i -> (uuidv7 (readings j)).int ≤ floor.int) ∧
    floor.int < (uuidv7 (readings i)).int ∧ K (uuidv7 (readings i))) ∨
  ((forall i, i < 64 -> (uuidv7 (readings i)).int ≤ floor.int) ∧
    K (UUID.ofInt (min (floor.int + 1) (2 ^ 128 - 1))))

theorem uuidv7Attempts_iff {floor : UUID} {readings : Nat -> ClockReading} {K : UUID -> Prop}
    {i n : Nat} (hbehind : forall j, j < i -> (uuidv7 (readings j)).int ≤ floor.int) :
    K (uuidv7Attempts floor readings i n) <->
      (exists k, k < i + n ∧ (forall j, j < k -> (uuidv7 (readings j)).int ≤ floor.int) ∧
        floor.int < (uuidv7 (readings k)).int ∧ K (uuidv7 (readings k))) ∨
      ((forall k, k < i + n -> (uuidv7 (readings k)).int ≤ floor.int) ∧
        K (UUID.ofInt (min (floor.int + 1) (2 ^ 128 - 1)))) := by
  induction n generalizing i with
  | zero =>
      unfold uuidv7Attempts
      constructor
      · exact fun hK => Or.inr ⟨hbehind, hK⟩
      · rintro (⟨k, hk, _, habove, _⟩ | ⟨_, hK⟩)
        · exact absurd (hbehind k hk) (Nat.not_le_of_lt habove)
        · exact hK
  | succ n ih =>
      unfold uuidv7Attempts
      by_cases habove : floor.int < (uuidv7 (readings i)).int
      · rw [if_pos habove]
        constructor
        · exact fun hK => Or.inl ⟨i, by omega, hbehind, habove, hK⟩
        · rintro (⟨k, _, hfirst, habove', hK⟩ | ⟨hall, _⟩)
          · rcases Nat.lt_trichotomy k i with hlt | rfl | hgt
            · exact absurd (hbehind k hlt) (Nat.not_le_of_lt habove')
            · exact hK
            · exact absurd (hfirst i hgt) (Nat.not_le_of_lt habove)
          · exact absurd (hall i (by omega)) (Nat.not_le_of_lt habove)
      · rw [if_neg habove, ih, Nat.add_right_comm, Nat.add_assoc]
        intro j hj
        rcases Nat.lt_succ_iff_lt_or_eq.mp hj with hlt | rfl
        · exact hbehind j hlt
        · exact Nat.le_of_not_lt habove

theorem drawsId_iff (floor : UUID) (readings : Nat -> ClockReading) (K : UUID -> Prop) :
    DrawsId floor readings K <-> K (uuidv7After floor readings) := by
  have h := @uuidv7Attempts_iff floor readings K 0 64 (fun _ hj => absurd hj (Nat.not_lt_zero _))
  rw [Nat.zero_add] at h
  exact h.symm

theorem regenerateResponseId_eq (reads : Readings) (target : Message)
    (prompt : Option Message) :
    MessageService.regenerateResponseId reads target prompt =
      uuidv7After (prompt.getD target).messageId reads.response := by
  cases prompt with
  | none => rfl
  | some m => rfl

/-!
# The condition is exact
-/

theorem regenerate_collides (userId : Option UUID)
    (hlocate : MessageService.locate m
      (historyPage s c svc.settings.cacheHistoryLimit) = some (target, below))
    (hr : r = MessageService.regenerateResponseId reads target below.head?)
    (hstored : s.row c r ≠ none) (hreaches : svc.redis = true ∨ r = m) :
    exists result t, Prog.Finishes storageMachine preferencesFault
      (svc.regenerate reads c m userId) s result t ∧
      ¬AnswerKept preferencesFault c m r s result t := by
  subst hr
  rcases finishes_resolvePreferences svc userId s with ⟨resolved, hresolve⟩
  rcases exists_finishes_noFault (replaceAnswer svc reads c m
    (MessageService.regenerateResponseId reads target below.head?) target
    (MessageService.regeneratePayload reads c m userId
      (MessageService.regenerateResponseId reads target below.head?) below.head?
      below.tail resolved)) s with ⟨result, t, hreplace⟩
  refine ⟨result, t, finishes_regenerate hlocate hresolve
    (Prog.finishes_mono hreplace (fun _ h => h.elim)), ?_⟩
  have hend := Prog.wp_finishes wp_replaceAnswer_noFault hreplace
  intro hkept
  cases result with
  | ok answer => exact hstored hkept.right.left
  | error e =>
      rcases hend with ⟨hredis, row, hrow, hstatus⟩
      have hm := hreaches.resolve_left (by rw [hredis]; exact Bool.false_ne_true)
      rcases isLive_of_locate hlocate with ⟨old, hold, hlive⟩
      have hsame : t.row c m = s.row c m := hkept
      rw [hm, hsame, hold] at hrow
      cases hrow
      exact hlive hstatus

/--
Whichever operations raise, a regeneration keeps the existing answer if and only if the id
that the clock readings give it above the prompt, or the one after the prompt's if they stay
behind, is not the id of a stored row, or it cannot be registered and the row is another one
than the answer's.
-/
theorem regenerate_keepsAnswer_iff (hassistant : target.sender = some .assistant)
    (hlocate : MessageService.locate m
      (historyPage s c svc.settings.cacheHistoryLimit) = some (target, below))
    (hr : r = MessageService.regenerateResponseId reads target below.head?) :
    (forall (mayFail : Op -> Prop) (result : Except PyExc (Option Message)) (t : Store),
      Prog.Finishes storageMachine mayFail (svc.regenerate reads c m userId) s result t ->
      AnswerKept mayFail c m r s result t) <->
    DrawsId (below.head?.getD target).messageId reads.response
      (fun id => s.row c id = none ∨ (svc.redis = false ∧ id ≠ m)) := by
  rw [drawsId_iff, ← regenerateResponseId_eq, ← hr]
  constructor
  · intro hall
    by_contra hnot
    rw [not_or] at hnot
    have hreaches : svc.redis = true ∨ r = m := by
      cases hredis : svc.redis with
      | true => exact Or.inl rfl
      | false =>
          right
          by_contra hne
          exact hnot.right ⟨hredis, hne⟩
    rcases regenerate_collides userId hlocate hr hnot.left hreaches with ⟨result, t, hfin, hbroken⟩
    exact hbroken (hall preferencesFault result t hfin)
  · intro hcase mayFail result t hfin
    have hne : r ≠ m := by
      rcases hcase with hnew | ⟨_, hne⟩
      · intro hrm
        rcases isLive_of_locate hlocate with ⟨row, hrow, _⟩
        rw [← hrm, hnew] at hrow
        cases hrow
      · exact hne
    have hnew : svc.redis = true -> s.row c r = none := by
      intro hredis
      rcases hcase with hnew | ⟨hoffline, _⟩
      · exact hnew
      · rw [hredis] at hoffline
        cases hoffline
    have hend := Prog.wp_finishes
      (wp_regenerate_keeps_answer userId hassistant hlocate hr hne hnew) hfin
    cases result with
    | ok answer => exact hend
    | error e => exact hend

end Regenerate

/-! A question sent and answered while the clock was behind its id. -/

def skewed : SendArgs :=
  .plain (.ofInt 1) (uuidv7 (.at 1000)) (text "Why?")

/-- The id that `uuidv7_after` falls back to. -/
def skewedAnswer : UUID :=
  uuidv7After skewed.messageId (Readings.at 900).response

def skewedStore : Store :=
  Call.after .single
    (.generated ⟨0, true⟩
      (Consumers.finalEvent skewedAnswer skewed.conversationId
        [(text "status", .str (text "success")),
          (text "full_content", .str (text "Because."))]))
    (Call.after .single (.send (.at 900) skewed) .blank)

theorem regenerate_keepsAnswer_iff_skewed :
    exists target below,
      MessageService.locate skewedAnswer
        (historyPage skewedStore skewed.conversationId
          Deployment.single.api.settings.cacheHistoryLimit) = some (target, below) ∧
      ((forall (mayFail : Op -> Prop) (result : Except PyExc (Option Message))
        (t : Store),
        Prog.Finishes storageMachine mayFail
          (Deployment.single.api.regenerate (.at 2000) skewed.conversationId
            skewedAnswer none) skewedStore result t ->
        AnswerKept mayFail skewed.conversationId skewedAnswer
          (MessageService.regenerateResponseId (.at 2000) target below.head?) skewedStore
          result t) <->
      DrawsId (below.head?.getD target).messageId (Readings.at 2000).response
        (fun id => skewedStore.row skewed.conversationId id = none ∨
          (Deployment.single.api.redis = false ∧ id ≠ skewedAnswer))) := by
  have hfound : (MessageService.locate skewedAnswer
      (historyPage skewedStore skewed.conversationId
        Deployment.single.api.settings.cacheHistoryLimit)).map
          (fun found => found.1.sender) = some (some .assistant) := by
    decide
  rcases Option.map_eq_some_iff.mp hfound with ⟨⟨target, below⟩, hlocate, hassistant⟩
  exact ⟨target, below, hlocate, regenerate_keepsAnswer_iff hassistant hlocate rfl⟩

/-- With the clock still behind, the regeneration overwrites the answer and deletes it. -/
theorem regenerate_losesAnswer :
    (skewedStore.row skewed.conversationId skewedAnswer).map
        (fun row => (row.status, row.content)) = some (.sent, some (text "Because.")) ∧
      ((Prog.run storageMachine (fun _ => false)
          (Deployment.single.api.regenerate (.at 901) skewed.conversationId
            skewedAnswer none) skewedStore).1.toOption.bind
              (fun answer => answer.bind Message.responseMessageId)) =
        some skewedAnswer ∧
      ((Prog.run storageMachine (fun _ => false)
          (Deployment.single.api.regenerate (.at 901) skewed.conversationId
            skewedAnswer none) skewedStore).2.row skewed.conversationId
              skewedAnswer).map (fun row => (row.status, row.content)) =
        some (.deleted, some []) :=
  ⟨by decide, by decide, by decide⟩

end ConversationService
