import ConversationService.Effects.Openings
import ConversationService.Effects.Pages

/-!
# The question that a regeneration asks

`regenerate` takes the row next to its target for the prompt. That is the question the
answer belongs to as long as nothing live lies between the two, and both are in the
window of the newest stored rows.
-/

namespace ConversationService

open Python Programs

variable {mayFail : Op -> Prop}

/-- The event asks the question `u` again, with a history that is older. -/
structure Asks (payload : ChatMessageCreated) (u : UUID) (row : Row) : Prop where
  content : payload.content = row.content
  fileIds : payload.fileIds = row.fileIds
  prompt : payload.metadata.bind RegenerationMetadata.promptMessageId = some u
  older : forall entry, entry ∈ payload.history ->
    exists sender cut id, entry = .own sender cut id ∧ id < u

/-- Every regeneration of `m` that returns has staged an event that asks `u` again. -/
def ReAsks (svc : MessageService) (reads : Readings) (c m : UUID)
    (userId : Option UUID) (s : Store) (u : UUID) (row : Row) : Prop :=
  forall (mayFail : Op -> Prop) (answer : Option Message) (t : Store),
    Prog.Finishes storageMachine mayFail (svc.regenerate reads c m userId) s
      (.ok answer) t ->
    answer.isSome = true ∧ exists event,
      t.outbox (MessageRepository.outboxBucket c) reads.eventId = some event ∧
        Asks event.payload u row

theorem mem_formatHistoryFrom {picked : List HistoryEntry} {budget : Int}
    {messages : List Message} {entry : HistoryEntry}
    (h : entry ∈ MessageService.formatHistoryFrom picked budget messages) :
    entry ∈ picked ∨ exists msg cut, msg ∈ messages ∧
      entry = .own msg.sender cut msg.messageId := by
  induction messages generalizing picked budget with
  | nil => exact Or.inl h
  | cons head rest ih =>
      have hlater : (entry ∈ picked ∨ exists msg cut, msg ∈ rest ∧
          entry = .own msg.sender cut msg.messageId) ->
          entry ∈ picked ∨ exists msg cut, msg ∈ head :: rest ∧
            entry = .own msg.sender cut msg.messageId := by
        intro hcase
        rcases hcase with hpicked | ⟨msg, cut, hmem, heq⟩
        · exact Or.inl hpicked
        · exact Or.inr ⟨msg, cut, List.mem_cons_of_mem _ hmem, heq⟩
      have hnew : forall cut, entry ∈ picked ++ [.own head.sender cut head.messageId] ->
          entry ∈ picked ∨ exists msg cut, msg ∈ head :: rest ∧
            entry = .own msg.sender cut msg.messageId := by
        intro cut hmem
        rcases List.mem_append.mp hmem with hpicked | hlast
        · exact Or.inl hpicked
        · exact Or.inr ⟨head, cut, by simp, List.mem_singleton.mp hlast⟩
      unfold MessageService.formatHistoryFrom at h
      split at h
      · exact hlater (ih h)
      · split at h
        · exact hlater (ih h)
        · dsimp only at h
          split at h
          · exact Or.inl h
          · split at h
            · exact hnew _ h
            · rcases ih h with hpicked | ⟨msg, cut, hmem, heq⟩
              · exact hnew _ hpicked
              · exact Or.inr ⟨msg, cut, List.mem_cons_of_mem _ hmem, heq⟩

theorem mem_formatHistory {messages : List Message} {entry : HistoryEntry}
    (h : entry ∈ MessageService.formatHistory messages) :
    exists msg cut, msg ∈ messages ∧ entry = .own msg.sender cut msg.messageId := by
  unfold MessageService.formatHistory at h
  rcases mem_formatHistoryFrom (List.mem_reverse.mp h) with hnone | hmem
  · cases hnone
  · exact hmem

section Regenerate

variable {svc : MessageService} {reads : Readings} {c m u : UUID}
  {userId : Option UUID} {target : Message} {below : List Message} {row : Row}
  {s t : Store}

/-- The event that a regeneration stages for what it found in the page. -/
def restagedEvent (reads : Readings) (c m : UUID) (userId : Option UUID)
    (target : Message) (below : List Message) (resolved : ResolvedMessagePreferences) :
    OutboxRow :=
  { eventType := chatMessageCreatedTopic
    payload :=
      MessageService.regeneratePayload reads c m userId
        (MessageService.regenerateResponseId reads target below.head?) below.head?
        below.tail resolved
    published := false
    createdAt := reads.batchTime }

theorem wp_regenerate_resolved {R : ResolvedMessagePreferences -> Prop}
    (hlocate : MessageService.locate m
      (historyPage s c svc.settings.cacheHistoryLimit) = some (target, below))
    (hresolve : Prog.wp storageMachine mayFail (svc.resolvePreferences userId none none)
      (fun resolved t => SameCore s t ∧ R resolved) (fun _ _ => True) s) :
    Prog.wp storageMachine mayFail (svc.regenerate reads c m userId)
      (fun answer t => answer.isSome = true ∧ svc.redis = true ∧ exists resolved,
        R resolved ∧ t.outbox (MessageRepository.outboxBucket c) reads.eventId =
          some (restagedEvent reads c m userId target below resolved))
      (fun _ _ => True) s := by
  refine wp_regenerate_located svc reads c m _ userId hlocate hresolve ?_ ?_
  · trivial
  · intro resolved t _ hR
    apply wp_replaceAnswer
    · intro v w hredis hv hw
      refine ⟨rfl, hredis, resolved, hR, ?_⟩
      rw [hw.outbox]
      have hevent := Store.outbox_putOutbox_self
        ((openedStore svc reads c
          (MessageService.regenerateResponseId reads target below.head?) t).upsertMessage c
            (MessageService.regenerateResponseId reads target below.head?)
            (Row.staged .assistant [] reads.batchTime .pending []))
        (MessageRepository.outboxBucket c) reads.eventId
        (restagedEvent reads c m userId target below resolved)
      cases hv with
      | deleted _ => exact hevent
      | kept _ => exact hevent
    · intro e v _
      trivial

theorem wp_regenerate_event
    (hlocate : MessageService.locate m
      (historyPage s c svc.settings.cacheHistoryLimit) = some (target, below)) :
    Prog.wp storageMachine mayFail (svc.regenerate reads c m userId)
      (fun answer t => answer.isSome = true ∧ svc.redis = true ∧ exists resolved,
        t.outbox (MessageRepository.outboxBucket c) reads.eventId =
          some (restagedEvent reads c m userId target below resolved))
      (fun _ _ => True) s := by
  have hresolve : Prog.wp storageMachine mayFail
      (svc.resolvePreferences userId none none)
      (fun resolved t => SameCore s t ∧ True) (fun _ _ => True) s := by
    apply wp_traffic
      (MessageService.onlyReads_resolvePreferences (k := c) _ _ _ _).isTraffic
    · intro resolved t ht
      exact ⟨ht, trivial⟩
    · intro e t _
      trivial
  apply Prog.wp_mono (wp_regenerate_resolved hlocate hresolve)
  · intro answer t h
    rcases h with ⟨hsome, hredis, resolved, _, hstaged⟩
    exact ⟨hsome, hredis, resolved, hstaged⟩
  · intro e t h
    exact h

theorem asks_restagedEvent {resolved : ResolvedMessagePreferences}
    (hu : s.row c u = some row)
    (hlocate : MessageService.locate m
      (historyPage s c svc.settings.cacheHistoryLimit) = some (target, below))
    {prompt : Message} (hhead : below.head? = some prompt)
    (hid : prompt.messageId = u) :
    Asks (restagedEvent reads c m userId target below resolved).payload u row := by
  have hsorted := sorted_historyPage s c svc.settings.cacheHistoryLimit
  have hpage := ((mem_below_iff hsorted hlocate prompt).mp
    (List.mem_of_mem_head? hhead)).left
  rcases (row_of_mem_page hpage).right with ⟨row', shown, hrow', _, heq⟩
  rw [hid, hu] at hrow'
  cases hrow'
  constructor
  · unfold restagedEvent
    rw [hhead, heq]
    rfl
  · show (below.head?.map Message.fileIds).getD [] = row.fileIds
    rw [hhead, heq]
    rfl
  · show below.head?.map Message.messageId = some u
    rw [hhead, ← hid]
    rfl
  · intro entry hentry
    rcases mem_formatHistory hentry with ⟨msg, cut, hmem, rfl⟩
    refine ⟨msg.sender, cut, msg.messageId, rfl, ?_⟩
    rw [← hid]
    have hrest := sorted_below hsorted hlocate
    cases hcase : below with
    | nil =>
        rw [hcase] at hhead
        cases hhead
    | cons head rest =>
        rw [hcase] at hhead hrest hmem
        cases hhead
        exact (List.pairwise_cons.mp hrest).left msg hmem

theorem finishes_regenerate_missing
    (hlocate : MessageService.locate m
      (historyPage s c svc.settings.cacheHistoryLimit) = none) :
    Prog.Finishes storageMachine noFault (svc.regenerate reads c m userId) s
      (.ok none) s := by
  have hhistory : Prog.Finishes storageMachine noFault
      (MessageRepository.history c svc.settings.cacheHistoryLimit none) s
      (.ok (historyPage s c svc.settings.cacheHistoryLimit)) s :=
    Relation.ReflTransGen.single (Prog.Step.done _ _ s)
  unfold MessageService.regenerate
  apply Prog.finishes_bind hhistory
  rw [hlocate]
  exact Prog.finishes_ret none s

/-- With Redis a regeneration of a message in the page can return. -/
theorem exists_finishes_regenerate (reads : Readings) (userId : Option UUID)
    (hredis : svc.redis = true)
    (hlocate : MessageService.locate m
      (historyPage s c svc.settings.cacheHistoryLimit) = some (target, below)) :
    exists answer t, Prog.Finishes storageMachine preferencesFault
      (svc.regenerate reads c m userId) s (.ok answer) t := by
  rcases finishes_resolvePreferences svc userId s with ⟨resolved, hresolve⟩
  rcases exists_finishes_noFault (replaceAnswer svc reads c m
    (MessageService.regenerateResponseId reads target below.head?) target
    (MessageService.regeneratePayload reads c m userId
      (MessageService.regenerateResponseId reads target below.head?) below.head?
      below.tail resolved)) s with ⟨result, t, hreplace⟩
  have hend := Prog.wp_finishes wp_replaceAnswer_noFault hreplace
  cases result with
  | ok answer =>
      exact ⟨answer, t, finishes_regenerate hlocate hresolve
        (Prog.finishes_mono hreplace (fun _ h => h.elim))⟩
  | error e =>
      rw [hredis] at hend
      cases hend.left

/--
A regeneration of the live row `m` asks the live row `u` again if and only if `u` is in
the window and no live row lies between the two, or no regeneration of `m` can return.
-/
theorem regenerate_reasks_iff (hu : s.row c u = some row)
    (hulive : row.status ≠ .deleted) (hm : IsLive s c m) :
    ReAsks svc reads c m userId s u row <->
      NextBelow s c svc.settings.cacheHistoryLimit u m ∨
        (svc.redis = false ∧ InWindow s c svc.settings.cacheHistoryLimit m) := by
  have hlive : IsLive s c u := ⟨row, hu, hulive⟩
  constructor
  · intro hall
    cases hlocate : MessageService.locate m
        (historyPage s c svc.settings.cacheHistoryLimit) with
    | none =>
        have hsome := (hall noFault none s (finishes_regenerate_missing hlocate)).left
        cases hsome
    | some found =>
        rcases found with ⟨target, below⟩
        cases hredis : svc.redis with
        | false =>
            right
            rcases locate_split hlocate with ⟨rfl, above, heq⟩
            refine ⟨rfl, (row_of_mem_page ?_).left⟩
            rw [heq]
            simp
        | true =>
            left
            rcases exists_finishes_regenerate reads userId hredis hlocate with ⟨answer, t, hfin⟩
            rcases (hall preferencesFault answer t hfin).right with
              ⟨event, hevent, hasks⟩
            rcases (Prog.wp_finishes (wp_regenerate_event hlocate) hfin).right.right with
              ⟨resolved, hstaged⟩
            rw [hevent] at hstaged
            cases hstaged
            have hprompt : below.head?.map Message.messageId = some u := hasks.prompt
            rcases Option.map_eq_some_iff.mp hprompt with ⟨prompt, hhead, hid⟩
            exact (prompt_iff_nextBelow hlive hm).mp
              ⟨target, below, prompt, hlocate, hhead, hid⟩
  · intro hcase mayFail answer t hfin
    rcases hcase with hnext | ⟨hredis, hwindow⟩
    · rcases (prompt_iff_nextBelow hlive hm).mpr hnext with
        ⟨target, below, prompt, hlocate, hhead, hid⟩
      rcases Prog.wp_finishes (wp_regenerate_event hlocate) hfin with
        ⟨hsome, _, resolved, hstaged⟩
      exact ⟨hsome, _, hstaged, asks_restagedEvent hu hlocate hhead hid⟩
    · rcases mem_page_of_live hwindow hm with ⟨msg, hmsg, hid⟩
      rcases locate_of_mem hmsg hid with ⟨target, below, hlocate⟩
      have hend := Prog.wp_finishes (wp_regenerate_event hlocate) hfin
      rw [hredis] at hend
      cases hend.right.left

end Regenerate

/-! Two questions of one conversation, the second sent before the first has its reply. -/

def firstQuestion : SendArgs :=
  .plain (.ofInt 1) (uuidv7 (.at 1000)) (text "First?")

def secondQuestion : SendArgs :=
  .plain (.ofInt 1) (uuidv7 (.at 1001)) (text "Second?")

def firstAnswerId : UUID :=
  uuidv7After firstQuestion.messageId (Readings.at 1002).response

def secondAnswerId : UUID :=
  uuidv7After secondQuestion.messageId (Readings.at 1003).response

def answerTo (r : UUID) (content : Text) : Call :=
  .generated ⟨0, true⟩
    (Consumers.finalEvent r firstQuestion.conversationId
      [(text "status", .str (text "success")), (text "full_content", .str content)])

/-- The rows are, from the oldest on, both questions and then both answers. -/
def crossedStore : Store :=
  Call.after .single (answerTo secondAnswerId (text "Two."))
    (Call.after .single (answerTo firstAnswerId (text "One."))
      (Call.after .single (.send (.at 1003) secondQuestion)
        (Call.after .single (.send (.at 1002) firstQuestion) .blank)))

theorem crossedStore_row (id : UUID) (sender : Sender) (content : Text)
    (h : (crossedStore.row firstQuestion.conversationId id).map
      (fun row => (row.sender, row.status, row.content)) =
        some (some sender, .sent, some content)) :
    exists row, crossedStore.row firstQuestion.conversationId id = some row ∧
      row.status ≠ .deleted := by
  rcases Option.map_eq_some_iff.mp h with ⟨row, hrow, heq⟩
  refine ⟨row, hrow, ?_⟩
  have hstatus : row.status = .sent := congrArg (fun x => x.2.1) heq
  rw [hstatus]
  decide

/-- The second answer lies next above the first one, and so does not ask its question. -/
theorem regenerate_reasks_iff_crossed :
    exists row, crossedStore.row firstQuestion.conversationId
        secondQuestion.messageId = some row ∧
      (ReAsks Deployment.single.api (.at 2000) firstQuestion.conversationId
          secondAnswerId none crossedStore secondQuestion.messageId row <->
        NextBelow crossedStore firstQuestion.conversationId
            Deployment.single.api.settings.cacheHistoryLimit secondQuestion.messageId
            secondAnswerId ∨
          (Deployment.single.api.redis = false ∧
            InWindow crossedStore firstQuestion.conversationId
              Deployment.single.api.settings.cacheHistoryLimit secondAnswerId)) := by
  rcases crossedStore_row secondQuestion.messageId .user (text "Second?")
    (by decide) with ⟨row, hrow, hlive⟩
  have hanswer := crossedStore_row secondAnswerId .assistant (text "Two.")
    (by decide)
  exact ⟨row, hrow, regenerate_reasks_iff hrow hlive hanswer⟩

/-- The answer to the first question is regenerated from the second question. -/
theorem regenerate_asksOtherQuestion :
    ((crossedStore.outbox
        (MessageRepository.outboxBucket firstQuestion.conversationId)
        (Readings.at 1002).eventId).map (fun event =>
          (event.payload.messageId, event.payload.responseMessageId))) =
        some (firstQuestion.messageId, some firstAnswerId) ∧
      (((Prog.run storageMachine (fun _ => false)
          (Deployment.single.api.regenerate (.at 2000) firstQuestion.conversationId
            firstAnswerId none) crossedStore).2.outbox
        (MessageRepository.outboxBucket firstQuestion.conversationId)
        (Readings.at 2000).eventId).map (fun event =>
          (event.payload.metadata.bind RegenerationMetadata.promptMessageId,
            event.payload.content))) =
        some (some secondQuestion.messageId, some (text "Second?")) :=
  ⟨by decide, by decide⟩

end ConversationService
