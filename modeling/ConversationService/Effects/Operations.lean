import ConversationService.Effects.Requests
import ConversationService.Effects.Timeouts
import ConversationService.Model.CleanupWorker

/-!
# The operations of handlers and workers

Which operations a final event or a timeout pass performs, whatever they are answered.
-/

namespace ConversationService

open Python Programs

section Replies

variable {P : Op -> Prop} (svc : MessageService) (stream : StreamService)

theorem onlyOps_createMessageDirect {now : Datetime} {c m : UUID} {sender : Sender}
    {content citations : Json} {status : MessageStatus}
    (hinsert : forall content column, IsWritten column ->
      P (.insertMessage c m sender content now status column)) :
    OnlyOps P
      (MessageRepository.createMessageDirect now c m sender content status citations) := by
  unfold MessageRepository.createMessageDirect
  rcases cleanCitations_eq citations with ⟨clean, hclean, hcolumn⟩ | ⟨_, e, hclean⟩
  · rw [hclean, Prog.ret_bind]
    refine onlyOps_bind (onlyOps_cqlText P _) (fun content => ?_)
    exact onlyOps_bind (onlyOps_perform (hinsert _ _ ⟨citations, hcolumn⟩))
      (fun _ => onlyOps_ret _)
  · rw [hclean]
    exact onlyOps_raise e

theorem onlyOps_getMessage {c m : UUID} (hselect : P (.selectMessage c m)) :
    OnlyOps P (MessageRepository.getMessage c m) :=
  onlyOps_bind (onlyOps_perform hselect) (fun _ => onlyOps_ret _)

theorem onlyOps_isWritableAssistantRow {c m : UUID} (hselect : P (.selectMessage c m)) :
    OnlyOps P (MessageService.isWritableAssistantRow c m) := by
  unfold MessageService.isWritableAssistantRow
  refine onlyOps_bind (onlyOps_getMessage hselect) (fun existing => ?_)
  split
  · exact onlyOps_ret _
  · exact onlyOps_ret _

theorem onlyOps_finalizeAssistantMessage {now : Datetime} {c m : UUID}
    {content citations : Json} (hselect : P (.selectMessage c m))
    (hdelete : P (.deleteHistory c))
    (hinsert : forall content status citations,
      P (.insertMessage c m .assistant content now status citations)) :
    OnlyOps P (svc.finalizeAssistantMessage now c m content citations) := by
  unfold MessageService.finalizeAssistantMessage
  refine onlyOps_bind (onlyOps_isWritableAssistantRow hselect)
    (fun writable => ?_)
  split
  · refine onlyOps_bind (onlyOps_createMessageDirect (fun _ _ _ => hinsert _ _ _))
      (fun _ => onlyOps_bind ?_ (fun _ => onlyOps_ret _))
    exact MessageService.onlyOps_invalidateCache svc hdelete
  · exact onlyOps_ret _

theorem onlyOps_failAssistantMessage {now : Datetime} {c m : UUID} {errorMessage : Json}
    (hselect : P (.selectMessage c m)) (hdelete : P (.deleteHistory c))
    (hinsert : forall content status citations,
      P (.insertMessage c m .assistant content now status citations)) :
    OnlyOps P (svc.failAssistantMessage now c m errorMessage) := by
  unfold MessageService.failAssistantMessage
  refine onlyOps_bind (onlyOps_isWritableAssistantRow hselect)
    (fun writable => ?_)
  split
  · refine onlyOps_bind (onlyOps_getMessage hselect) (fun existing => ?_)
    split
    · exact onlyOps_ret _
    · refine onlyOps_bind (onlyOps_createMessageDirect (fun _ _ _ => hinsert _ _ _))
        (fun _ => onlyOps_bind ?_ (fun _ => onlyOps_ret _))
      exact MessageService.onlyOps_invalidateCache svc hdelete
  · exact onlyOps_ret _

theorem onlyOps_handleChatResponseGenerated {now : Datetime} {event : Event}
    (hselect : forall key, P (.selectInbox key))
    (hrecord : forall key, P (.insertInbox key))
    (hmessage : forall r c, Consumers.Names event r c -> P (.selectMessage c r))
    (hdelete : forall r c, Consumers.Names event r c -> P (.deleteHistory c))
    (hpublish : forall r c o, Consumers.Names event r c -> Op.Publishes c o -> P o)
    (hinsert : forall r c content status citations, Consumers.Names event r c ->
      P (.insertMessage c r .assistant content now status citations))
    (hclear : forall r c o, Consumers.Names event r c -> Op.Clears r o -> P o) :
    OnlyOps P (Consumers.handleChatResponseGenerated svc stream now event) := by
  unfold Consumers.handleChatResponseGenerated
  split
  · exact onlyOps_ret _
  · rename_i r value htarget
    rw [Consumers.deriveEventId_generated, Prog.ret_bind]
    refine onlyOps_bind (onlyOps_perform (hselect _)) (fun duplicate => ?_)
    split
    · exact onlyOps_ret _
    · cases hparse : Consumers.parseConversationId value with
      | raise e => exact onlyOps_raise e
      | op o next =>
          unfold Consumers.parseConversationId at hparse
          split at hparse
          · split at hparse
            · cases hparse
            · cases hparse
          · cases hparse
      | ret c =>
          have hnames : Consumers.Names event r c := ⟨value, htarget, hparse⟩
          have hclears : OnlyOps P (svc.clearPendingResponse r) :=
            Prog.allOps_mono (onlyClears_clearPendingResponse svc r)
              (fun o ho => hclear r c o hnames ho)
          have hstream : forall payload, OnlyOps P (stream.publishToken c payload) :=
            fun payload => Prog.allOps_mono (onlyPublishes_publishToken stream c payload)
              (fun o ho => hpublish r c o hnames ho)
          rw [Prog.ret_bind]
          apply onlyOps_bind
          · unfold Consumers.handleOutcome Consumers.handleSuccess Consumers.handleError
            split
            · split
              · exact onlyOps_raise _
              · refine onlyOps_bind (onlyOps_finalizeAssistantMessage svc
                  (hmessage r c hnames) (hdelete r c hnames)
                  (fun _ _ _ => hinsert r c _ _ _ hnames)) (fun written => ?_)
                split
                · exact onlyOps_ret _
                · exact onlyOps_bind hclears (fun _ => onlyOps_bind (hstream _)
                    (fun _ => onlyOps_ret _))
            · refine onlyOps_bind (onlyOps_failAssistantMessage svc
                (hmessage r c hnames) (hdelete r c hnames)
                (fun _ _ _ => hinsert r c _ _ _ hnames)) (fun written => ?_)
              split
              · exact onlyOps_ret _
              · exact onlyOps_bind hclears (fun _ => onlyOps_bind (hstream _)
                  (fun _ => onlyOps_ret _))
          · intro written
            unfold Consumers.recordHandled
            split
            · exact onlyOps_perform (hrecord _)
            · exact onlyOps_ret _

end Replies

/-!
# Writes of conversations
-/

section Conversations

variable {P : Op -> Prop} {c : UUID}

theorem onlyOps_cqlOptionalText (P : Op -> Prop) (value : Option Text) :
    OnlyOps P (cqlOptionalText value) := by
  unfold cqlOptionalText
  split
  · exact onlyOps_bind (onlyOps_cqlText P _) (fun _ => onlyOps_ret _)
  · exact onlyOps_ret _

theorem onlyOps_cqlNullableText (P : Op -> Prop) (value : Json) :
    OnlyOps P (cqlNullableText value) := by
  unfold cqlNullableText
  cases value with
  | null => exact onlyOps_cqlOptionalText P none
  | str s => exact onlyOps_cqlOptionalText P (some s)
  | bool _ => exact onlyOps_raise _
  | int _ => exact onlyOps_raise _
  | float _ => exact onlyOps_raise _
  | arr _ => exact onlyOps_raise _
  | obj _ => exact onlyOps_raise _

theorem onlyOps_catalogOwner (P : Op -> Prop) (conv : Conversation) :
    OnlyOps P (ConversationRepository.catalogOwner conv) := by
  unfold ConversationRepository.catalogOwner
  split
  · exact onlyOps_ret _
  · exact onlyOps_raise _

theorem onlyOps_deleteConversation (cache : CacheService)
    (hevict : P (.deleteConversation c)) : OnlyOps P (cache.deleteConversation c) := by
  unfold CacheService.deleteConversation
  split
  · exact onlyOps_tryCatch (onlyOps_perform hevict) (fun _ => onlyOps_ret _)
  · exact onlyOps_ret _

theorem onlyOps_evict (cache : Option CacheService) (hevict : P (.deleteConversation c)) :
    OnlyOps P
      (ConversationWrites.forCache cache (fun cache => cache.deleteConversation c)) := by
  unfold ConversationWrites.forCache
  split
  · exact onlyOps_deleteConversation _ hevict
  · exact onlyOps_ret _

theorem onlyOps_setThrough (cache : Option CacheService) {conv : Conversation}
    (hfinds : forall o, Op.Finds conv.conversationId o -> P o) :
    OnlyOps P
      (ConversationWrites.forCache cache (fun cache => cache.setConversation conv)) := by
  unfold ConversationWrites.forCache
  split
  · exact Prog.allOps_mono (onlyFinds_setConversation _ conv) hfinds
  · exact onlyOps_ret _

theorem onlyOps_updateWithOutbox {now : Datetime} {title : Option Text}
    {status : ConversationStatus} {eventId : UUID} {eventType : Text}
    {payload : ConversationEvent} (hselect : P (.selectConversation c))
    (hbatch : forall user old title createdAt parent bucket event,
      P (.batchUpdateConversation c user old now title createdAt status parent bucket
        eventId event)) :
    OnlyOps P
      (ConversationRepository.updateWithOutbox now c title status eventId eventType
        payload) := by
  unfold ConversationRepository.updateWithOutbox
  refine onlyOps_bind (onlyOps_repositoryGet hselect) (fun stored => ?_)
  split
  · exact onlyOps_ret _
  · refine onlyOps_bind (onlyOps_cqlOptionalText P _) (fun text => ?_)
    refine onlyOps_bind (onlyOps_catalogOwner P _) (fun owner => ?_)
    exact onlyOps_bind (onlyOps_perform (hbatch _ _ _ _ _ _ _)) (fun _ => onlyOps_ret _)

theorem returns_updateWithOutbox {now : Datetime} {title : Option Text}
    {status : ConversationStatus} {eventId : UUID} {eventType : Text}
    {payload : ConversationEvent} :
    Prog.Returns (S := storage) (fun updated : Option Conversation =>
      forall conv, updated = some conv -> conv.conversationId = c)
      (ConversationRepository.updateWithOutbox now c title status eventId eventType
        payload) := by
  unfold ConversationRepository.updateWithOutbox
  apply Prog.returns_bind (returns_repositoryGet c)
  intro stored hstored
  split
  · intro conv hconv
    cases hconv
  · rename_i stored
    refine Prog.returns_bind (Prog.returns_trivial _) (fun text _ => ?_)
    refine Prog.returns_bind (Prog.returns_trivial _) (fun owner _ => ?_)
    refine Prog.returns_bind (Prog.returns_trivial _) (fun _ _ => ?_)
    intro conv hconv
    cases hconv
    exact hstored stored rfl

theorem onlyOps_updateThrough (cache : Option CacheService)
    {reads : ConversationReadings} {title : Option Text} {status : ConversationStatus}
    {event : ConversationEvent} (hfinds : forall o, Op.Finds c o -> P o)
    (hbatch : forall user old title createdAt parent bucket event,
      P (.batchUpdateConversation c user old reads.now title createdAt status parent bucket
        reads.eventId event)) :
    OnlyOps P
      (ConversationWrites.updateThrough cache reads c title status event) := by
  unfold ConversationWrites.updateThrough
  apply Prog.allOps_bind_returns
    (onlyOps_updateWithOutbox (hfinds _ rfl) (fun _ _ _ _ _ _ _ => hbatch _ _ _ _ _ _ _))
    returns_updateWithOutbox
  intro updated hupdated
  split
  · rename_i conv
    refine onlyOps_bind (onlyOps_setThrough cache ?_) (fun _ => onlyOps_ret _)
    rw [hupdated conv rfl]
    exact hfinds
  · exact onlyOps_ret _

theorem onlyOps_rename (cache : Option CacheService) {reads : ConversationReadings}
    {newTitle : Text} (hfinds : forall o, Op.Finds c o -> P o)
    (hbatch : forall user old title createdAt status parent bucket event,
      P (.batchUpdateConversation c user old reads.now title createdAt status parent bucket
        reads.eventId event)) :
    OnlyOps P (ConversationWrites.rename cache reads c newTitle) := by
  unfold ConversationWrites.rename
  refine onlyOps_bind (Prog.allOps_mono (onlyFinds_conversationGet cache c) hfinds)
    (fun found => ?_)
  split
  · exact onlyOps_ret _
  · exact onlyOps_updateThrough cache hfinds (fun _ _ _ _ _ _ _ => hbatch _ _ _ _ _ _ _ _)

theorem onlyOps_setTitle (cache : Option CacheService) {now : Datetime} {title : Json}
    (hselect : P (.selectConversation c)) (hevict : P (.deleteConversation c))
    (hbatch : forall user old title createdAt status parent,
      P (.batchUpdateTitle c user old now title createdAt status parent)) :
    OnlyOps P (ConversationWrites.setTitle cache now c title) := by
  unfold ConversationWrites.setTitle ConversationRepository.updateTitle
  refine onlyOps_bind (onlyOps_bind (onlyOps_repositoryGet hselect) (fun found => ?_))
    (fun success => ?_)
  · split
    · exact onlyOps_ret _
    · refine onlyOps_bind (onlyOps_cqlNullableText P _) (fun text => ?_)
      refine onlyOps_bind (onlyOps_catalogOwner P _) (fun owner => ?_)
      exact onlyOps_bind (onlyOps_perform (hbatch _ _ _ _ _ _)) (fun _ => onlyOps_ret _)
  · split
    · exact onlyOps_bind (onlyOps_evict cache hevict) (fun _ => onlyOps_ret _)
    · exact onlyOps_ret _

theorem onlyOps_hardDelete (hselect : P (.selectConversation c))
    (hbatch : forall user updatedAt, P (.batchHardDelete c user updatedAt)) :
    OnlyOps P (ConversationRepository.hardDelete c) := by
  unfold ConversationRepository.hardDelete
  refine onlyOps_bind (onlyOps_repositoryGet hselect) (fun found => ?_)
  split
  · exact onlyOps_ret _
  · refine onlyOps_bind (onlyOps_catalogOwner P _) (fun owner => ?_)
    exact onlyOps_bind (onlyOps_perform (hbatch _ _)) (fun _ => onlyOps_ret _)

end Conversations

/-!
# Workers
-/

section Workers

variable {P : Op -> Prop}

theorem onlyOps_attachSummary (svc : MessageService) {now : Datetime} {c m : UUID}
    {summary : Text} (hdelete : P (.deleteHistory c))
    (hinsert : forall content citations,
      P (.insertMessage c m .system content now .sent citations)) :
    OnlyOps P (svc.attachSummary now c m summary) := by
  unfold MessageService.attachSummary
  refine onlyOps_bind (onlyOps_createMessageDirect (fun _ _ _ => hinsert _ _))
    (fun _ => onlyOps_bind ?_ (fun _ => onlyOps_ret _))
  exact MessageService.onlyOps_invalidateCache svc hdelete

theorem onlyOps_handleChatResponseChunk (stream : StreamService) {event : Event}
    (hselect : forall key, P (.selectInbox key))
    (hrecord : forall key, P (.insertInbox key))
    (hpublish : forall c o, Op.Publishes c o -> P o) :
    OnlyOps P (Consumers.handleChatResponseChunk stream event) := by
  unfold Consumers.handleChatResponseChunk
  split
  · exact onlyOps_ret _
  · refine onlyOps_bind ?_ (fun key => ?_)
    · unfold Consumers.deriveEventId
      dsimp only
      split
      · exact onlyOps_ret _
      · exact onlyOps_raise _
    · refine onlyOps_bind (onlyOps_perform (hselect _)) (fun duplicate => ?_)
      split
      · exact onlyOps_ret _
      · refine onlyOps_bind ?_ (fun c => ?_)
        · unfold Consumers.parseConversationId
          split
          · split
            · exact onlyOps_ret _
            · exact onlyOps_raise _
          · exact onlyOps_raise _
        · refine onlyOps_bind ?_ (fun _ => onlyOps_perform (hrecord _))
          exact Prog.allOps_mono (onlyPublishes_publishToken stream c _) (hpublish c)

theorem onlyOps_processEntry (cache : CacheService) (stream : StreamService)
    {now : Datetime} {m : UUID} (hmarker : P (.getPending m))
    (hclear : forall o, Op.Clears m o -> P o)
    (hselect : forall c, P (.selectMessage c m)) (hdelete : forall c, P (.deleteHistory c))
    (hpublish : forall c o, Op.Publishes c o -> P o)
    (hinsert : forall c content citations,
      P (.insertMessage c m .assistant content now .failed citations)) :
    OnlyOps P (PendingTimeoutWorker.processEntry cache stream now m) := by
  unfold PendingTimeoutWorker.processEntry
  refine onlyOps_bind (onlyOps_perform hmarker) (fun marker => ?_)
  split
  · exact onlyOps_bind (onlyOps_perform (hclear _ rfl)) (fun _ => onlyOps_ret _)
  · rename_i c
    have hclears : forall b : Bool, OnlyOps P (perform (.deletePending m) >>= fun _ =>
        perform (.zremPending m) >>= fun _ => pure b) :=
      fun b => onlyOps_bind (onlyOps_perform (hclear _ rfl))
        (fun _ => onlyOps_bind (onlyOps_perform (hclear _ rfl)) (fun _ => onlyOps_ret b))
    refine onlyOps_bind (onlyOps_getMessage (hselect c)) (fun existing => ?_)
    split
    · exact hclears false
    · refine onlyOps_bind (onlyOps_createMessageDirect (fun _ _ _ => hinsert c _ _))
        (fun _ => ?_)
      refine onlyOps_bind (onlyOps_deleteLast50Messages cache (hdelete c))
        (fun _ => ?_)
      refine onlyOps_bind ?_ (fun _ => hclears true)
      exact Prog.allOps_mono (onlyPublishes_publishToken stream c _) (hpublish c)

theorem onlyOps_processExpiredPending (cache : CacheService) (stream : StreamService)
    {now : UUID -> Datetime} {nowTs : Nat} (hscan : P (.zrangePending nowTs))
    (hentry : forall m, OnlyOps P (PendingTimeoutWorker.processEntry cache stream (now m) m)) :
    OnlyOps P (PendingTimeoutWorker.processExpiredPending cache stream now nowTs) := by
  have hentries : forall (ids : List UUID) (failed : Nat),
      OnlyOps P (PendingTimeoutWorker.processEntries cache stream now failed ids) := by
    intro ids
    induction ids with
    | nil =>
        intro failed
        exact onlyOps_ret _
    | cons m rest ih =>
        intro failed
        exact onlyOps_bind (onlyOps_tryCatch (hentry m) (fun _ => onlyOps_ret _))
          (fun _ => ih _)
  unfold PendingTimeoutWorker.processExpiredPending
  exact onlyOps_bind (onlyOps_tryCatch (onlyOps_perform hscan) (fun _ => onlyOps_ret _))
    (fun ids => hentries ids 0)

theorem onlyOps_purge (cache : CacheService) {c : UUID} (hevict : P (.deleteConversation c))
    (hdelete : P (.deleteHistory c)) (hmessages : P (.deleteAllMessages c))
    (hselect : P (.selectConversation c))
    (hbatch : forall user updatedAt, P (.batchHardDelete c user updatedAt)) :
    OnlyOps P (CleanupWorker.purge cache c) := by
  unfold CleanupWorker.purge MessageRepository.deleteAllForConversation
  refine onlyOps_bind (onlyOps_deleteConversation cache hevict) (fun _ => ?_)
  refine onlyOps_bind (onlyOps_deleteLast50Messages cache hdelete) (fun _ => ?_)
  refine onlyOps_bind (onlyOps_bind (onlyOps_perform hmessages) (fun _ => onlyOps_ret _))
    (fun _ => ?_)
  exact onlyOps_bind (onlyOps_hardDelete hselect hbatch) (fun _ => onlyOps_ret _)

theorem onlyOps_cleanUp (cache : CacheService) (record : Record)
    (hpurge : forall c, OnlyOps P (CleanupWorker.purge cache c)) :
    OnlyOps P (CleanupWorker.processRecord cache record) := by
  unfold CleanupWorker.processRecord CleanupWorker.handleDeleted
  refine onlyOps_tryCatch ?_ (fun _ => onlyOps_ret _)
  split
  · exact onlyOps_raise _
  · refine onlyOps_bind ?_ (fun conversationIdStr => ?_)
    · unfold SummaryWorker.payloadGet
      split
      · exact onlyOps_ret _
      · exact onlyOps_raise _
    · split
      · refine onlyOps_bind ?_ hpurge
        unfold Consumers.uuidOfJson
        split
        · split
          · exact onlyOps_ret _
          · exact onlyOps_raise _
        · exact onlyOps_raise _
        · exact onlyOps_raise _
      · exact onlyOps_ret _
  · exact onlyOps_raise _

end Workers

end ConversationService
