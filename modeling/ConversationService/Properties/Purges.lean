import ConversationService.Effects.Purging
import ConversationService.Model.Replicas

/-!
# Purged conversations

The cleanup worker evicts the caches of a deleted conversation before it deletes the rows,
and nobody who writes asks whether the conversation still exists. What has been purged
stays purged as long as nothing that was read before a deletion is written after it.
-/

namespace ConversationService

open Python ClusteredTable Programs

/-!
# The program of a purge
-/

namespace CleanupWorker

/-- The record tells of the deletion of the conversation. -/
def Announces (record : Record) (c : UUID) : Prop :=
  exists event conversationIdStr,
    record.value = some (.obj event) ∧
    SummaryWorker.payloadGet (Json.getD event (text "payload") (.obj []))
      (text "conversation_id") = .ret conversationIdStr ∧
    conversationIdStr.truthy = true ∧
    Consumers.uuidOfJson conversationIdStr = .ret c

def removing (c user : UUID) (updatedAt : Datetime) : Py Unit :=
  .op (.batchHardDelete c user updatedAt) (fun _ => .ret ())

def reading (c : UUID) : Py Unit :=
  Prog.tryCatch (ConversationRepository.hardDelete c >>= fun _ => pure ())
    (fun _ => pure ())

def deleting (c : UUID) : Py Unit :=
  .op (.deleteAllMessages c) (fun answer =>
    match answer with
    | some _ => reading c
    | none => .ret ())

def evictingHistory (c : UUID) : Py Unit :=
  .op (.deleteHistory c) (fun _ => deleting c)

def evicting (c : UUID) : Py Unit :=
  .op (.deleteConversation c) (fun _ => evictingHistory c)

/-- How far a purge has got. -/
inductive PurgeStage (c : UUID) : Py Unit -> Prop where
  | evicting : PurgeStage c (evicting c)
  | evictingHistory : PurgeStage c (evictingHistory c)
  | deleting : PurgeStage c (deleting c)
  | reading : PurgeStage c (reading c)
  | removing (user : UUID) (updatedAt : Datetime) : PurgeStage c (removing c user updatedAt)
  | ended : PurgeStage c (.ret ())

theorem processRecord_eq {cache : CacheService} {record : Record} {c : UUID}
    (hredis : cache.redis = true) (hrecord : Announces record c) :
    processRecord cache record = evicting c := by
  rcases hrecord with ⟨event, conversationIdStr, hvalue, hget, htruthy, huuid⟩
  have hpurge : Prog.tryCatch (purge cache c) (fun _ => pure ()) = evicting c := by
    have hcache : cache = ⟨true⟩ := by
      rcases cache with ⟨redis⟩
      cases hredis
      rfl
    subst hcache
    show Prog.op _ _ = Prog.op _ _
    congr
    funext answer
    have hhistory : Prog.tryCatch (CacheService.deleteLast50Messages ⟨true⟩ c >>= fun _ =>
        MessageRepository.deleteAllForConversation c >>= fun _ =>
          ConversationRepository.hardDelete c >>= fun _ => pure ()) (fun _ => pure ()) =
        evictingHistory c := by
      show Prog.op _ _ = Prog.op _ _
      congr
      funext answer
      have hmessages : Prog.tryCatch
          (MessageRepository.deleteAllForConversation c >>= fun _ =>
            ConversationRepository.hardDelete c >>= fun _ => pure ()) (fun _ => pure ()) =
          deleting c := by
        show Prog.op _ _ = Prog.op _ _
        congr
        funext answer
        cases answer with
        | none => rfl
        | some _ => rfl
      cases answer with
      | none => exact hmessages
      | some _ => exact hmessages
    cases answer with
    | none => exact hhistory
    | some _ => exact hhistory
  rw [← hpurge]
  unfold processRecord handleDeleted
  rw [hvalue]
  dsimp only
  rw [hget, Prog.ret_bind, if_pos htruthy, huuid, Prog.ret_bind]

section Stages

variable {P : Op -> Prop} {c : UUID}

theorem onlyOps_reading (hselect : P (.selectConversation c))
    (hbatch : forall user updatedAt, P (.batchHardDelete c user updatedAt)) :
    OnlyOps P (reading c) :=
  onlyOps_tryCatch (onlyOps_bind (onlyOps_hardDelete hselect hbatch)
    (fun _ => onlyOps_ret _)) (fun _ => onlyOps_ret _)

theorem onlyOps_deleting (hmessages : P (.deleteAllMessages c))
    (hselect : P (.selectConversation c))
    (hbatch : forall user updatedAt, P (.batchHardDelete c user updatedAt)) :
    OnlyOps P (deleting c) := by
  refine ⟨hmessages, ?_⟩
  intro answer
  cases answer with
  | none => trivial
  | some _ => exact onlyOps_reading hselect hbatch

theorem onlyOps_stage {p : Py Unit} (hstage : PurgeStage c p)
    (hevict : P (.deleteConversation c)) (hdelete : P (.deleteHistory c))
    (hmessages : P (.deleteAllMessages c)) (hselect : P (.selectConversation c))
    (hbatch : forall user updatedAt, P (.batchHardDelete c user updatedAt)) :
    OnlyOps P p := by
  have hdeleting : OnlyOps P (deleting c) := onlyOps_deleting hmessages hselect hbatch
  have hhistory : OnlyOps P (evictingHistory c) := ⟨hdelete, fun _ => hdeleting⟩
  cases hstage with
  | evicting => exact ⟨hevict, fun _ => hhistory⟩
  | evictingHistory => exact hhistory
  | deleting => exact hdeleting
  | reading => exact onlyOps_reading hselect hbatch
  | removing user updatedAt => exact ⟨hbatch user updatedAt, fun _ => trivial⟩
  | ended => trivial

theorem reading_next {s : Store} (h : Purgeable c s) :
    (s.conversations c = none ∧ exists next, reading c = .op (.selectConversation c) next ∧
      next (some (s.conversations c)) = .ret ()) ∨
    exists user updatedAt next, (Op.batchHardDelete c user updatedAt).FindsRow s ∧
      reading c = .op (.selectConversation c) next ∧
      next (some (s.conversations c)) = removing c user updatedAt := by
  cases hrow : s.conversations c with
  | none => exact Or.inl ⟨rfl, _, rfl, rfl⟩
  | some row =>
      rcases h.complete row hrow with ⟨hstatus, huser, htime⟩
      rcases row with ⟨userId, title, createdAt, updatedAt, status, parent, branch⟩
      cases status with
      | none => cases hstatus
      | some status =>
          cases userId with
          | none => cases huser
          | some user =>
              cases updatedAt with
              | none => cases htime
              | some updatedAt =>
                  refine Or.inr ⟨user, updatedAt, _, ⟨_, hrow, rfl, rfl⟩, rfl, ?_⟩
                  show Prog.op _ _ = Prog.op _ _
                  congr
                  funext answer
                  cases answer with
                  | none => rfl
                  | some _ => rfl

end Stages

end CleanupWorker

/-!
# The calls beside a purge
-/

/-- Reads, renames, events, timeout passes and purges of any conversations. -/
def ServiceCall.MeetsPurge : ServiceCall -> Prop
  | .message (.generated _ _) => True
  | .message (.chunk _) => True
  | .message (.attachSummary _ _ _ _) => True
  | .message (.timeoutPass _ _) => True
  | .conversation (.get _) => True
  | .conversation (.rename _ _ _) => True
  | .conversation (.setTitle _ _ _) => True
  | .history _ _ _ => True
  | .cleanUp _ => True
  | _ => False

/-- The call purges the conversation. -/
def ServiceCall.Purges (c : UUID) : ServiceCall -> Prop
  | .cleanUp record => CleanupWorker.Announces record c
  | _ => False

def Op.FillsNothing : Op -> Prop
  | .hsetConversation _ _ => False
  | .rpushHistory _ _ => False
  | _ => True

/-- Lookups and renames fill the cached conversation, -/
def ServiceCall.FillsConversations : ServiceCall -> Prop
  | .conversation (.get _) => True
  | .conversation (.rename _ _ _) => True
  | _ => False

/-- and histories the cached list. -/
def ServiceCall.FillsHistories : ServiceCall -> Prop
  | .history _ _ _ => True
  | _ => False

section Start

variable {d : Deployment} {cache : Option CacheService} {c : UUID} {call : ServiceCall}

theorem onlyOps_meetsPurge {P : Op -> Prop} (hcall : call.MeetsPurge)
    (hother : forall o, o.CreatesNothing -> o.FillsNothing -> P o)
    (hconversation : call.FillsConversations -> forall c' conv,
      P (.hsetConversation c' conv))
    (hhistory : call.FillsHistories -> forall c' messages, P (.rpushHistory c' messages)) :
    OnlyOps P (call.program d cache) := by
  have hpublish : forall c' o, Op.Publishes c' o -> P o := by
    intro c' o ho
    apply hother <;> cases o <;> trivial
  have hclear : forall r o, Op.Clears r o -> P o := by
    intro r o ho
    apply hother <;> cases o <;> trivial
  have hfinds : call.FillsConversations -> forall c' o, Op.Finds c' o -> P o := by
    intro hfills c' o ho
    cases o with
    | hsetConversation c'' conv => exact hconversation hfills c'' conv
    | _ => apply hother <;> trivial
  have hplain : forall o : Op, o.CreatesNothing ∧ o.FillsNothing -> P o :=
    fun o ho => hother o ho.left ho.right
  cases call with
  | message call =>
      cases call with
      | send _ _ => exact hcall.elim
      | regenerate _ _ _ _ => exact hcall.elim
      | delete _ _ => exact hcall.elim
      | attachSummary now c' m summary =>
          exact onlyOps_bind (onlyOps_attachSummary d.consumer (hplain _ ⟨trivial, trivial⟩)
            (fun _ _ => hplain _ ⟨trivial, trivial⟩)) (fun _ => onlyOps_ret _)
      | chunk event =>
          exact onlyOps_handleChatResponseChunk d.stream
            (fun _ => hplain _ ⟨trivial, trivial⟩) (fun _ => hplain _ ⟨trivial, trivial⟩)
            hpublish
      | generated now event =>
          exact onlyOps_handleChatResponseGenerated d.consumer d.stream
            (fun _ => hplain _ ⟨trivial, trivial⟩) (fun _ => hplain _ ⟨trivial, trivial⟩)
            (fun _ _ _ => hplain _ ⟨trivial, trivial⟩)
            (fun _ _ _ => hplain _ ⟨trivial, trivial⟩) (fun _ c' o _ ho => hpublish c' o ho)
            (fun _ _ _ _ _ _ => hplain _ ⟨trivial, trivial⟩)
            (fun r _ o _ ho => hclear r o ho)
      | timeoutPass now nowTs =>
          refine onlyOps_bind (onlyOps_processExpiredPending d.workerCache d.stream
            (hplain _ ⟨trivial, trivial⟩) (fun m => ?_)) (fun _ => onlyOps_ret _)
          exact onlyOps_processEntry d.workerCache d.stream (hplain _ ⟨trivial, trivial⟩)
            (hclear m) (fun _ => hplain _ ⟨trivial, trivial⟩)
            (fun _ => hplain _ ⟨trivial, trivial⟩) hpublish
            (fun _ _ _ => hplain _ ⟨trivial, trivial⟩)
  | conversation call =>
      cases call with
      | create _ _ _ _ _ _ => exact hcall.elim
      | archive _ _ => exact hcall.elim
      | delete _ _ => exact hcall.elim
      | get c' =>
          exact onlyOps_bind (Prog.allOps_mono (onlyFinds_conversationGet cache c')
            (hfinds trivial c')) (fun _ => onlyOps_ret _)
      | rename reads c' newTitle =>
          exact onlyOps_bind (onlyOps_rename cache (hfinds trivial c')
            (fun _ _ _ _ _ _ _ _ => hplain _ ⟨trivial, trivial⟩)) (fun _ => onlyOps_ret _)
      | setTitle now c' title =>
          exact onlyOps_bind (onlyOps_setTitle cache (hplain _ ⟨trivial, trivial⟩)
            (hplain _ ⟨trivial, trivial⟩)
            (fun _ _ _ _ _ _ => hplain _ ⟨trivial, trivial⟩)) (fun _ => onlyOps_ret _)
  | history c' limit cursor =>
      refine onlyOps_bind (Prog.allOps_mono (MessageService.onlyPages_history d.api c' limit
        cursor) ?_) (fun _ => onlyOps_ret _)
      intro o ho
      cases o with
      | rpushHistory c'' messages => exact hhistory trivial c'' messages
      | _ => apply hother <;> trivial
  | cleanUp record =>
      exact onlyOps_cleanUp d.workerCache record (fun c' => onlyOps_purge d.workerCache
        (hplain _ ⟨trivial, trivial⟩) (hplain _ ⟨trivial, trivial⟩)
        (hplain _ ⟨trivial, trivial⟩) (hplain _ ⟨trivial, trivial⟩)
        (fun _ _ => hplain _ ⟨trivial, trivial⟩))

theorem rereadsConversation_start (hcall : call.MeetsPurge) :
    RereadsConversation c (call.program d cache) := by
  have hnever : ¬call.FillsConversations -> RereadsConversation c (call.program d cache) := by
    intro hfills
    refine Prog.guarded_of_allOps (onlyOps_meetsPurge hcall ?_ (fun h => absurd h hfills)
      (fun _ _ _ h => h))
    intro o _ ho
    cases o <;> first | exact fun h => h | exact ho.elim
  cases call with
  | conversation call =>
      cases call with
      | get c' => exact rereadsConversation_get
      | rename reads c' newTitle => exact rereadsConversation_rename
      | _ => exact hnever (fun h => h)
  | _ => exact hnever (fun h => h)

theorem rereadsHistory_start (hcall : call.MeetsPurge) :
    RereadsHistory c (call.program d cache) := by
  have hnever : ¬call.FillsHistories -> RereadsHistory c (call.program d cache) := by
    intro hfills
    refine Prog.guarded_of_allOps (onlyOps_meetsPurge hcall ?_ (fun _ _ _ h => h)
      (fun h => absurd h hfills))
    intro o _ ho
    cases o <;> first | exact fun h => h | exact ho.elim
  cases call with
  | history c' limit cursor => exact rereadsHistory_history
  | _ => exact hnever (fun h => h)

end Start

/-!
# Undisturbed purges
-/

/-- A task that purges the conversation has the operation behind it. -/
def HasPurged (c : UUID) (o : Op) (t : ServiceTask) : Prop :=
  t.call.Purges c ∧ OnlyOps (fun o' => o' ≠ o) t.prog

def afterNext (s : Store) (t : ServiceTask) : ServiceTask :=
  match t.prog with
  | .op o next => ⟨t.call, next (some (o.exec s).1)⟩
  | _ => t

/--
When a purge is done with a cache, nobody has in hand what would fill it again, and
while the purge is under way nobody reads it.
-/
def Separated (done underWay : ServiceTask -> Prop) (rereads : Py Unit -> Prop)
    (pool : ServicePool) (t : ServiceTask) : Prop :=
  forall q, q ∈ pool.tasks ->
    (done (afterNext pool.store t) -> rereads q.prog) ∧
    (done q -> underWay q -> rereads (afterNext pool.store t).prog)

/--
A batch on the conversation finds the row that was read before it. No message is
inserted behind a purge, and nothing that was read before a deletion fills a cache
after it.
-/
structure Undisturbed (c : UUID) (pool : ServicePool) (t : ServiceTask) : Prop where
  meets : onNext (Op.MeetsRow c) pool t
  inserts : onNext (fun _ o => o.InsertsInto c ->
    forall q, q ∈ pool.tasks -> ¬HasPurged c (.deleteAllMessages c) q) pool t
  conversation : Separated (HasPurged c (.deleteConversation c)) (fun q => q.prog.Running)
    (RereadsConversation c) pool t
  history : Separated (HasPurged c (.deleteHistory c))
    (fun q => ¬HasPurged c (.deleteAllMessages c) q) (RereadsHistory c) pool t

def purgeRules (d : Deployment) (cache : Option CacheService) (c : UUID) :
    Rules ServiceCall storage PyExc Unit Store :=
  stoppable (ServiceCall.program d cache) (Undisturbed c) (fun _ call => call.MeetsPurge)

/-- What holds of a task beside which a conversation is purged. -/
structure PurgeKnows (c : UUID) (s : Store) (t : ServiceTask) : Prop where
  creates : OnlyOps Op.CreatesNothing t.prog
  stage : t.call.Purges c -> CleanupWorker.PurgeStage c t.prog
  cached : HasPurged c (.deleteConversation c) t -> s.conversationCache c = none
  history : HasPurged c (.deleteHistory c) t -> s.historyCache c = none
  messages : HasPurged c (.deleteAllMessages c) t -> s.messages c = .empty
  gone : t.call.Purges c -> ¬t.prog.Running -> s.conversations c = none

/-- What one task leaves of a conversation is not put back by the other. -/
structure KeepsOut (c : UUID) (p q : ServiceTask) : Prop where
  conversation : HasPurged c (.deleteConversation c) p -> RereadsConversation c q.prog
  history : HasPurged c (.deleteHistory c) p -> RereadsHistory c q.prog

def KeepApart (c : UUID) (p q : ServiceTask) : Prop :=
  KeepsOut c p q ∧ KeepsOut c q p

section Undisturbed

variable {d : Deployment} {cache : Option CacheService} {c : UUID}

theorem rereadsConversation_stage {p : Py Unit} (h : CleanupWorker.PurgeStage c p) :
    RereadsConversation c p :=
  Prog.guarded_of_allOps (CleanupWorker.onlyOps_stage h (fun h => h) (fun h => h)
    (fun h => h) (fun h => h) (fun _ _ h => h))

theorem rereadsHistory_stage {p : Py Unit} (h : CleanupWorker.PurgeStage c p) :
    RereadsHistory c p :=
  Prog.guarded_of_allOps (CleanupWorker.onlyOps_stage h (fun h => h) (fun h => h)
    (fun h => h) (fun h => h) (fun _ _ h => h))

theorem purgeKnows_of_not {s : Store} {t : ServiceTask} (hcall : ¬t.call.Purges c)
    (hcreates : OnlyOps Op.CreatesNothing t.prog) : PurgeKnows c s t :=
  { creates := hcreates
    stage := fun h => absurd h hcall
    cached := fun h => absurd h.left hcall
    history := fun h => absurd h.left hcall
    messages := fun h => absurd h.left hcall
    gone := fun h => absurd h hcall }

/-- Each operation of a purge removes its piece and leaves the others removed. -/
theorem purgeKnows_own {s : Store} {call : ServiceCall} {o : Op}
    {next : Option o.Res -> Py Unit} (hs : Purgeable c s)
    (h : PurgeKnows c s ⟨call, .op o next⟩) :
    PurgeKnows c (o.exec s).2 ⟨call, next (some (o.exec s).1)⟩ := by
  by_cases hcall : call.Purges c
  · have hstage := h.stage hcall
    have hcreates := h.creates.right (some (o.exec s).1)
    have hread : forall o', (forall user updatedAt, Op.batchHardDelete c user updatedAt ≠ o') ->
        Op.selectConversation c ≠ o' ->
        OnlyOps (fun o => o ≠ o') (CleanupWorker.reading c) := by
      intro o' hbatch hselect
      exact CleanupWorker.onlyOps_reading hselect hbatch
    generalize hp : (Prog.op o next : Py Unit) = p at hstage
    cases hstage with
    | evicting =>
        cases hp
        refine ⟨hcreates, fun _ => .evictingHistory, fun _ => Function.update_self _ _ _, ?_,
          ?_, fun _ hended => absurd trivial hended⟩
        · intro hhas
          exact absurd rfl hhas.right.left
        · intro hhas
          exact absurd rfl (hhas.right.right none).left
    | evictingHistory =>
        cases hp
        refine ⟨hcreates, fun _ => .deleting, ?_, fun _ => Function.update_self _ _ _, ?_,
          fun _ hended => absurd trivial hended⟩
        · intro hhas
          exact h.cached ⟨hcall, by simp, fun _ => hhas.right⟩
        · intro hhas
          exact absurd rfl hhas.right.left
    | deleting =>
        cases hp
        refine ⟨hcreates, fun _ => .reading, ?_, ?_, fun _ => Function.update_self _ _ _,
          fun _ hended => absurd trivial hended⟩
        · intro _
          exact h.cached ⟨hcall, CleanupWorker.onlyOps_deleting (by simp) (by simp) (by simp)⟩
        · intro _
          exact h.history ⟨hcall, CleanupWorker.onlyOps_deleting (by simp) (by simp) (by simp)⟩
    | reading =>
        have hcached := h.cached ⟨hcall, hp ▸ hread _ (by simp) (by simp)⟩
        have hhistory := h.history ⟨hcall, hp ▸ hread _ (by simp) (by simp)⟩
        have hmessages := h.messages ⟨hcall, hp ▸ hread _ (by simp) (by simp)⟩
        rcases CleanupWorker.reading_next hs with ⟨hrow, rest, hreading, hnext⟩ |
          ⟨user, updatedAt, rest, _, hreading, hnext⟩
        · cases hp.trans hreading
          refine ⟨hcreates, fun _ => ?_, fun _ => hcached, fun _ => hhistory,
            fun _ => hmessages, fun _ _ => hrow⟩
          show CleanupWorker.PurgeStage c (rest (some (s.conversations c)))
          rw [hnext]
          exact .ended
        · cases hp.trans hreading
          refine ⟨hcreates, fun _ => ?_, fun _ => hcached, fun _ => hhistory,
            fun _ => hmessages, fun _ hended => ?_⟩
          · show CleanupWorker.PurgeStage c (rest (some (s.conversations c)))
            rw [hnext]
            exact .removing user updatedAt
          · change ¬(rest (some (s.conversations c))).Running at hended
            rw [hnext] at hended
            exact absurd trivial hended
    | removing user updatedAt =>
        cases hp
        have hleft : forall o', Op.batchHardDelete c user updatedAt ≠ o' ->
            HasPurged c o' ⟨call, CleanupWorker.removing c user updatedAt⟩ :=
          fun o' hne => ⟨hcall, hne, fun _ => trivial⟩
        exact
          { creates := hcreates
            stage := fun _ => .ended
            cached := fun _ => h.cached (hleft _ (by simp))
            history := fun _ => h.history (hleft _ (by simp))
            messages := fun _ => h.messages (hleft _ (by simp))
            gone := fun _ _ => Function.update_self _ _ _ }
    | ended => cases hp
  · exact purgeKnows_of_not hcall (h.creates.right _)

/-- What a task knows is left to it by an undisturbed step of another one. -/
theorem purgeKnows_other {pool : ServicePool} {call : ServiceCall} {o : Op}
    {next : Option o.Res -> Py Unit} {q : ServiceTask}
    (hcreates : OnlyOps Op.CreatesNothing (.op o next))
    (hpermits : Undisturbed c pool ⟨call, .op o next⟩) (hq : q ∈ pool.tasks)
    (hapart : KeepsOut c q ⟨call, .op o next⟩) (h : PurgeKnows c pool.store q) :
    PurgeKnows c (o.exec pool.store).2 q :=
  { creates := h.creates
    stage := h.stage
    cached := fun hhas =>
      conversationCache_exec (h.cached hhas) (hapart.conversation hhas).left
    history := fun hhas => historyCache_exec (h.history hhas) (hapart.history hhas).left
    messages := fun hhas =>
      messages_exec (h.messages hhas) hcreates.left
        (fun hinserts => hpermits.inserts hinserts q hq hhas)
    gone := fun hcall hended =>
      conversations_exec (h.gone hcall hended) hcreates.left hpermits.meets }

theorem keepsOut_next {pool : ServicePool} {call : ServiceCall} {o : Op}
    {next : Option o.Res -> Py Unit} {q : ServiceTask}
    (hpermits : Undisturbed c pool ⟨call, .op o next⟩) (hq : q ∈ pool.tasks)
    (hknows : PurgeKnows c pool.store q) (h : KeepsOut c q ⟨call, .op o next⟩) :
    KeepsOut c q ⟨call, next (some (o.exec pool.store).1)⟩ := by
  constructor
  · intro hhas
    by_cases hrunning : q.prog.Running
    · exact (hpermits.conversation q hq).right hhas hrunning
    · have hgone := hknows.gone hhas.left hrunning
      apply Prog.guarded_next (h.conversation hhas)
      intro hshows
      cases o with
      | selectConversation c' =>
          rcases hshows with ⟨rfl, hsome⟩
          change (pool.store.conversations c').isSome = true at hsome
          rw [hgone] at hsome
          cases hsome
      | _ => exact hshows
  · intro hhas
    by_cases hdeleted : HasPurged c (.deleteAllMessages c) q
    · have hempty := hknows.messages hdeleted
      apply Prog.guarded_next (h.history hhas)
      intro hshows
      cases o with
      | selectHistory c' limit cursor =>
          rcases hshows with ⟨rfl, hrows⟩
          apply hrows
          cases cursor with
          | none => simp [Op.exec, hempty, Partition.empty]
          | some k => simp [Op.exec, hempty, Partition.empty]
      | _ => exact hshows
    · exact (hpermits.history q hq).right hhas hdeleted

theorem localProof_purge (hredis : d.workerCache.redis = true) :
    Pool.LocalProof (purgeRules d cache c) (fun pool => Purgeable c pool.store)
      (PurgeKnows c) (KeepApart c) := by
  constructor
  case symm =>
    intro p q h
    exact ⟨h.right, h.left⟩
  case own =>
    intro before after call o next s h hpermits
    have hknows := h.each _ (List.mem_append_right before List.mem_cons_self)
    exact ⟨purgeable_exec h.shared hknows.creates.left hpermits.meets,
      purgeKnows_own h.shared hknows⟩
  case ownFault =>
    intro _ _ _ _ _ _ _ hfail
    exact hfail.elim
  case stable =>
    intro pool call o next q h hmem hpermits hq hapart
    exact purgeKnows_other (h.each _ hmem).creates hpermits hq hapart.right (h.each q hq)
  case apartNext =>
    intro pool call o next q h hmem hpermits hq hapart
    refine ⟨⟨?_, ?_⟩, keepsOut_next hpermits hq (h.each q hq) hapart.right⟩
    · exact (hpermits.conversation q hq).left
    · exact (hpermits.history q hq).left
  case apartFault =>
    intro _ _ _ _ _ _ _ hfail
    exact hfail.elim
  case stopped =>
    intro _ _ _ _ _ _ h _ _
    exact h.shared
  case started =>
    intro pool call h hstart
    have hcreates : OnlyOps Op.CreatesNothing (call.program d cache) :=
      onlyOps_meetsPurge hstart (fun _ ho _ => ho) (fun _ _ _ => trivial)
        (fun _ _ _ => trivial)
    have hnothing : forall o, o = .deleteConversation c ∨ o = .deleteHistory c ->
        ¬HasPurged c o ⟨call, call.program d cache⟩ := by
      intro o ho hhas
      have hall := hhas.right
      cases call with
      | cleanUp record =>
          change OnlyOps _ (CleanupWorker.processRecord d.workerCache record) at hall
          rw [CleanupWorker.processRecord_eq hredis hhas.left] at hall
          rcases ho with rfl | rfl
          · exact hall.left rfl
          · exact (hall.right none).left rfl
      | _ => exact hhas.left
    refine ⟨h.shared, ?_, ?_⟩
    · by_cases hcall : call.Purges c
      · cases call with
        | cleanUp record =>
            have hprog := CleanupWorker.processRecord_eq hredis hcall
            refine ⟨hcreates, fun _ => ?_, ?_, ?_, ?_, ?_⟩
            · show CleanupWorker.PurgeStage c (CleanupWorker.processRecord d.workerCache record)
              rw [hprog]
              exact .evicting
            · exact fun hhas => absurd hhas (hnothing _ (Or.inl rfl))
            · exact fun hhas => absurd hhas (hnothing _ (Or.inr rfl))
            · intro hhas
              have hall := hhas.right
              change OnlyOps _ (CleanupWorker.processRecord d.workerCache record) at hall
              rw [hprog] at hall
              exact absurd rfl ((hall.right none).right none).left
            · intro _ hended
              change ¬(CleanupWorker.processRecord d.workerCache record).Running at hended
              rw [hprog] at hended
              exact absurd trivial hended
        | _ => exact hcall.elim
      · exact purgeKnows_of_not hcall hcreates
    · intro q hq
      refine ⟨⟨fun _ => rereadsConversation_start hstart,
        fun _ => rereadsHistory_start hstart⟩, ⟨?_, ?_⟩⟩
      · exact fun hhas => absurd hhas (hnothing _ (Or.inl rfl))
      · exact fun hhas => absurd hhas (hnothing _ (Or.inr rfl))
  case moved =>
    intro tasks s t h hmove
    refine ⟨purgeable_elapsed h.shared hmove, ?_⟩
    intro q hq
    have hknows := h.each q hq
    refine ⟨hknows.creates, hknows.stage, ?_, ?_, ?_, ?_⟩
    · intro hhas
      rcases hmove.conversationCache c with hsame | hnone
      · exact hsame.trans (hknows.cached hhas)
      · exact hnone
    · intro hhas
      rcases hmove.historyCache c with hsame | hnone
      · exact hsame.trans (hknows.history hhas)
      · exact hnone
    · intro hhas
      rw [hmove.rest]
      exact hknows.messages hhas
    · intro hcall hended
      rw [hmove.rest]
      exact hknows.gone hcall hended

end Undisturbed

/--
Once an undisturbed purge has ended, nothing is left of the conversation, then and ever
after.
-/
theorem undisturbed_purged (d : Deployment) (cache : Option CacheService) (c : UUID)
    (s : Store) (pool : ServicePool) (t : ServiceTask)
    (hredis : d.workerCache.redis = true) (hs : Purgeable c s)
    (hreach : Pool.Reaches (purgeRules d cache c) (startingFrom s) pool)
    (ht : t ∈ pool.tasks) (hpurges : t.call.Purges c) (hended : ¬t.prog.Running) :
    Purged c pool.store := by
  have hholds := Pool.holds_reaches (localProof_purge hredis) hreach
    ⟨hs, fun _ h => (List.not_mem_nil h).elim, List.Pairwise.nil⟩
  have hknows := hholds.each t ht
  have hdone : forall o, HasPurged c o t := by
    intro o
    refine ⟨hpurges, ?_⟩
    cases hprog : t.prog with
    | op o' next =>
        rw [hprog] at hended
        exact absurd trivial hended
    | ret _ => trivial
    | raise _ => trivial
  have hgone := hknows.gone hpurges hended
  constructor
  · intro id
    unfold Store.row
    rw [hknows.messages (hdone _)]
    rfl
  · exact hgone
  · intro user k entry hget hk
    rcases hholds.shared.placed user k entry hget hk with ⟨row, _, hrow, _⟩
    rw [hgone] at hrow
    cases hrow
  · exact hknows.cached (hdone _)
  · exact hknows.history (hdone _)

/-- The program has nothing in hand that would fill a cache of the conversation. -/
def HasNothingRead (c : UUID) (p : Py Unit) : Prop :=
  RereadsConversation c p ∧ RereadsHistory c p

section Purging

variable {d : Deployment} {cache : Option CacheService} {c : UUID}

theorem hasNothingRead_start {call : ServiceCall} (hcall : call.MeetsPurge) :
    HasNothingRead c (call.program d cache) :=
  ⟨rereadsConversation_start hcall, rereadsHistory_start hcall⟩

theorem hasNothingRead_stage {p : Py Unit} (h : CleanupWorker.PurgeStage c p) :
    HasNothingRead c p :=
  ⟨rereadsConversation_stage h, rereadsHistory_stage h⟩

theorem step_hasNothingRead {before after : List ServiceTask} {call : ServiceCall}
    {s : Store} {o : Op} {next : Option o.Res -> Py Unit}
    (htasks : forall q, q ∈ before ++ after -> HasNothingRead c q.prog)
    (htask : HasNothingRead c (.op o next))
    (hnext : HasNothingRead c (next (some (o.exec s).1)))
    (hmeets : o.MeetsRow c s) (hinserts : ¬o.InsertsInto c) :
    Pool.Step (purgeRules d cache c) ⟨s, before ++ ⟨call, .op o next⟩ :: after⟩
      ⟨(o.exec s).2, before ++ ⟨call, next (some (o.exec s).1)⟩ :: after⟩ := by
  have hall : forall q, q ∈ before ++ ⟨call, .op o next⟩ :: after ->
      HasNothingRead c q.prog := by
    intro q hq
    rcases Pool.mem_replace hq with rfl | hother
    · exact htask
    · exact htasks q hother
  have hpermits : Undisturbed c ⟨s, before ++ ⟨call, .op o next⟩ :: after⟩
      ⟨call, .op o next⟩ :=
    { meets := hmeets
      inserts := fun h => absurd h hinserts
      conversation := fun q hq => ⟨fun _ => (hall q hq).left, fun _ _ => hnext.left⟩
      history := fun q hq => ⟨fun _ => (hall q hq).right, fun _ _ => hnext.right⟩ }
  exact Pool.Step.perform before after call o next s hpermits

/-- Beside such tasks a purge can run from its start to its end. -/
theorem reaches_purged {tasks : List ServiceTask} {record : Record} {s : Store}
    (hredis : d.workerCache.redis = true) (hrecord : CleanupWorker.Announces record c)
    (hs : Purgeable c s) (htasks : forall q, q ∈ tasks -> HasNothingRead c q.prog) :
    exists t, Pool.Reaches (purgeRules d cache c) ⟨s, tasks⟩
      ⟨t, tasks ++ [⟨.cleanUp record, .ret ()⟩]⟩ := by
  have hstart : Pool.Step (purgeRules d cache c) ⟨s, tasks⟩
      ⟨s, tasks ++ [⟨.cleanUp record, CleanupWorker.evicting c⟩]⟩ := by
    rw [← CleanupWorker.processRecord_eq hredis hrecord]
    exact Pool.Step.start tasks (.cleanUp record) s trivial
  have hother : forall o : Op, o.tableTarget = none -> forall s, Op.MeetsRow c s o := by
    intro o ho s
    cases o with
    | batchCreateConversation _ _ _ _ _ _ _ _ _ _ => cases ho
    | batchUpdateConversation _ _ _ _ _ _ _ _ _ _ _ => cases ho
    | batchUpdateTitle _ _ _ _ _ _ _ _ => cases ho
    | batchHardDelete _ _ _ => cases ho
    | _ =>
        intro h
        cases h
  have hstep : forall (s : Store) (o : Op) (next : Option o.Res -> Py Unit),
      CleanupWorker.PurgeStage c (.op o next) ->
      CleanupWorker.PurgeStage c (next (some (o.exec s).1)) -> o.MeetsRow c s ->
      ¬o.InsertsInto c ->
      Pool.Step (purgeRules d cache c) ⟨s, tasks ++ [⟨.cleanUp record, .op o next⟩]⟩
        ⟨(o.exec s).2, tasks ++ [⟨.cleanUp record, next (some (o.exec s).1)⟩]⟩ := by
    intro s o next hbefore hafter hmeets hinserts
    apply step_hasNothingRead _ (hasNothingRead_stage hbefore) (hasNothingRead_stage hafter)
      hmeets hinserts
    rw [List.append_nil]
    exact htasks
  let forgotten := ((Op.deleteHistory c).exec ((Op.deleteConversation c).exec s).2).2
  let emptied := ((Op.deleteAllMessages c).exec forgotten).2
  have hemptied : Purgeable c emptied := ⟨hs.complete, hs.placed⟩
  have hread : exists t, Pool.Reaches (purgeRules d cache c)
      ⟨emptied, tasks ++ [⟨.cleanUp record, CleanupWorker.reading c⟩]⟩
      ⟨t, tasks ++ [⟨.cleanUp record, .ret ()⟩]⟩ := by
    rcases CleanupWorker.reading_next hemptied with ⟨hrow, next, hreading, hnext⟩ |
      ⟨user, updatedAt, next, hfinds, hreading, hnext⟩
    · have hread := hstep emptied (.selectConversation c) next (hreading ▸ .reading)
        (hnext ▸ .ended) (hother _ rfl _) (fun h => h)
      change Pool.Step _ _ ⟨emptied, tasks ++ [⟨_, next (some (emptied.conversations c))⟩]⟩
        at hread
      rw [hreading]
      rw [hnext] at hread
      exact ⟨emptied, .single hread⟩
    · have hread := hstep emptied (.selectConversation c) next (hreading ▸ .reading)
        (hnext ▸ .removing user updatedAt) (hother _ rfl _) (fun h => h)
      change Pool.Step _ _ ⟨emptied, tasks ++ [⟨_, next (some (emptied.conversations c))⟩]⟩
        at hread
      have hremoves := hstep emptied (.batchHardDelete c user updatedAt) (fun _ => .ret ())
        (.removing user updatedAt) .ended (fun _ => Or.inr hfinds) (fun h => h)
      rw [hreading]
      rw [hnext] at hread
      exact ⟨_, .head hread (.single hremoves)⟩
  rcases hread with ⟨t, hread⟩
  refine ⟨t, .head hstart ?_⟩
  refine .head (hstep _ _ _ .evicting .evictingHistory (hother _ rfl _) (fun h => h)) ?_
  refine .head (hstep _ _ _ .evictingHistory .deleting (hother _ rfl _) (fun h => h)) ?_
  exact .head (hstep _ _ _ .deleting .reading (hother _ rfl _) (fun h => h)) hread

end Purging

/-!
# A purge between two operations of a lookup

Conversation 1 has been deleted, and one of its messages is still there.
-/

def deletedRow : ConversationRow :=
  { userId := some (.ofInt 5), title := some (text "A"), createdAt := some ⟨0, false⟩,
    updatedAt := some ⟨0, false⟩, status := some .deleted, parentConversationId := none,
    branchMessageId := none }

def deletedStore : Store :=
  ((Store.blank.setConversationRow (.ofInt 1) (some deletedRow)).setCatalog (.ofInt 5)
    (Partition.empty.upsert (Store.catalogKey ⟨0, false⟩ (.ofInt 1)) (fun _ =>
      { title := some (text "A"), createdAt := some ⟨0, false⟩, status := .deleted,
        parentConversationId := none }))).upsertMessage (.ofInt 1) (.ofInt 2) (fun _ =>
          { sender := some .user, content := some (text "q"), createdAt := some ⟨0, false⟩,
            status := .sent, fileIds := [], citations := none })

def deletionRecord : Record :=
  { topic := text "conversation.deleted"
    value := some (.obj [(text "payload", .obj
      [(text "conversation_id", .str (UUID.ofInt 1).toText)])]) }

theorem announces_deletionRecord : CleanupWorker.Announces deletionRecord (.ofInt 1) := by
  refine ⟨_, .str (UUID.ofInt 1).toText, rfl, rfl, by decide, ?_⟩
  show ((UUID.parse (UUID.ofInt 1).toText).elim (Prog.raise PyExc.valueError) Prog.ret :
    Py UUID) = _
  rw [UUID.parse_toText]
  rfl

theorem conversations_deletedStore :
    deletedStore.conversations (.ofInt 1) = some deletedRow := by
  decide

theorem purgeable_deletedStore : Purgeable (.ofInt 1) deletedStore := by
  constructor
  · intro row hrow
    rw [conversations_deletedStore] at hrow
    cases hrow
    exact ⟨rfl, rfl, rfl⟩
  · intro user k entry hget _
    refine ⟨deletedRow, ⟨0, false⟩, conversations_deletedStore, ?_⟩
    change ((Store.setCatalog _ (.ofInt 5) _).catalog user).get k = some entry at hget
    rw [catalog_setCatalog] at hget
    split at hget
    · rename_i huser
      rw [Partition.get_upsert] at hget
      split at hget
      · rename_i hk
        exact ⟨⟨by rw [huser]; rfl, rfl⟩, hk⟩
      · cases hget
    · cases hget

/-- The purge starts after the first operation of a lookup and ends before the second. -/
theorem purged_between_reads :
    exists pool, Pool.Reaches (purgeRules .single (some ⟨true⟩) (.ofInt 1))
      (startingFrom deletedStore) pool ∧ pool.Quiet ∧ pool.tasks.length = 2 ∧
      Purged (.ofInt 1) pool.store := by
  let c : UUID := .ofInt 1
  let lookup : ServiceCall := .conversation (.get c)
  let rules := purgeRules .single (some ⟨true⟩) c
  have hmeets : lookup.MeetsPurge := trivial
  have hlookup : exists next, rules.program lookup = .op (.hgetConversation c) next ∧
      exists next', next (some none) = .op (.selectConversation c) next' ∧
        next' (some none) = .ret () :=
    ⟨_, rfl, _, rfl, rfl⟩
  rcases hlookup with ⟨next, hget, next', hselect, hfound⟩
  have hfirst : HasNothingRead c (.op (.hgetConversation c) next) := by
    rw [← hget]
    exact hasNothingRead_start (d := .single) hmeets
  have hsecond : HasNothingRead c (.op (.selectConversation c) next') := by
    rw [← hselect]
    exact ⟨Prog.guarded_next hfirst.left (fun h => h),
      Prog.guarded_next hfirst.right (fun h => h)⟩
  let waiting : ServiceTask := ⟨lookup, .op (.selectConversation c) next'⟩
  have hstart : Pool.Step rules (startingFrom deletedStore)
      ⟨deletedStore, [⟨lookup, .op (.hgetConversation c) next⟩]⟩ := by
    rw [← hget]
    exact Pool.Step.start [] lookup deletedStore hmeets
  have hasked : Pool.Step rules ⟨deletedStore, [⟨lookup, .op (.hgetConversation c) next⟩]⟩
      ⟨deletedStore, [waiting]⟩ := by
    have hnext : HasNothingRead c (next (some none)) := by
      rw [hselect]
      exact hsecond
    have hstep : Pool.Step rules
        ⟨deletedStore, [] ++ ⟨lookup, .op (.hgetConversation c) next⟩ :: []⟩
        ⟨deletedStore, [] ++ ⟨lookup, next (some none)⟩ :: []⟩ :=
      step_hasNothingRead (fun q hq => by cases hq) hfirst hnext (fun h => by cases h)
        (fun h => h)
    rw [hselect] at hstep
    exact hstep
  have hpurge : exists t, Pool.Reaches rules ⟨deletedStore, [waiting]⟩
      ⟨t, [waiting, ⟨.cleanUp deletionRecord, .ret ()⟩]⟩ := by
    apply reaches_purged rfl announces_deletionRecord purgeable_deletedStore
    intro q hq
    cases List.mem_singleton.mp hq
    exact hsecond
  rcases hpurge with ⟨t, hpurge⟩
  have hpurged : Pool.Reaches rules (startingFrom deletedStore)
      ⟨t, [waiting, ⟨.cleanUp deletionRecord, .ret ()⟩]⟩ :=
    .head hstart (.head hasked hpurge)
  have hgone := undisturbed_purged .single (some ⟨true⟩) c deletedStore _
    ⟨.cleanUp deletionRecord, .ret ()⟩ rfl purgeable_deletedStore hpurged (by simp)
    announces_deletionRecord (fun h => h)
  have hlast : Pool.Step rules ⟨t, [] ++ waiting :: [⟨.cleanUp deletionRecord, .ret ()⟩]⟩
      ⟨t, [] ++ ⟨lookup, next' (some (t.conversations c))⟩ ::
        [⟨.cleanUp deletionRecord, .ret ()⟩]⟩ := by
    have hnext : HasNothingRead c (next' (some (t.conversations c))) := by
      rw [hgone.conversation, hfound]
      exact ⟨trivial, trivial⟩
    apply step_hasNothingRead _ hsecond hnext (fun h => by cases h) (fun h => h)
    intro q hq
    cases List.mem_singleton.mp hq
    exact ⟨trivial, trivial⟩
  rw [hgone.conversation, hfound] at hlast
  refine ⟨_, .tail hpurged hlast, ?_, rfl, ?_⟩
  · intro q hq
    rcases List.mem_cons.mp hq with rfl | hq
    · exact fun h => h
    · cases List.mem_singleton.mp hq
      exact fun h => h
  · exact undisturbed_purged .single (some ⟨true⟩) c deletedStore _
      ⟨.cleanUp deletionRecord, .ret ()⟩ rfl purgeable_deletedStore (.tail hpurged hlast)
      (by simp) announces_deletionRecord (fun h => h)

/-!
# A reply behind a purge
-/

/-- The purge from its start to its end, and then a reply to one of the messages. -/
def lateReplyActs : List (Pool.Act ServiceCall) :=
  .start (.cleanUp deletionRecord) :: List.replicate 5 (.perform 0) ++
    .start (.message (.generated ⟨9000, true⟩ (Consumers.finalEvent (.ofInt 3) (.ofInt 1)
      [(text "full_content", .str (text "late"))]))) :: List.replicate 10 (.perform 1)

/-- Nothing keeps the handler of a reply from writing to a purged conversation. -/
theorem late_reply_returns :
    ¬forall (d : Deployment) (cache : Option CacheService) (c : UUID) (s : Store)
      (pool : ServicePool) (t : ServiceTask),
      d.workerCache.redis = true -> Purgeable c s ->
      Pool.Reaches
        (interleaving (ServiceCall.program d cache) (fun _ _ => True)
          (fun _ call => call.MeetsPurge)) (startingFrom s) pool ->
      t ∈ pool.tasks -> t.call.Purges c -> pool.Quiet -> Purged c pool.store := by
  intro h
  let rules := interleaving (ServiceCall.program .single (some ⟨true⟩)) (fun _ _ => True)
    (fun _ call => call.MeetsPurge)
  let pool := lateReplyActs.foldl (Pool.play rules) (startingFrom deletedStore)
  have hreach : Pool.Reaches rules (startingFrom deletedStore) pool := by
    apply Pool.reaches_schedule
    apply Pool.allowsAll_of_forall
    intro act hact c
    have hkind : (exists i, act = .perform i) ∨ exists call, act = .start call ∧
        call.MeetsPurge := by
      simp [lateReplyActs] at hact
      rcases hact with rfl | rfl | rfl | rfl
      · exact Or.inr ⟨_, rfl, trivial⟩
      · exact Or.inl ⟨_, rfl⟩
      · exact Or.inr ⟨_, rfl, trivial⟩
      · exact Or.inl ⟨_, rfl⟩
    rcases hkind with ⟨i, rfl⟩ | ⟨call, rfl, hcall⟩
    · exact fun _ _ => trivial
    · exact hcall
  have hcalls : ServiceCall.cleanUp deletionRecord ∈ pool.tasks.map Task.call := by
    rw [Pool.calls_schedule (by simp [lateReplyActs])]
    simp [lateReplyActs, Pool.Act.started]
  rcases List.mem_map.mp hcalls with ⟨t, ht, hcall⟩
  have hpurges : t.call.Purges (.ofInt 1) := by
    rw [hcall]
    exact announces_deletionRecord
  have hpurged := h .single (some ⟨true⟩) (.ofInt 1) deletedStore pool t rfl
    purgeable_deletedStore hreach ht hpurges (by decide)
  have hreply : (pool.store.row (.ofInt 1) (.ofInt 3)).isSome = true := by
    decide
  rw [hpurged.messages] at hreply
  cases hreply

end ConversationService
