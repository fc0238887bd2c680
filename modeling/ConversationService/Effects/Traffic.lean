import ConversationService.Model.System

/-!
# Reads and cache traffic

Most operations of a handler only read, or write caches, the replay logs and the
Pub/Sub channels. They leave the core of the store alone: the tables, the markers
and the clock.
-/

namespace ConversationService

open Python Programs

/-- The two stores differ at most in caches, replay logs and published events. -/
structure SameCore (s t : Store) : Prop where
  messages : t.messages = s.messages
  outbox : t.outbox = s.outbox
  inbox : t.inbox = s.inbox
  conversations : t.conversations = s.conversations
  catalog : t.catalog = s.catalog
  conversationEvents : t.conversationEvents = s.conversationEvents
  idempotency : t.idempotency = s.idempotency
  markers : t.markers = s.markers
  pendingSet : t.pendingSet = s.pendingSet
  preferences : t.preferences = s.preferences
  customModes : t.customModes = s.customModes
  clock : t.clock = s.clock

namespace SameCore

theorem refl (s : Store) : SameCore s s := by
  constructor <;> rfl

theorem trans {s t u : Store} (h : SameCore s t) (h' : SameCore t u) :
    SameCore s u := by
  constructor
  · rw [h'.messages, h.messages]
  · rw [h'.outbox, h.outbox]
  · rw [h'.inbox, h.inbox]
  · rw [h'.conversations, h.conversations]
  · rw [h'.catalog, h.catalog]
  · rw [h'.conversationEvents, h.conversationEvents]
  · rw [h'.idempotency, h.idempotency]
  · rw [h'.markers, h.markers]
  · rw [h'.pendingSet, h.pendingSet]
  · rw [h'.preferences, h.preferences]
  · rw [h'.customModes, h.customModes]
  · rw [h'.clock, h.clock]

theorem row {s t : Store} (h : SameCore s t) (c m : UUID) :
    t.row c m = s.row c m := by
  unfold Store.row
  rw [h.messages]

theorem liveMarker {s t : Store} (h : SameCore s t) (m : UUID) :
    t.liveMarker m = s.liveMarker m := by
  unfold Store.liveMarker
  rw [h.markers, h.clock]

theorem isPending {s t : Store} (h : SameCore s t) (m : UUID) :
    t.IsPending m <-> s.IsPending m := by
  unfold Store.IsPending
  rw [h.pendingSet]

theorem upsertMessage {s t : Store} (h : SameCore s t) (c m : UUID)
    (f : Option Row -> Row) :
    SameCore (s.upsertMessage c m f) (t.upsertMessage c m f) := by
  cases h
  constructor <;> simp_all [Store.upsertMessage]

theorem putOutbox {s t : Store} (h : SameCore s t) (bucket : Nat) (eventId : UUID)
    (r : OutboxRow) :
    SameCore (s.putOutbox bucket eventId r) (t.putOutbox bucket eventId r) := by
  cases h
  constructor <;> simp_all [Store.putOutbox]

theorem saveInbox {s t : Store} (h : SameCore s t) (key : InboxKey) :
    SameCore (s.saveInbox key) (t.saveInbox key) := by
  cases h
  constructor <;> simp_all [Store.saveInbox]

theorem setMarker {s t : Store} (h : SameCore s t) (m : UUID) (v : Option Marker) :
    SameCore (s.setMarker m v) (t.setMarker m v) := by
  cases h
  constructor <;> simp_all [Store.setMarker]

theorem removePending {s t : Store} (h : SameCore s t) (m : UUID) :
    SameCore (s.removePending m) (t.removePending m) := by
  cases h
  constructor <;> simp_all [Store.removePending]

end SameCore

/-!
# Traffic operations
-/

def Op.IsTraffic : Op -> Prop
  | .insertMessage _ _ _ _ _ _ _ => False
  | .updateDeleted _ _ => False
  | .batchMessageOutbox _ _ _ _ _ _ _ _ _ _ => False
  | .insertInbox _ => False
  | .setPending _ _ _ => False
  | .zaddPending _ _ => False
  | .deletePending _ => False
  | .zremPending _ => False
  | .deleteAllMessages _ => False
  | .batchCreateConversation _ _ _ _ _ _ _ _ _ _ => False
  | .batchUpdateConversation _ _ _ _ _ _ _ _ _ _ _ => False
  | .batchUpdateTitle _ _ _ _ _ _ _ _ => False
  | .batchHardDelete _ _ _ => False
  | .claimIdempotency _ => False
  | .getIdempotency _ => False
  | .setIdempotency _ _ => False
  | .deleteIdempotency _ => False
  | _ => True

theorem sameCore_exec {o : Op} (ho : o.IsTraffic) (s : Store) :
    SameCore s (o.exec s).2 := by
  cases o with
  | insertMessage _ _ _ _ _ _ _ => exact ho.elim
  | updateDeleted _ _ => exact ho.elim
  | batchMessageOutbox _ _ _ _ _ _ _ _ _ _ => exact ho.elim
  | insertInbox _ => exact ho.elim
  | setPending _ _ _ => exact ho.elim
  | zaddPending _ _ => exact ho.elim
  | deletePending _ => exact ho.elim
  | zremPending _ => exact ho.elim
  | deleteAllMessages _ => exact ho.elim
  | batchCreateConversation _ _ _ _ _ _ _ _ _ _ => exact ho.elim
  | batchUpdateConversation _ _ _ _ _ _ _ _ _ _ _ => exact ho.elim
  | batchUpdateTitle _ _ _ _ _ _ _ _ => exact ho.elim
  | batchHardDelete _ _ _ => exact ho.elim
  | claimIdempotency _ => exact ho.elim
  | setIdempotency _ _ => exact ho.elim
  | deleteIdempotency _ => exact ho.elim
  | _ => constructor <;> rfl

/--
The operations of the read-through services: they publish nothing and fill or drop
the cached history of one conversation only.
-/
def Op.IsRead (c : UUID) : Op -> Prop
  | .deleteHistory c' => c' = c
  | .rpushHistory c' _ => c' = c
  | .xaddEvent _ _ => False
  | .expireEvents _ => False
  | .publishEvent _ _ => False
  | o => o.IsTraffic

theorem Op.IsRead.isTraffic {c : UUID} {o : Op} (ho : o.IsRead c) : o.IsTraffic := by
  cases o <;> trivial

def Op.IsLookup : Op -> Prop
  | .lrangeHistory _ _ => False
  | .deleteHistory _ => False
  | .rpushHistory _ _ => False
  | .xaddEvent _ _ => False
  | .expireEvents _ => False
  | .publishEvent _ _ => False
  | o => o.IsTraffic

/-- What looking up one conversation does: it reads, and fills the cache. -/
def Op.Finds (c : UUID) : Op -> Prop
  | .hgetConversation c' => c' = c
  | .selectConversation c' => c' = c
  | .hsetConversation c' _ => c' = c
  | .expireConversation c' => c' = c
  | _ => False

theorem Op.Finds.isLookup {c : UUID} {o : Op} (ho : o.Finds c) : o.IsLookup := by
  cases o <;> trivial

/-- Reads of tables, and the operations on the cached history of one conversation. -/
def Op.IsPaging (c : UUID) : Op -> Prop
  | .deleteHistory c' => c' = c
  | .rpushHistory c' _ => c' = c
  | .hsetConversation _ _ => False
  | .deleteConversation _ => False
  | .xaddEvent _ _ => False
  | .expireEvents _ => False
  | .publishEvent _ _ => False
  | o => o.IsTraffic

theorem Op.IsLookup.isRead {c : UUID} {o : Op} (ho : o.IsLookup) : o.IsRead c := by
  cases o <;> trivial

theorem Op.IsLookup.isTraffic {o : Op} (ho : o.IsLookup) : o.IsTraffic := by
  cases o <;> trivial

theorem Op.IsPaging.isRead {c : UUID} {o : Op} (ho : o.IsPaging c) : o.IsRead c := by
  cases o <;> trivial

/-- The two stores differ at most in cached conversations and one cached history. -/
structure ReadThrough (c : UUID) (s t : Store) : Prop extends SameCore s t where
  eventLog : t.eventLog = s.eventLog
  published : t.published = s.published
  historyCache : forall c', c' ≠ c -> t.historyCache c' = s.historyCache c'

theorem ReadThrough.refl (c : UUID) (s : Store) : ReadThrough c s s :=
  ⟨SameCore.refl s, rfl, rfl, fun _ _ => rfl⟩

theorem ReadThrough.trans {c : UUID} {s t u : Store} (h : ReadThrough c s t)
    (h' : ReadThrough c t u) : ReadThrough c s u := by
  constructor
  · exact h.toSameCore.trans h'.toSameCore
  · rw [h'.eventLog, h.eventLog]
  · rw [h'.published, h.published]
  · intro c' hne
    rw [h'.historyCache c' hne, h.historyCache c' hne]

theorem readThrough_exec {c : UUID} {o : Op} (ho : o.IsRead c) (s : Store) :
    ReadThrough c s (o.exec s).2 := by
  have hcore := sameCore_exec ho.isTraffic s
  cases o with
  | deleteHistory c' =>
      cases ho
      refine ⟨hcore, rfl, rfl, ?_⟩
      intro c' hne
      exact Function.update_of_ne hne _ _
  | rpushHistory c' messages =>
      cases ho
      refine ⟨hcore, rfl, rfl, ?_⟩
      intro c' hne
      exact Function.update_of_ne hne _ _
  | xaddEvent _ _ => exact ho.elim
  | expireEvents _ => exact ho.elim
  | publishEvent _ _ => exact ho.elim
  | insertMessage _ _ _ _ _ _ _ => exact ho.elim
  | updateDeleted _ _ => exact ho.elim
  | batchMessageOutbox _ _ _ _ _ _ _ _ _ _ => exact ho.elim
  | insertInbox _ => exact ho.elim
  | setPending _ _ _ => exact ho.elim
  | zaddPending _ _ => exact ho.elim
  | deletePending _ => exact ho.elim
  | zremPending _ => exact ho.elim
  | deleteAllMessages _ => exact ho.elim
  | batchCreateConversation _ _ _ _ _ _ _ _ _ _ => exact ho.elim
  | batchUpdateConversation _ _ _ _ _ _ _ _ _ _ _ => exact ho.elim
  | batchUpdateTitle _ _ _ _ _ _ _ _ => exact ho.elim
  | batchHardDelete _ _ _ => exact ho.elim
  | claimIdempotency _ => exact ho.elim
  | setIdempotency _ _ => exact ho.elim
  | deleteIdempotency _ => exact ho.elim
  | _ => exact ⟨hcore, rfl, rfl, fun _ _ => rfl⟩

def OnlyOps {alpha : Type} (P : Op -> Prop) (p : Py alpha) : Prop :=
  Prog.AllOps (S := storage) P p

section Rules

variable {alpha beta : Type} {P : Op -> Prop} {mayFail : Op -> Prop}

theorem onlyOps_ret (a : alpha) : OnlyOps P (.ret a) := trivial

theorem onlyOps_raise (e : PyExc) : OnlyOps P (.raise e : Py alpha) := trivial

theorem onlyOps_perform {o : Op} (ho : P o) : OnlyOps P (perform o) :=
  (Prog.allOps_perform (S := storage) (P := P) PyExc.storage o).mpr ho

theorem onlyOps_bind {p : Py alpha} {f : alpha -> Py beta}
    (hp : OnlyOps P p) (hf : forall a, OnlyOps P (f a)) : OnlyOps P (p >>= f) :=
  Prog.allOps_bind hp hf

theorem onlyOps_tryCatch {p : Py alpha} {handler : PyExc -> Py alpha}
    (hp : OnlyOps P p) (hhandler : forall e, OnlyOps P (handler e)) :
    OnlyOps P (p.tryCatch handler) :=
  Prog.allOps_tryCatch hp hhandler

theorem onlyOps_cqlText (P : Op -> Prop) (value : Json) : OnlyOps P (cqlText value) := by
  unfold cqlText
  split
  · split
    · exact onlyOps_ret _
    · exact onlyOps_raise _
  · exact onlyOps_raise _

theorem onlyOps_cleanCitations (P : Op -> Prop) (citations : Json) :
    OnlyOps P (MessageRepository.cleanCitations citations) := by
  unfold MessageRepository.cleanCitations
  split
  · split
    · exact onlyOps_ret _
    · exact onlyOps_raise _
  · exact onlyOps_ret _

theorem OnlyOps.isTraffic {c : UUID} {p : Py alpha} (hp : OnlyOps (Op.IsRead c) p) :
    OnlyOps Op.IsTraffic p :=
  Prog.allOps_mono hp (fun _ ho => ho.isTraffic)

theorem OnlyOps.isRead {c : UUID} {p : Py alpha} (hp : OnlyOps Op.IsLookup p) :
    OnlyOps (Op.IsRead c) p :=
  Prog.allOps_mono hp (fun _ ho => ho.isRead)

theorem OnlyOps.readsPage {c : UUID} {p : Py alpha} (hp : OnlyOps (Op.IsPaging c) p) :
    OnlyOps (Op.IsRead c) p :=
  Prog.allOps_mono hp (fun _ ho => ho.isRead)

theorem wp_traffic {p : Py alpha} (hp : OnlyOps Op.IsTraffic p)
    {Q : alpha -> Store -> Prop} {E : PyExc -> Store -> Prop} {s : Store}
    (hQ : forall a t, SameCore s t -> Q a t)
    (hE : forall e t, SameCore s t -> E e t) :
    Prog.wp storageMachine mayFail p Q E s := by
  have hkeep : forall o t, Op.IsTraffic o -> SameCore s t ->
      SameCore s (storageMachine.exec o t).2 := by
    intro o t ho hst
    exact hst.trans (sameCore_exec ho t)
  have hcore : Prog.wp storageMachine mayFail p (fun _ t => SameCore s t)
      (fun _ t => SameCore s t) s :=
    Prog.wp_of_allOps hp hkeep (SameCore.refl s)
  exact Prog.wp_mono hcore (fun a t h => hQ a t h) (fun e t h => hE e t h)

theorem wp_reads {c : UUID} {p : Py alpha} (hp : OnlyOps (Op.IsRead c) p)
    {Q : alpha -> Store -> Prop} {E : PyExc -> Store -> Prop} {s : Store}
    (hQ : forall a t, ReadThrough c s t -> Q a t)
    (hE : forall e t, ReadThrough c s t -> E e t) :
    Prog.wp storageMachine mayFail p Q E s := by
  have hkeep : forall o t, Op.IsRead c o -> ReadThrough c s t ->
      ReadThrough c s (storageMachine.exec o t).2 := by
    intro o t ho hst
    exact hst.trans (readThrough_exec ho t)
  have hreads : Prog.wp storageMachine mayFail p (fun _ t => ReadThrough c s t)
      (fun _ t => ReadThrough c s t) s :=
    Prog.wp_of_allOps hp hkeep (ReadThrough.refl c s)
  exact Prog.wp_mono hreads hQ hE

theorem wp_traffic_swallowed {p : Py alpha} (hp : OnlyOps Op.IsTraffic p)
    {handler : PyExc -> Py alpha} (hhandler : forall e, exists a, handler e = .ret a)
    {Q : alpha -> Store -> Prop} {E : PyExc -> Store -> Prop} {s : Store}
    (hQ : forall a t, SameCore s t -> Q a t) :
    Prog.wp storageMachine mayFail (p.tryCatch handler) Q E s := by
  rw [Prog.wp_tryCatch]
  apply wp_traffic hp hQ
  intro e t hst
  rcases hhandler e with ⟨a, ha⟩
  rw [ha]
  exact hQ a t hst

end Rules

/-!
# Caches and streams
-/

section Services

variable {mayFail : Op -> Prop} {s : Store}

theorem onlyOps_getLast50Messages {P : Op -> Prop} (cache : CacheService) {c : UUID}
    {limit : Nat} (hrange : P (.lrangeHistory c limit)) :
    OnlyOps P (cache.getLast50Messages c limit) := by
  unfold CacheService.getLast50Messages
  split
  · apply onlyOps_tryCatch
    · refine onlyOps_bind (onlyOps_perform hrange) ?_
      intro items
      split
      · exact onlyOps_ret _
      · split
        · exact onlyOps_ret _
        · exact onlyOps_raise _
    · intro e
      exact onlyOps_ret _
  · exact onlyOps_ret _

theorem onlyPages_getLast50Messages (cache : CacheService) (c : UUID)
    (limit : Nat) : OnlyOps (Op.IsPaging c) (cache.getLast50Messages c limit) :=
  onlyOps_getLast50Messages cache trivial

theorem onlyPages_setLast50Messages (cache : CacheService) (c : UUID)
    (messages : List Message) :
    OnlyOps (Op.IsPaging c) (cache.setLast50Messages c messages) := by
  unfold CacheService.setLast50Messages
  split
  · exact onlyOps_ret _
  · apply onlyOps_tryCatch
    · split
      · refine onlyOps_bind (onlyOps_perform (by trivial)) ?_
        intro _
        refine onlyOps_bind (onlyOps_perform (by trivial)) ?_
        intro _
        exact onlyOps_perform trivial
      · exact onlyOps_raise _
    · intro e
      exact onlyOps_ret _

theorem onlyOps_deleteLast50Messages {P : Op -> Prop} (cache : CacheService) {c : UUID}
    (hdelete : P (.deleteHistory c)) : OnlyOps P (cache.deleteLast50Messages c) := by
  unfold CacheService.deleteLast50Messages
  split
  · refine onlyOps_tryCatch (onlyOps_perform hdelete) ?_
    intro e
    exact onlyOps_ret _
  · exact onlyOps_ret _

theorem wp_deleteLast50Messages (cache : CacheService) (c : UUID)
    {Q : Unit -> Store -> Prop} {E : PyExc -> Store -> Prop}
    (hQ : forall t, SameCore s t -> Q () t) :
    Prog.wp storageMachine mayFail (cache.deleteLast50Messages c) Q E s := by
  unfold CacheService.deleteLast50Messages
  split
  · exact wp_traffic_swallowed (onlyOps_perform (by trivial))
      (fun e => ⟨_, rfl⟩) (fun _ t ht => hQ t ht)
  · exact hQ s (SameCore.refl s)

theorem onlyOps_getConversation {P : Op -> Prop} (cache : CacheService) {c : UUID}
    (hget : P (.hgetConversation c)) : OnlyOps P (cache.getConversation c) := by
  unfold CacheService.getConversation
  split
  · apply onlyOps_tryCatch
    · refine onlyOps_bind (onlyOps_perform hget) ?_
      intro cached
      split
      · split
        · exact onlyOps_ret _
        · exact onlyOps_raise _
      · exact onlyOps_ret _
    · intro e
      exact onlyOps_ret _
  · exact onlyOps_ret _

theorem onlyFinds_getConversation (cache : CacheService) (c : UUID) :
    OnlyOps (Op.Finds c) (cache.getConversation c) :=
  onlyOps_getConversation cache rfl

theorem onlyFinds_setConversation (cache : CacheService) (conv : Conversation) :
    OnlyOps (Op.Finds conv.conversationId) (cache.setConversation conv) := by
  unfold CacheService.setConversation
  split
  · apply onlyOps_tryCatch
    · split
      · refine onlyOps_bind (onlyOps_perform rfl) ?_
        intro _
        exact onlyOps_perform rfl
      · exact onlyOps_raise _
    · intro e
      exact onlyOps_ret _
  · exact onlyOps_ret _

theorem onlyOps_repositoryGet {P : Op -> Prop} {c : UUID}
    (hselect : P (.selectConversation c)) : OnlyOps P (ConversationRepository.get c) := by
  refine onlyOps_bind (onlyOps_perform hselect) ?_
  intro row
  split
  · exact onlyOps_ret _
  · split
    · exact onlyOps_ret _
    · exact onlyOps_raise _

theorem onlyFinds_repositoryGet (c : UUID) :
    OnlyOps (Op.Finds c) (ConversationRepository.get c) :=
  onlyOps_repositoryGet rfl

theorem returns_repositoryGet (c : UUID) :
    Prog.Returns (S := storage) (fun found : Option Conversation =>
      forall conv, found = some conv -> conv.conversationId = c)
      (ConversationRepository.get c) := by
  apply Prog.returns_bind (Prog.returns_trivial _)
  intro row _
  split
  · intro conv hconv
    cases hconv
  · split
    · rename_i row conv hrow
      intro conv' hconv'
      cases hconv'
      rcases Option.map_eq_some_iff.mp hrow with ⟨status, _, rfl⟩
      rfl
    · trivial

theorem onlyFinds_conversationGet (cache : Option CacheService) (c : UUID) :
    OnlyOps (Op.Finds c) (ConversationReads.get cache c) := by
  unfold ConversationReads.get ConversationReads.getCached
  apply onlyOps_bind
  · cases cache with
    | none => exact onlyOps_ret _
    | some cache => exact onlyFinds_getConversation cache c
  · intro cached
    cases cached with
    | some conv => exact onlyOps_ret _
    | none =>
        apply Prog.allOps_bind_returns (onlyFinds_repositoryGet c) (returns_repositoryGet c)
        intro stored hstored
        split
        · rename_i _ conv cache
          have hid := hstored conv rfl
          apply onlyOps_bind
          · have hset := onlyFinds_setConversation cache conv
            rw [hid] at hset
            exact hset
          · intro _
            exact onlyOps_ret _
        · exact onlyOps_ret _

theorem onlyLookups_repositoryGet (c : UUID) :
    OnlyOps Op.IsLookup (ConversationRepository.get c) :=
  Prog.allOps_mono (onlyFinds_repositoryGet c) (fun _ ho => ho.isLookup)

theorem onlyLookups_conversationGet (cache : Option CacheService) (c : UUID) :
    OnlyOps Op.IsLookup (ConversationReads.get cache c) :=
  Prog.allOps_mono (onlyFinds_conversationGet cache c) (fun _ ho => ho.isLookup)

/-- What publishing on the stream of a conversation does. -/
def Op.Publishes (c : UUID) : Op -> Prop
  | .xaddEvent c' _ => c' = c
  | .expireEvents c' => c' = c
  | .publishEvent c' _ => c' = c
  | _ => False

theorem Op.Publishes.isTraffic {c : UUID} {o : Op} (ho : o.Publishes c) :
    o.IsTraffic := by
  cases o <;> trivial

theorem onlyPublishes_publishToken (stream : StreamService) (c : UUID)
    (chunkData : List (Text × Json)) :
    OnlyOps (Op.Publishes c) (stream.publishToken c chunkData) := by
  unfold StreamService.publishToken
  split
  · apply onlyOps_bind
    · apply onlyOps_tryCatch
      · refine onlyOps_bind (onlyOps_perform rfl) (fun _ => ?_)
        exact onlyOps_bind (onlyOps_perform rfl) (fun _ => onlyOps_ret _)
      · intro e
        exact onlyOps_ret _
    · intro payload
      exact onlyOps_tryCatch (onlyOps_perform rfl) (fun _ => onlyOps_ret _)
  · exact onlyOps_ret _

theorem wp_publishToken (stream : StreamService) (c : UUID)
    (chunkData : List (Text × Json)) {Q : Unit -> Store -> Prop}
    {E : PyExc -> Store -> Prop} (hQ : forall t, SameCore s t -> Q () t) :
    Prog.wp storageMachine mayFail (stream.publishToken c chunkData) Q E s := by
  unfold StreamService.publishToken
  split
  · rw [Prog.wp_bind]
    apply wp_traffic_swallowed
    · refine onlyOps_bind (onlyOps_perform (by trivial)) ?_
      intro _
      refine onlyOps_bind (onlyOps_perform (by trivial)) ?_
      intro _
      exact onlyOps_ret _
    · intro e
      exact ⟨chunkData, rfl⟩
    · intro payload t ht
      apply wp_traffic_swallowed (onlyOps_perform (by trivial)) (fun e => ⟨_, rfl⟩)
      intro _ u hu
      exact hQ u (ht.trans hu)
  · exact hQ s (SameCore.refl s)

end Services

/-!
# Reads of the repository and the services
-/

theorem onlyOps_repositoryHistory {P : Op -> Prop} (c : UUID) (limit : Nat)
    (cursor : Option UUID) (hselect : P (.selectHistory c limit cursor)) :
    OnlyOps P (MessageRepository.history c limit cursor) := by
  refine onlyOps_bind (onlyOps_perform hselect) ?_
  intro rows
  exact onlyOps_ret _

theorem onlyLookups_historyUpto (c upto : UUID) (limit : Nat) :
    OnlyOps Op.IsLookup (MessageRepository.historyUpto c upto limit) := by
  refine onlyOps_bind (onlyOps_perform (by trivial)) ?_
  intro rows
  exact onlyOps_ret _

theorem onlyLookups_segmentMessages (seg : Segment) (limit : Nat) :
    OnlyOps Op.IsLookup (BranchContextService.segmentMessages seg limit) := by
  unfold BranchContextService.segmentMessages BranchContextService.messagesInScope
  apply onlyOps_bind
  · split
    · exact onlyLookups_historyUpto _ _ _
    · apply onlyOps_bind (onlyOps_repositoryHistory _ _ _ trivial)
      intro rows
      split
      · exact onlyOps_ret _
      · split
        · exact onlyOps_ret _
        · exact onlyOps_raise _
  · intro rows
    exact onlyOps_ret _

theorem onlyLookups_lineageFrom (cache : Option CacheService) (owner : Option UUID)
    (depth : Nat) (seen : List UUID) (cur : Conversation) (chain : List Segment) :
    OnlyOps Op.IsLookup
      (BranchContextService.lineageFrom cache owner depth seen cur chain) := by
  induction depth generalizing seen cur chain with
  | zero =>
      unfold BranchContextService.lineageFrom
      split
      · exact onlyOps_ret _
      · exact onlyOps_ret _
  | succ depth ih =>
      unfold BranchContextService.lineageFrom
      split
      · exact onlyOps_ret _
      · dsimp only
        split
        · exact onlyOps_ret _
        · apply onlyOps_bind (onlyLookups_conversationGet _ _)
          intro parent
          cases parent with
          | none => exact onlyOps_ret _
          | some parent =>
              dsimp only
              split
              · exact onlyOps_ret _
              · split
                · exact onlyOps_ret _
                · exact ih _ _ _

theorem onlyLookups_pickSegments (p : BranchContextService.Picking)
    (segments : List Segment) :
    OnlyOps Op.IsLookup (BranchContextService.pickSegments p segments) := by
  induction segments generalizing p with
  | nil => exact onlyOps_ret _
  | cons seg rest ih =>
      apply onlyOps_bind (onlyLookups_segmentMessages _ _)
      intro messages
      dsimp only
      split
      · exact onlyOps_ret _
      · exact ih _

theorem onlyLookups_eventContext (cache : Option CacheService)
    (conv : Conversation) :
    OnlyOps Op.IsLookup (BranchContextService.eventContext cache conv) := by
  apply onlyOps_bind
  · apply onlyOps_tryCatch
    · apply onlyOps_bind (onlyLookups_lineageFrom _ _ _ _ _ _)
      intro l
      exact onlyOps_ret _
    · intro e
      exact onlyOps_ret _
  · intro l
    cases l with
    | none => exact onlyOps_ret _
    | some l =>
        apply onlyOps_bind
        · apply onlyOps_tryCatch
          · apply onlyOps_bind (onlyLookups_pickSegments _ _)
            intro p
            exact onlyOps_ret _
          · intro e
            exact onlyOps_ret _
        · intro inherited
          exact onlyOps_ret _

theorem onlyOps_resolveForMessage {P : Op -> Prop}
    (hprefs : forall u, P (.selectPreferences u))
    (hmodes : forall u ref, P (.selectCustomMode u ref)) (userId : Option UUID) (mode : Option Text)
    (selectedTools : Option (List Text)) :
    OnlyOps P
      (PreferencesService.resolveForMessage userId mode selectedTools) := by
  apply onlyOps_bind
  · unfold PreferencesService.loadOrDefault
    split
    · apply onlyOps_tryCatch
      · refine onlyOps_bind (onlyOps_perform (hprefs _)) ?_
        intro row
        split
        · exact onlyOps_ret _
        · exact onlyOps_ret _
      · intro e
        exact onlyOps_ret _
    · exact onlyOps_ret _
  · intro loaded
    apply onlyOps_bind
    · unfold PreferencesService.resolveMode
      split
      · exact onlyOps_ret _
      · split
        · split
          · exact onlyOps_raise _
          · exact onlyOps_ret _
        · split
          · exact onlyOps_raise _
          · refine onlyOps_bind (onlyOps_perform (hmodes _ _)) ?_
            intro record
            dsimp only
            split
            · exact onlyOps_ret _
            · split
              · exact onlyOps_raise _
              · exact onlyOps_ret _
    · intro resolved
      exact onlyOps_ret _

namespace MessageService

theorem onlyOps_resolvePreferences {P : Op -> Prop}
    (hprefs : forall u, P (.selectPreferences u))
    (hmodes : forall u ref, P (.selectCustomMode u ref)) (svc : MessageService)
    (userId : Option UUID) (mode : Option Text)
    (selectedTools : Option (List Text)) :
    OnlyOps P (svc.resolvePreferences userId mode selectedTools) := by
  unfold resolvePreferences
  split
  · exact onlyOps_resolveForMessage hprefs hmodes _ _ _
  · exact onlyOps_ret _

theorem onlyReads_resolvePreferences {k : UUID} (svc : MessageService)
    (userId : Option UUID) (mode : Option Text)
    (selectedTools : Option (List Text)) :
    OnlyOps (Op.IsRead k) (svc.resolvePreferences userId mode selectedTools) :=
  onlyOps_resolvePreferences (fun _ => trivial) (fun _ _ => trivial) svc userId mode
    selectedTools

theorem onlyOps_invalidateCache {P : Op -> Prop} (svc : MessageService) {c : UUID}
    (hdelete : P (.deleteHistory c)) : OnlyOps P (svc.invalidateCache c) := by
  unfold invalidateCache
  split
  · exact onlyOps_deleteLast50Messages _ hdelete
  · exact onlyOps_ret _

theorem onlyPages_invalidateCache (svc : MessageService) (c : UUID) :
    OnlyOps (Op.IsPaging c) (svc.invalidateCache c) :=
  onlyOps_invalidateCache svc rfl

theorem wp_invalidateCache (svc : MessageService) (c : UUID) {mayFail : Op -> Prop}
    {s : Store} {Q : Unit -> Store -> Prop} {E : PyExc -> Store -> Prop}
    (hQ : forall t, SameCore s t -> Q () t) :
    Prog.wp storageMachine mayFail (svc.invalidateCache c) Q E s := by
  unfold invalidateCache
  split
  · exact wp_deleteLast50Messages _ _ hQ
  · exact hQ s (SameCore.refl s)

theorem onlyPages_history (svc : MessageService) (c : UUID) (limit : Nat)
    (cursor : Option UUID) : OnlyOps (Op.IsPaging c) (svc.history c limit cursor) := by
  apply onlyOps_bind
  · unfold cachedHistory
    split
    · exact onlyPages_getLast50Messages _ _ _
    · exact onlyOps_ret _
  · intro cached
    cases cached with
    | some messages => exact onlyOps_ret _
    | none =>
        apply onlyOps_bind (onlyOps_repositoryHistory _ _ _ trivial)
        intro messages
        split
        · apply onlyOps_bind (onlyPages_setLast50Messages _ _ _)
          intro _
          exact onlyOps_ret _
        · exact onlyOps_ret _

theorem onlyLookups_branchEventContext (conversations : Option CacheService)
    (c : UUID) (own : List HistoryEntry) :
    OnlyOps Op.IsLookup (branchEventContext conversations c own) := by
  apply onlyOps_tryCatch
  · apply onlyOps_bind (onlyLookups_conversationGet _ _)
    intro conv
    cases conv with
    | none => exact onlyOps_ret _
    | some conv =>
        dsimp only
        split
        · exact onlyOps_ret _
        · apply onlyOps_bind (onlyLookups_eventContext _ _)
          intro context
          exact onlyOps_ret _
  · intro e
    exact onlyOps_ret _

theorem onlyReads_sendContext (svc : MessageService) (args : SendArgs) :
    OnlyOps (Op.IsRead args.conversationId) (svc.sendContext args) := by
  unfold sendContext
  split
  · apply onlyOps_bind
    · apply onlyOps_tryCatch
      · apply onlyOps_bind (onlyPages_history _ _ _ _).readsPage
        intro messages
        exact onlyOps_ret _
      · intro e
        exact onlyOps_ret _
    · intro own
      split
      · exact (onlyLookups_branchEventContext _ _ _).isRead
      · exact onlyOps_ret _
  · exact onlyOps_ret _

end MessageService

end ConversationService
