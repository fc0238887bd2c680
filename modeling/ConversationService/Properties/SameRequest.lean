import ConversationService.Effects.Answers
import ConversationService.Properties.Reasking

/-!
# The requests of a message and of its regeneration

Both build their event from the same resolver, but a regeneration leaves out the
snapshot of a custom mode and what a branch inherits.
-/

namespace ConversationService

open Python Programs

def HistoryEntry.isInherited : HistoryEntry -> Bool
  | .own _ _ _ => false
  | .inherited _ _ _ => true

/-- Two request events ask for the same treatment of a message. -/
structure Agrees (p q : ChatMessageCreated) : Prop where
  modeHint : p.modeHint = q.modeHint
  selectedTools : p.selectedTools = q.selectedTools
  preferences : p.preferences = q.preferences
  defaultsApplied : p.defaultsApplied = q.defaultsApplied
  customMode : p.customMode = q.customMode
  inherited : p.history.filter HistoryEntry.isInherited =
    q.history.filter HistoryEntry.isInherited
  ancestors : p.ancestors = q.ancestors

/-!
# Preferences
-/

/-- The saved default mode of a user as the custom mode that it refers to. -/
def savedSnapshot (s : Store) (userId : Option UUID) : Option CustomModeSnapshot :=
  userId.bind (fun user =>
    (s.preferences user).bind (fun row =>
      (nonempty? row.document.defaultMode).bind (fun mode =>
        (parseCustomRef mode).bind (fun ref =>
          ((s.customModes user ref).filter (fun r => r.active)).map
            CustomModeSnapshot.fromRecord))))

theorem nonempty?_some {alpha : Type} {value : Option (List alpha)}
    {items : List alpha} (h : nonempty? value = some items) :
    nonempty? (some items) = some items := by
  unfold nonempty? at h ⊢
  rcases Option.filter_eq_some_iff.mp h with ⟨_, hitems⟩
  exact Option.filter_eq_some_iff.mpr ⟨rfl, hitems⟩

theorem wp_resolveMode_saved {userId : UUID} {s : Store} {row : PreferencesRow}
    (hrow : s.preferences userId = some row)
    {Q : Option Text × Bool × Option CustomModeSnapshot -> Store -> Prop}
    {E : PyExc -> Store -> Prop}
    (hQ : forall mode flag, Q (mode, flag, savedSnapshot s (some userId)) s)
    (hE : forall e, E e s) :
    Prog.wp storageMachine noFault
      (PreferencesService.resolveMode (some userId) false
        (PreferencesService.chooseMode none row.document)) Q E s := by
  have hsnapshot : savedSnapshot s (some userId) =
      (nonempty? row.document.defaultMode).bind (fun mode =>
        (parseCustomRef mode).bind (fun ref =>
          ((s.customModes userId ref).filter (fun r => r.active)).map
            CustomModeSnapshot.fromRecord)) := by
    unfold savedSnapshot
    rw [Option.bind_some, hrow, Option.bind_some]
  rw [hsnapshot] at hQ
  unfold PreferencesService.resolveMode PreferencesService.chooseMode
  cases hsaved : nonempty? row.document.defaultMode with
  | none =>
      rw [hsaved] at hQ
      exact hQ _ _
  | some saved =>
      rw [hsaved, Option.bind_some] at hQ
      dsimp only
      rw [nonempty?_some hsaved]
      dsimp only
      cases href : parseCustomRef saved with
      | none =>
          rw [href] at hQ
          dsimp only
          split
          · exact hE _
          · exact hQ _ _
      | some ref =>
          rw [href, Option.bind_some] at hQ
          dsimp only
          rw [Prog.wp_bind, wp_perform]
          refine ⟨?_, fun hfail => hfail.elim⟩
          have hexec : (Op.selectCustomMode userId ref).exec s =
              ((s.customModes userId ref).filter (fun r => r.active), s) := rfl
          rw [hexec]
          cases hrecord : (s.customModes userId ref).filter (fun r => r.active) with
          | none =>
              rw [hrecord] at hQ
              exact hQ _ _
          | some record =>
              rw [hrecord] at hQ
              exact hQ _ _

theorem wp_resolvePreferences_saved (svc : MessageService) (userId : Option UUID)
    (s : Store) :
    Prog.wp storageMachine noFault (svc.resolvePreferences userId none none)
      (fun resolved _ => resolved.customMode =
        if svc.preferences then savedSnapshot s userId else none)
      (fun _ _ => True) s := by
  unfold MessageService.resolvePreferences
  cases svc.preferences with
  | false => rfl
  | true =>
      rw [if_pos rfl]
      unfold PreferencesService.resolveForMessage PreferencesService.loadOrDefault
      cases userId with
      | none => rfl
      | some userId =>
          dsimp only
          unfold PreferencesService.load
          rw [Prog.wp_bind, Prog.wp_tryCatch, Prog.wp_bind, wp_perform]
          refine ⟨?_, fun hfail => hfail.elim⟩
          have hexec : (Op.selectPreferences userId).exec s = (s.preferences userId, s) := rfl
          rw [hexec]
          cases hrow : s.preferences userId with
          | none =>
              have hnone : savedSnapshot s (some userId) = none := by
                unfold savedSnapshot
                rw [Option.bind_some, hrow]
                rfl
              rw [if_pos rfl, hnone]
              rfl
          | some row =>
              dsimp only
              rw [Prog.wp_pure, Prog.wp_bind]
              apply wp_resolveMode_saved hrow
              · intro mode flag
                rfl
              · intro e
                trivial

theorem customMode_of_answerOf {svc : MessageService} {userId : Option UUID}
    {s : Store} {resolved : ResolvedMessagePreferences}
    (h : answerOf (svc.resolvePreferences userId none none) s = .ok resolved) :
    resolved.customMode =
      if svc.preferences then savedSnapshot s userId else none := by
  have hrun := (Prog.wp_noFault_iff _ _ _ s).mp (wp_resolvePreferences_saved svc userId s)
  unfold answerOf at h
  rw [h] at hrun
  exact hrun

/-!
# The branch
-/

/-- What the context of a request inherits, if branches are configured. -/
def inheritedContext (svc : MessageService) (s : Store) (c : UUID) :
    List InheritedMessage × List AncestorRef :=
  match svc.branchContext with
  | some cache => branchContextOf cache s c
  | none => ([], [])

/--
The conversation inherits nothing: no ancestor within its reach has a recorded
boundary, and no message of theirs is picked.
-/
structure InheritsNothing (svc : MessageService) (s : Store) (c : UUID) : Prop where
  unbounded : forall cache conv l seg, svc.branchContext = some cache ->
    findConversation cache s c = some (some conv) -> ancestry cache s conv = some l ->
      seg ∈ l.segments -> seg.uptoMessageId = none
  silent : forall cache conv l p, svc.branchContext = some cache ->
    findConversation cache s c = some (some conv) -> ancestry cache s conv = some l ->
      pickOf s .start l.segments.reverse = some p -> p.picked = []

theorem inheritedOf_eq_nil_iff {s : Store} {l : Lineage} :
    inheritedOf s l = [] <->
      forall p, pickOf s .start l.segments.reverse = some p -> p.picked = [] := by
  unfold inheritedOf
  cases pickOf s .start l.segments.reverse with
  | none => simp
  | some p => simp

theorem ancestorRefs_eq_nil_iff {l : Lineage} :
    BranchContextService.ancestorRefs l = [] <->
      forall seg, seg ∈ l.segments -> seg.uptoMessageId = none := by
  unfold BranchContextService.ancestorRefs
  rw [List.filterMap_eq_nil_iff]
  constructor
  · intro h seg hseg
    exact Option.map_eq_none_iff.mp (h seg hseg)
  · intro h seg hseg
    exact Option.map_eq_none_iff.mpr (h seg hseg)

/-- Nothing is inherited exactly where the chain that is found yields nothing. -/
theorem branchContextOf_eq_nil_iff {cache : Option CacheService} {s : Store} {c : UUID} :
    branchContextOf cache s c = ([], []) <->
      forall conv l, findConversation cache s c = some (some conv) ->
        ancestry cache s conv = some l ->
          inheritedOf s l = [] ∧ BranchContextService.ancestorRefs l = [] := by
  unfold branchContextOf
  split
  · rename_i conv hfind
    split
    · rename_i l hl
      rw [Prod.mk.injEq]
      constructor
      · intro h conv' l' hconv' hl'
        rw [hfind] at hconv'
        cases hconv'
        rw [hl] at hl'
        cases hl'
        exact h
      · intro h
        exact h conv l hfind hl
    · rename_i hl
      constructor
      · intro _ conv' l' hconv' hl'
        rw [hfind] at hconv'
        cases hconv'
        rw [hl] at hl'
        cases hl'
      · intro _
        rfl
  · rename_i hfind
    constructor
    · intro _ conv l hconv _
      exact absurd hconv (hfind conv)
    · intro _
      rfl

theorem inheritsNothing_iff {svc : MessageService} {s : Store} {c : UUID} :
    InheritsNothing svc s c <-> inheritedContext svc s c = ([], []) := by
  unfold inheritedContext
  cases hbranch : svc.branchContext with
  | none =>
      constructor
      · intro _
        rfl
      · intro _
        constructor
        · intro cache conv l seg h
          rw [hbranch] at h
          cases h
        · intro cache conv l p h
          rw [hbranch] at h
          cases h
  | some cache =>
      dsimp only
      rw [branchContextOf_eq_nil_iff]
      constructor
      · intro h conv l hconv hl
        exact ⟨inheritedOf_eq_nil_iff.mpr (fun p => h.silent cache conv l p hbranch hconv hl),
          ancestorRefs_eq_nil_iff.mpr
            (fun seg => h.unbounded cache conv l seg hbranch hconv hl)⟩
      · intro h
        constructor
        · intro cache' conv l seg hcache hconv hl
          rw [hbranch] at hcache
          cases hcache
          exact ancestorRefs_eq_nil_iff.mp (h conv l hconv hl).right seg
        · intro cache' conv l p hcache hconv hl
          rw [hbranch] at hcache
          cases hcache
          exact inheritedOf_eq_nil_iff.mp (h conv l hconv hl).left p

theorem inheritsNothing_of_root {svc : MessageService} {s : Store} {c : UUID}
    (hroot : forall cache conv, svc.branchContext = some cache ->
      findConversation cache s c = some (some conv) ->
        conv.parentConversationId = none) :
    InheritsNothing svc s c := by
  have hempty : forall cache conv l, svc.branchContext = some cache ->
      findConversation cache s c = some (some conv) -> ancestry cache s conv = some l ->
        l = ⟨[], none⟩ := by
    intro cache conv l hcache hconv hl
    unfold ancestry lineageOf at hl
    rw [hroot cache conv hcache hconv] at hl
    exact (Option.some.inj hl).symm
  constructor
  · intro cache conv l seg hcache hconv hl hseg
    rw [hempty cache conv l hcache hconv hl] at hseg
    cases hseg
  · intro cache conv l p hcache hconv hl hp
    rw [hempty cache conv l hcache hconv hl] at hp
    cases hp
    rfl

theorem not_inheritsNothing_of_branch {svc : MessageService} {s : Store} {c : UUID}
    {cache : Option CacheService} {conv parent : Conversation} {parentId upto : UUID}
    {l : Lineage} (hcache : svc.branchContext = some cache)
    (hconv : findConversation cache s c = some (some conv))
    (hl : ancestry cache s conv = some l)
    (hparent : conv.parentConversationId = some parentId)
    (hupto : conv.branchMessageId = some upto) (hself : parentId ≠ conv.conversationId)
    (hfound : findConversation cache s parentId = some (some parent))
    (howner : parent.userId = conv.userId) (hlive : parent.status ≠ .deleted) :
    ¬InheritsNothing svc s c := by
  intro h
  have hseg : BranchContextService.segmentOf conv parentId parent ∈ l.segments := by
    unfold ancestry maxLineageDepth lineageOf at hl
    rw [hparent] at hl
    dsimp only at hl
    rw [if_neg (by simpa using hself), hfound] at hl
    dsimp only at hl
    rw [if_neg (not_not.mpr howner), if_neg hlive] at hl
    exact mem_lineageOf_of_mem hl (List.mem_singleton.mpr rfl)
  have hnone := h.unbounded cache conv l _ hcache hconv hl hseg
  unfold BranchContextService.segmentOf at hnone
  rw [hupto] at hnone
  cases hnone

/-!
# The event of a message
-/

theorem filter_isInherited_own {entries : List HistoryEntry}
    (h : forall entry, entry ∈ entries -> exists sender cut id,
      entry = .own sender cut id) :
    entries.filter HistoryEntry.isInherited = [] := by
  rw [List.filter_eq_nil_iff]
  intro entry hentry
  rcases h entry hentry with ⟨sender, cut, id, rfl⟩
  exact Bool.false_ne_true

theorem filter_isInherited_formatHistory (messages : List Message) :
    (MessageService.formatHistory messages).filter HistoryEntry.isInherited = [] := by
  apply filter_isInherited_own
  intro entry hentry
  rcases mem_formatHistory hentry with ⟨msg, cut, _, rfl⟩
  exact ⟨_, _, _, rfl⟩

theorem filter_isInherited_marked (inherited : List InheritedMessage) :
    (inherited.map MessageService.markInherited).filter HistoryEntry.isInherited =
      inherited.map MessageService.markInherited := by
  rw [List.filter_eq_self]
  intro entry hentry
  rcases List.mem_map.mp hentry with ⟨m, _, rfl⟩
  rfl

/-- A user's message without a mode and without tools. -/
structure PlainRequest (args : SendArgs) : Prop where
  sender : args.sender = .user
  mode : args.mode = none
  selectedTools : args.selectedTools = none

section Send

variable {svc : MessageService} {reads : Readings} {args : SendArgs} {s : Store}

theorem wp_recentHistory (c : UUID) {mayFail : Op -> Prop}
    {Q : List HistoryEntry -> Store -> Prop} {E : PyExc -> Store -> Prop}
    (hQ : forall own t, own.filter HistoryEntry.isInherited = [] ->
      SameInputs s t -> Q own t) :
    Prog.wp storageMachine mayFail (svc.recentHistory c) Q E s := by
  unfold MessageService.recentHistory
  rw [Prog.wp_tryCatch, Prog.wp_bind]
  apply wp_paging (MessageService.onlyPages_history _ c _ _)
  · intro messages t ht
    exact hQ _ t (filter_isInherited_formatHistory messages) ht
  · intro e t ht
    exact hQ [] t rfl ht

theorem wp_sendContext (hplain : PlainRequest args)
    {Q : List HistoryEntry × List AncestorRef -> Store -> Prop}
    {E : PyExc -> Store -> Prop}
    (hQ : forall own t, own.filter HistoryEntry.isInherited = [] -> SameCore s t ->
      Q ((inheritedContext svc s args.conversationId).1.map
          MessageService.markInherited ++ own,
        (inheritedContext svc s args.conversationId).2) t) :
    Prog.wp storageMachine noFault (svc.sendContext args) Q E s := by
  unfold MessageService.sendContext
  unfold inheritedContext at hQ
  rw [hplain.sender]
  dsimp only
  rw [Prog.wp_bind]
  apply wp_recentHistory
  intro own t hown ht
  cases hbranch : svc.branchContext with
  | none =>
      rw [hbranch] at hQ
      exact hQ own t hown ht.toSameCore
  | some cache =>
      rw [hbranch] at hQ
      dsimp only at hQ ⊢
      have hcontext := branchContextOf_congr (ht.found cache) args.conversationId
      apply Prog.wp_mono (Prog.wp_and
        (wp_branchEventContext cache args.conversationId own
          (Q := fun context _ => context =
            ((branchContextOf cache t args.conversationId).1.map
              MessageService.markInherited ++ own,
              (branchContextOf cache t args.conversationId).2))
          (E := fun _ _ => False) (fun _ _ => rfl))
        (wp_traffic ((MessageService.onlyLookups_branchEventContext cache
            args.conversationId own).isRead (c := args.conversationId)).isTraffic
          (Q := fun _ u => SameCore t u) (E := fun _ _ => True)
          (fun _ _ hu => hu) (fun _ _ _ => trivial)))
      · intro context u h
        rw [h.left, hcontext]
        exact hQ own u hown (ht.toSameCore.trans h.right)
      · intro e u h
        exact h.left.elim

theorem wp_stageRequest_payload {mayFail : Op -> Prop} (payload : ChatMessageCreated)
    (response : Option UUID) :
    Prog.wp storageMachine mayFail
      (svc.stageRequest reads args.conversationId args.messageId args.sender
          args.content .sent payload args.fileIds response >>= fun msg =>
        svc.invalidateCache args.conversationId >>= fun _ =>
          pure { msg with responseMessageId := response })
      (fun _ t => (t.outbox (MessageRepository.outboxBucket args.conversationId)
        reads.eventId).map OutboxRow.payload = some payload)
      (fun _ _ => True) s := by
  rw [Prog.wp_bind]
  apply wp_stageRequest_keeps svc reads (K := fun _ => True)
  · trivial
  · intro _ _ _ _ _ _
    trivial
  · intro msg
    rw [Prog.wp_bind]
    apply MessageService.wp_invalidateCache
    intro w hw
    rw [Prog.wp_pure, hw.outbox]
    unfold stagedStore
    rw [Store.outbox_putOutbox_self]
    rfl
  · intro e w _
    trivial

theorem wp_send_event (hplain : PlainRequest args) :
    Prog.wp storageMachine noFault (svc.send reads args)
      (fun _ t => exists own resolved, own.filter HistoryEntry.isInherited = [] ∧
        answerOf (svc.resolvePreferences args.userId none none) s = .ok resolved ∧
        (t.outbox (MessageRepository.outboxBucket args.conversationId)
            reads.eventId).map OutboxRow.payload =
          some (MessageService.sendPayload reads args
            ((inheritedContext svc s args.conversationId).1.map
              MessageService.markInherited ++ own,
              (inheritedContext svc s args.conversationId).2) resolved))
      (fun _ _ => True) s := by
  unfold MessageService.send
  dsimp only
  rw [Prog.wp_bind]
  apply wp_sendContext hplain
  intro own t hown ht
  rw [Prog.wp_bind, hplain.mode, hplain.selectedTools]
  have hsame : answerOf (svc.resolvePreferences args.userId none none) s =
      answerOf (svc.resolvePreferences args.userId none none) t :=
    answerOf_resolvePreferences svc args.userId none none
      ⟨ht.preferences, ht.customModes⟩
  rw [hsame]
  apply Prog.wp_mono (wp_answerOf _ t)
  · intro resolved u hresolved
    rw [Prog.wp_bind]
    have hopen : Prog.wp storageMachine noFault
        (MessageService.forResponse (MessageService.responseIdFor reads args)
          (svc.openPendingResponse reads args.conversationId))
        (fun _ _ => True) (fun _ _ => True) u := by
      unfold MessageService.forResponse
      cases MessageService.responseIdFor reads args with
      | none => trivial
      | some r =>
          apply wp_openPendingResponse_keeps (K := fun _ => True)
          · trivial
          · intro _ _ _ _
            trivial
          · intro v _
            trivial
          · intro e v _
            trivial
    apply Prog.wp_mono hopen
    · intro _ v _
      apply Prog.wp_mono (wp_stageRequest_payload _ _)
      · intro msg w hw
        exact ⟨own, resolved, hown, hresolved, hw⟩
      · intro e w _
        trivial
    · intro e v _
      trivial
  · intro e u _
    trivial

end Send

/-!
# Comparing the events
-/

/--
The event of a regeneration agrees with the event of the message itself if and only
if the user has no saved custom mode and the conversation inherits nothing.
-/
theorem regenerate_agrees_iff {svc : MessageService} {reads reads' : Readings}
    {args : SendArgs} {m : UUID} {s s' t t' : Store} {shown : Message} {msg : Message}
    {event event' : OutboxRow} (hplain : PlainRequest args)
    (hprefs : SamePreferences s s')
    (hsend : Prog.Finishes storageMachine noFault (svc.send reads args) s (.ok msg) t)
    (hevent : t.outbox (MessageRepository.outboxBucket args.conversationId)
      reads.eventId = some event)
    (hregenerate : Prog.Finishes storageMachine noFault
      (svc.regenerate reads' args.conversationId m args.userId) s' (.ok (some shown)) t')
    (hevent' : t'.outbox (MessageRepository.outboxBucket args.conversationId)
      reads'.eventId = some event') :
    Agrees event.payload event'.payload <->
      (svc.preferences = false ∨ savedSnapshot s args.userId = none) ∧
        InheritsNothing svc s args.conversationId := by
  rcases Prog.wp_finishes (wp_send_event hplain) hsend with
    ⟨own, resolved, hown, hresolved, hpayload⟩
  rw [hevent] at hpayload
  have hsent := Option.some.inj hpayload
  cases hlocate : MessageService.locate m
      (historyPage s' args.conversationId svc.settings.cacheHistoryLimit) with
  | none =>
      have hnone : Prog.wp storageMachine noFault
          (svc.regenerate reads' args.conversationId m args.userId)
          (fun answer _ => answer = none) (fun _ _ => True) s' := by
        unfold MessageService.regenerate
        rw [Prog.wp_bind]
        apply wp_repositoryHistory
        · rw [hlocate]
          rfl
        · trivial
      cases Prog.wp_finishes hnone hregenerate
  | some found =>
      rcases found with ⟨target, below⟩
      have hresolve : Prog.wp storageMachine noFault
          (svc.resolvePreferences args.userId none none)
          (fun r u => SameCore s' u ∧
            answerOf (svc.resolvePreferences args.userId none none) s' = .ok r)
          (fun _ _ => True) s' := by
        have hreads : Prog.wp storageMachine noFault
            (svc.resolvePreferences args.userId none none) (fun _ u => SameCore s' u)
            (fun _ _ => True) s' :=
          wp_traffic (MessageService.onlyReads_resolvePreferences (k := m) svc
            args.userId none none).isTraffic (fun _ _ hu => hu) (fun _ _ _ => trivial)
        apply Prog.wp_mono (Prog.wp_and hreads (wp_answerOf _ s'))
        · intro r u h
          exact h
        · intro e u _
          trivial
      rcases (Prog.wp_finishes (wp_regenerate_resolved hlocate hresolve)
        hregenerate).right.right with ⟨resolved', hresolved', hstaged⟩
      rw [hevent'] at hstaged
      cases hstaged
      rw [← answerOf_resolvePreferences svc args.userId none none hprefs, hresolved]
        at hresolved'
      cases hresolved'
      have hmode := customMode_of_answerOf hresolved
      rw [hsent, inheritsNothing_iff]
      constructor
      · intro h
        have hcustom : resolved.customMode = none := h.customMode
        have hinherited := h.inherited
        have hrefs : (inheritedContext svc s args.conversationId).2 = [] := h.ancestors
        constructor
        · cases hpreferences : svc.preferences with
          | false => exact Or.inl rfl
          | true =>
              rw [hpreferences, if_pos rfl, hcustom] at hmode
              exact Or.inr hmode.symm
        · have hmarked : ((inheritedContext svc s args.conversationId).1.map
              MessageService.markInherited ++ own).filter HistoryEntry.isInherited =
              (MessageService.formatHistory below.tail).filter
                HistoryEntry.isInherited := hinherited
          rw [List.filter_append, hown, filter_isInherited_marked,
            filter_isInherited_formatHistory, List.append_nil] at hmarked
          exact Prod.ext (List.map_eq_nil_iff.mp hmarked) hrefs
      · intro h
        have hcustom : resolved.customMode = none := by
          rw [hmode]
          rcases h.left with hpreferences | hsnapshot
          · rw [hpreferences]
            rfl
          · rw [hsnapshot, ite_self]
        rw [h.right]
        constructor
        · rfl
        · rfl
        · rfl
        · rfl
        · exact hcustom
        · show (([] : List HistoryEntry) ++ own).filter HistoryEntry.isInherited =
            (MessageService.formatHistory below.tail).filter HistoryEntry.isInherited
          rw [List.nil_append, hown, filter_isInherited_formatHistory]
        · rfl

/-! An answered question, with and without a saved custom mode of its user. -/

def answeredStore : Store :=
  (Store.blank.upsertMessage firstQuestion.conversationId firstQuestion.messageId
    (Row.inserted .user (text "First?") ⟨0, true⟩ .sent none)).upsertMessage
      firstQuestion.conversationId firstAnswerId
      (Row.inserted .assistant (text "One.") ⟨0, true⟩ .sent none)

theorem eq_ok_of_toOption {alpha : Type} {result : Except PyExc alpha} {a : alpha}
    (h : result.toOption = some a) : result = .ok a := by
  cases result with
  | error e => cases h
  | ok b => exact congrArg Except.ok (Option.some.inj h)

theorem finishes_of_run {alpha : Type} {p : Py alpha} {s : Store} {a : alpha}
    (h : (Prog.run storageMachine (fun _ => false) p s).1 = .ok a) :
    Prog.Finishes storageMachine noFault p s (.ok a)
      (Prog.run storageMachine (fun _ => false) p s).2 := by
  have hfin := Prog.run_finishes storageMachine (fun _ => false) p s
  rw [noFault_eq, h] at hfin
  exact hfin

/-- In a conversation without a parent, without saved preferences, the two agree. -/
theorem regenerate_agrees_iff_root :
    exists event event',
      (Prog.run storageMachine (fun _ => false)
          (Deployment.single.api.send (.at 1002) firstQuestion) .blank).2.outbox
        (MessageRepository.outboxBucket firstQuestion.conversationId)
        (Readings.at 1002).eventId = some event ∧
      (Prog.run storageMachine (fun _ => false)
          (Deployment.single.api.regenerate (.at 2000) firstQuestion.conversationId
            firstAnswerId none) answeredStore).2.outbox
        (MessageRepository.outboxBucket firstQuestion.conversationId)
        (Readings.at 2000).eventId = some event' ∧
      (Agrees event.payload event'.payload <->
        (Deployment.single.api.preferences = false ∨
          savedSnapshot .blank firstQuestion.userId = none) ∧
          InheritsNothing Deployment.single.api .blank firstQuestion.conversationId) := by
  rcases Option.isSome_iff_exists.mp (show ((Prog.run storageMachine (fun _ => false)
      (Deployment.single.api.send (.at 1002) firstQuestion) .blank).2.outbox
        (MessageRepository.outboxBucket firstQuestion.conversationId)
        (Readings.at 1002).eventId).isSome = true by decide) with
    ⟨event, hevent⟩
  rcases Option.isSome_iff_exists.mp (show ((Prog.run storageMachine (fun _ => false)
      (Deployment.single.api.regenerate (.at 2000) firstQuestion.conversationId
        firstAnswerId none) answeredStore).2.outbox
        (MessageRepository.outboxBucket firstQuestion.conversationId)
        (Readings.at 2000).eventId).isSome = true by decide) with
    ⟨event', hevent'⟩
  rcases Option.isSome_iff_exists.mp (show (Prog.run storageMachine (fun _ => false)
      (Deployment.single.api.send (.at 1002) firstQuestion)
        .blank).1.toOption.isSome = true by decide) with ⟨msg, hmsg⟩
  rcases Option.isSome_iff_exists.mp (show ((Prog.run storageMachine (fun _ => false)
      (Deployment.single.api.regenerate (.at 2000) firstQuestion.conversationId
        firstAnswerId none) answeredStore).1.toOption.bind id).isSome = true by
          decide) with ⟨shown, hshown⟩
  refine ⟨event, event', hevent, hevent', ?_⟩
  have hsent : (Prog.run storageMachine (fun _ => false)
      (Deployment.single.api.send (.at 1002) firstQuestion) .blank).1 = .ok msg :=
    eq_ok_of_toOption hmsg
  have hagain : (Prog.run storageMachine (fun _ => false)
      (Deployment.single.api.regenerate (.at 2000) firstQuestion.conversationId
        firstAnswerId none) answeredStore).1 = .ok (some shown) := by
    rcases Option.bind_eq_some_iff.mp hshown with ⟨answer, hanswer, rfl⟩
    exact eq_ok_of_toOption hanswer
  have hplain : PlainRequest firstQuestion := by
    constructor <;> rfl
  have hprefs : SamePreferences .blank answeredStore := by
    constructor <;> rfl
  exact regenerate_agrees_iff hplain hprefs (finishes_of_run hsent) hevent
    (finishes_of_run hagain) hevent'

def customStore : Store :=
  { Store.blank with
    preferences := fun _ => some
      { document :=
          { UserPreferences.default with
            defaultMode := some (text "custom:00000000-0000-0000-0000-000000000007") }
        version := 1 }
    customModes := fun _ modeId => some
      { modeId := modeId
        version := 3
        name := text "Tutor"
        executionStyle := .smart
        instructions := text "Answer with a question."
        active := true } }

def customQuestion : SendArgs :=
  { firstQuestion with userId := some (.ofInt 5) }

def customAnsweredStore : Store :=
  Call.after .single (answerTo firstAnswerId (text "One."))
    (Call.after .single (.send (.at 1002) customQuestion) customStore)

/-- The event of the message carries the snapshot, that of the regeneration does not. -/
theorem regenerate_dropsSnapshot :
    ((customAnsweredStore.outbox
        (MessageRepository.outboxBucket firstQuestion.conversationId)
        (Readings.at 1002).eventId).map (fun event =>
          (event.payload.modeHint, event.payload.customMode.map (fun x => x.name)))) =
        some (some (text "smart"), some (text "Tutor")) ∧
      (((Prog.run storageMachine (fun _ => false)
          (Deployment.single.api.regenerate (.at 2000) firstQuestion.conversationId
            firstAnswerId customQuestion.userId) customAnsweredStore).2.outbox
        (MessageRepository.outboxBucket firstQuestion.conversationId)
        (Readings.at 2000).eventId).map (fun event =>
          (event.payload.modeHint, event.payload.customMode.map (fun x => x.name)))) =
        some (some (text "smart"), none) :=
  ⟨by decide, by decide⟩

end ConversationService
