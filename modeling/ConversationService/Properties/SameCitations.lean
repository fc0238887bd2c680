import ConversationService.Effects.Operations
import ConversationService.Effects.Replies
import ConversationService.Effects.SanitizedCitations

/-!
# Citations live, stored and reloaded

The handler of a success event sanitises the citations and publishes them, the write of
the message sanitises them again, and so does every read of the row and of the cached
history. All of them agree exactly when no text that is kept is cut behind a blank.
-/

namespace ConversationService

open Python Programs

/-- The entries of the `citations` field of an event. -/
def citationItems (event : Event) : List Json :=
  Citations.itemsOf (Json.get event (text "citations"))

/-!
# What is published
-/

section Publishing

variable {mayFail : Op -> Prop} {s : Store}

/-- Nothing but `PUBLISH` publishes. -/
def Op.IsQuiet : Op -> Prop
  | .publishEvent _ _ => False
  | _ => True

theorem wp_published {alpha : Type} {p : Py alpha} (hp : OnlyOps Op.IsQuiet p) :
    Prog.wp storageMachine mayFail p (fun _ (t : Store) => t.published = s.published)
      (fun _ (t : Store) => t.published = s.published) s := by
  have hkeep : forall (o : Op) (t : Store), o.IsQuiet -> t.published = s.published ->
      (o.exec t).2.published = s.published := by
    intro o t ho ht
    cases o <;> first | exact ho.elim | exact ht
  have hstart : (fun t : Store => t.published = s.published) s := rfl
  exact Prog.wp_of_allOps hp hkeep hstart

theorem wp_publishToken_published (stream : StreamService) (c : UUID)
    (chunkData : List (Text × Json)) {Q : Store -> Prop} {E : PyExc -> Store -> Prop}
    (hquiet : forall t : Store, t.published = s.published -> SameCore s t -> Q t)
    (hpublished : forall (t : Store) more, t.published =
      Function.update s.published c (s.published c ++ [.obj (chunkData ++ more)]) ->
      SameCore s t -> Q t) :
    Prog.wp storageMachine mayFail (stream.publishToken c chunkData) (fun _ t => Q t) E s := by
  have hcore : Prog.wp storageMachine mayFail (stream.publishToken c chunkData)
      (fun _ t => SameCore s t) (fun _ _ => False) s :=
    wp_publishToken stream c chunkData (fun _ ht => ht)
  have hfields : Prog.wp storageMachine mayFail (stream.publishToken c chunkData)
      (fun _ (t : Store) => t.published = s.published ∨ exists more, t.published =
        Function.update s.published c (s.published c ++ [.obj (chunkData ++ more)]))
      (fun _ _ => False) s := by
    have hsend : forall (u : Store) more, u.published = s.published ->
        Prog.wp storageMachine mayFail (Prog.tryCatch
          (perform (.publishEvent c (.obj (chunkData ++ more)))) (fun _ => pure ()))
          (fun _ (t : Store) => t.published = s.published ∨ exists more, t.published =
            Function.update s.published c (s.published c ++ [.obj (chunkData ++ more)]))
          (fun _ _ => False) u := by
      intro u more hu
      rw [Prog.wp_tryCatch, wp_perform]
      constructor
      · right
        refine ⟨more, ?_⟩
        show Function.update u.published c (u.published c ++ _) = _
        rw [hu]
      · exact fun _ => Or.inl hu
    unfold StreamService.publishToken
    split
    · rw [Prog.wp_bind, Prog.wp_tryCatch, Prog.wp_bind, wp_perform, Prog.wp_bind, wp_perform]
      refine ⟨⟨?_, fun _ => ?_⟩, fun _ => ?_⟩
      · exact hsend _ _ rfl
      · have hplain := hsend ((Op.xaddEvent c (.obj chunkData)).exec s).2 [] rfl
        rw [List.append_nil] at hplain
        exact hplain
      · have hplain := hsend s [] rfl
        rw [List.append_nil] at hplain
        exact hplain
    · exact Or.inl rfl
  refine Prog.wp_mono (Prog.wp_and hcore hfields) ?_ (fun _ _ h => h.left.elim)
  rintro _ t ⟨hsame, hquiet' | ⟨more, hmore⟩⟩
  · exact hquiet t hquiet' hsame
  · exact hpublished t more hmore hsame

/-!
# The handler of a success event
-/

/--
Nothing is published, or the completed event with the sanitised citations, for which
the row has been written.
-/
inductive Answered (now : Datetime) (event : Event) (r c : UUID) (s t : Store) : Prop where
  | quiet : t.published = s.published -> Answered now event r c s t
  | completed (kept : List Citation) (column : Option Json) (content : Text)
      (payload : List (Text × Json)) :
      Citations.sanitizeCitations (Json.get event (text "citations")) = some kept ->
      citationsColumn (Consumers.finalCitations kept) = some column ->
      t.row c r = some (Row.inserted .assistant content now .sent column (s.row c r)) ->
      t.published = Function.update s.published c (s.published c ++ [.obj payload]) ->
      Json.get payload (text "citations") = Citations.toJson kept ->
      Answered now event r c s t

theorem answered_recorded {now : Datetime} {event : Event} {r c : UUID} {t : Store}
    {key : InboxKey} (h : Answered now event r c s t) :
    Answered now event r c s (t.saveInbox key) := by
  cases h with
  | quiet hquiet => exact .quiet hquiet
  | completed kept column content payload hkept hcolumn hrow hpublished hcitations =>
      exact .completed kept column content payload hkept hcolumn hrow hpublished hcitations

theorem wp_finalize_answered {svc : MessageService} {now : Datetime} {c r : UUID}
    {content citations : Json} {Q : Option Message -> Store -> Prop}
    {E : PyExc -> Store -> Prop}
    (hwrite : forall msg t column u, citationsColumn citations = some column ->
      u.row c r = some (Row.inserted .assistant t now .sent column (s.row c r)) ->
      u.published = s.published -> Q (some msg) u)
    (hrefuse : forall u, u.published = s.published -> Q none u)
    (hE : forall e (u : Store), u.published = s.published -> E e u) :
    Prog.wp storageMachine mayFail
      (svc.finalizeAssistantMessage now c r content citations) Q E s := by
  have hrow : Prog.wp storageMachine mayFail
      (svc.finalizeAssistantMessage now c r content citations)
      (fun written u => forall msg, written = some msg -> exists t column,
        citationsColumn citations = some column ∧
        u.row c r = some (Row.inserted .assistant t now .sent column (s.row c r)))
      (fun _ _ => True) s := by
    apply wp_finalizeAssistantMessage
    · intro msg t column u _ _ hcolumn hu _ _
      refine ⟨t, column, hcolumn, ?_⟩
      unfold Store.row
      rw [hu.messages]
      exact Store.row_upsertMessage_self s c r _
    · intro _ msg h
      cases h
    · exact fun _ _ => trivial
  have hops : OnlyOps Op.IsQuiet (svc.finalizeAssistantMessage now c r content citations) :=
    onlyOps_finalizeAssistantMessage svc trivial trivial (fun _ _ _ => trivial)
  have hpublished : Prog.wp storageMachine mayFail
      (svc.finalizeAssistantMessage now c r content citations)
      (fun _ (u : Store) => u.published = s.published)
      (fun _ (u : Store) => u.published = s.published) s := wp_published hops
  refine Prog.wp_mono (Prog.wp_and hrow hpublished) ?_ (fun e u h => hE e u h.right)
  rintro written u ⟨hwritten, hquiet⟩
  cases written with
  | none => exact hrefuse u hquiet
  | some msg =>
      rcases hwritten msg rfl with ⟨t, column, hcolumn, hstored⟩
      exact hwrite msg t column u hcolumn hstored hquiet

theorem wp_handleSuccess_answered (svc : MessageService) (stream : StreamService)
    (now : Datetime) (event : Event) (r c : UUID) (value : Json) :
    Prog.wp storageMachine mayFail
      (Consumers.handleSuccess svc stream now event r c value)
      (fun _ t => Answered now event r c s t) (fun _ t => Answered now event r c s t) s := by
  unfold Consumers.handleSuccess
  cases hkept : Citations.sanitizeCitations (Json.get event (text "citations")) with
  | none => exact .quiet rfl
  | some kept =>
      dsimp only
      rw [Prog.wp_bind]
      apply wp_finalize_answered
      · intro msg content column u hcolumn hrow hpublished
        rw [Prog.wp_bind]
        apply wp_clearPendingResponse
        intro v hv
        have hcleared : v.published = s.published := by
          cases hv <;> exact hpublished
        have hstored : v.row c r =
            some (Row.inserted .assistant content now .sent column (s.row c r)) := by
          rw [hv.row]
          exact hrow
        rw [Prog.wp_bind]
        apply wp_publishToken_published
        · intro t ht _
          exact .quiet (ht.trans hcleared)
        · intro t more ht hsame
          rw [hcleared] at ht
          refine .completed kept column content _ hkept hcolumn ?_ ht ?_
          · unfold Store.row
            rw [hsame.messages]
            exact hstored
          · rfl
      · intro u hu
        exact .quiet hu
      · intro e u hu
        exact .quiet hu

theorem wp_handleChatResponseGenerated_answered (svc : MessageService)
    (stream : StreamService) (now : Datetime) {event : Event} {r c : UUID}
    (hsuccess : Consumers.isSuccess event = true) (hnames : Consumers.Names event r c) :
    Prog.wp storageMachine mayFail
      (Consumers.handleChatResponseGenerated svc stream now event)
      (fun _ t => Answered now event r c s t) (fun _ t => Answered now event r c s t) s := by
  rcases hnames with ⟨value, htarget, hparse⟩
  unfold Consumers.handleChatResponseGenerated
  rw [htarget]
  dsimp only
  rw [Consumers.deriveEventId_generated, Prog.ret_bind, Prog.wp_bind, wp_perform]
  constructor
  · change Prog.wp storageMachine mayFail
      (if s.inbox (Consumers.generatedKey r) = true then pure () else _) _ _ s
    split
    · exact .quiet rfl
    · rw [hparse, Prog.ret_bind, Prog.wp_bind]
      unfold Consumers.handleOutcome
      rw [if_pos hsuccess]
      refine Prog.wp_mono (wp_handleSuccess_answered svc stream now event r c value) ?_
        (fun _ _ h => h)
      intro written t ht
      unfold Consumers.recordHandled
      split
      · rw [wp_perform]
        exact ⟨answered_recorded ht, fun _ => ht⟩
      · exact ht
  · exact fun _ => .quiet rfl

end Publishing

/-!
# The same citations everywhere
-/

/-- The event, the message as it is read back and its cached copy have one list. -/
def SameCitations (published : Json) (message : Message) : Prop :=
  exists payload, published = .obj payload ∧
    Json.get payload (text "citations") = Citations.toJson message.citations ∧
    (CacheService.cachedMessage message).map Message.citations = some message.citations

/-- No text that is kept of an event is cut behind a blank. -/
def CutsNoBlanks (event : Event) : Prop :=
  Citations.KeepsCutClean (citationItems event)

/-- An event without an entry that fits finds no citations in the row. -/
def LeavesNone (event : Event) (old : Option Row) : Prop :=
  (forall entries, entries <+: Citations.entriesOf (citationItems event) ->
    Citations.Fits entries -> entries = []) ->
  Citations.loadsCitations (old.bind Row.citations) = []

theorem citationsColumn_final {items : List Json} {kept : List Citation}
    (h : Citations.Keeps items kept) :
    citationsColumn (Consumers.finalCitations kept) = some
      (if kept.isEmpty then none
      else some (Citations.toJson (kept.map Citations.trimmed).eraseDups)) := by
  unfold Consumers.finalCitations citationsColumn
  cases kept with
  | nil => rfl
  | cons c rest =>
      have htruthy : (Citations.toJson (c :: rest)).truthy = true := rfl
      have hnonempty : ((c :: rest).map Citations.trimmed).eraseDups.isEmpty = false := by
        rw [List.map_cons, List.eraseDups_cons]
        rfl
      have hfinal : (if (c :: rest).isEmpty then Json.null else Citations.toJson (c :: rest)) =
          Citations.toJson (c :: rest) := rfl
      rw [hfinal, if_pos htruthy, Citations.sanitize_again h, Option.map_some, hnonempty]
      rfl

theorem sameCitations_of_stable {payload : List (Text × Json)} {message : Message}
    {kept : List Citation} (hpayload : Json.get payload (text "citations") =
      Citations.toJson kept)
    (hstable : Citations.sanitizeCitations (Citations.toJson message.citations) =
      some message.citations) :
    SameCitations (.obj payload) message <-> message.citations = kept := by
  have hcached : (CacheService.cachedMessage message).map Message.citations =
      some message.citations := by
    unfold CacheService.cachedMessage
    rw [hstable]
    rfl
  constructor
  · rintro ⟨payload', hsame, hlive, _⟩
    cases hsame
    rw [hpayload] at hlive
    exact (Citations.toJson_injective hlive).symm
  · intro h
    refine ⟨payload, rfl, ?_, hcached⟩
    rw [hpayload, h]

theorem sameCitations_iff {now : Datetime} {event : Event} {old : Option Row}
    {kept : List Citation} {column : Option Json} {content : Text}
    {payload : List (Text × Json)} {message : Message}
    (hkept : Citations.Keeps (citationItems event) kept)
    (hcolumn : citationsColumn (Consumers.finalCitations kept) = some column)
    (hmessage : message.citations = Citations.loadsCitations
      (Row.inserted .assistant content now .sent column old).citations)
    (hpayload : Json.get payload (text "citations") = Citations.toJson kept) :
    SameCitations (.obj payload) message <->
      CutsNoBlanks event ∧ LeavesNone event old := by
  rw [citationsColumn_final hkept] at hcolumn
  have hagain := Citations.sanitize_again_iff hkept
  cases kept with
  | nil =>
      cases hcolumn
      have hnone : forall entries, entries <+: Citations.entriesOf (citationItems event) ->
          Citations.Fits entries -> entries = [] := by
        intro entries hentries hfits
        exact List.prefix_nil.mp (hkept.longest entries hentries hfits)
      have hclean : CutsNoBlanks event := hagain.mp rfl
      change message.citations = Citations.loadsCitations (old.bind Row.citations) at hmessage
      have hstable : message.citations = [] ->
          Citations.sanitizeCitations (Citations.toJson message.citations) =
            some message.citations := by
        intro h
        rw [h]
        rfl
      constructor
      · rintro ⟨payload', hsame, hlive, hcached⟩
        cases hsame
        rw [hpayload] at hlive
        refine ⟨hclean, fun _ => ?_⟩
        rw [← hmessage]
        exact (Citations.toJson_injective hlive).symm
      · intro h
        have hempty : message.citations = [] := hmessage.trans (h.right hnone)
        exact (sameCitations_of_stable hpayload (hstable hempty)).mpr hempty
  | cons c rest =>
      cases hcolumn
      have hloads : message.citations = ((c :: rest).map Citations.trimmed).eraseDups := by
        rw [hmessage]
        show (Citations.sanitizeCitations (Citations.toJson _)).getD [] = _
        rw [Citations.sanitize_stable hkept]
        rfl
      have hleaves : LeavesNone event old := by
        intro hnone
        have hfits : Citations.Fits (c :: rest) :=
          hkept.fits.resolve_left (List.cons_ne_nil c rest)
        exact absurd (hnone _ hkept.entries hfits) (List.cons_ne_nil c rest)
      have hstable : Citations.sanitizeCitations (Citations.toJson message.citations) =
          some message.citations := by
        rw [hloads]
        exact Citations.sanitize_stable hkept
      rw [sameCitations_of_stable hpayload hstable, hloads]
      rw [Citations.sanitize_again hkept, Option.some_inj] at hagain
      exact hagain.trans (iff_self_and.mpr (fun _ => hleaves))

/-- The first pass against the second one, and against what is read from the column. -/
theorem sanitize_reloaded_iff {value : Json} {kept : List Citation}
    (h : Citations.sanitizeCitations value = some kept) :
    (Citations.sanitizeCitations (Citations.toJson kept) = some kept <->
      Citations.KeepsCutClean (Citations.itemsOf value)) ∧
    (Citations.loadsCitations (some (Citations.toJson kept)) = kept <->
      Citations.KeepsCutClean (Citations.itemsOf value)) := by
  rw [Citations.sanitize_itemsOf] at h
  have hkept := Citations.keeps_of_sanitize h
  have hagain := Citations.sanitize_again_iff hkept
  have hloads : Citations.loadsCitations (some (Citations.toJson kept)) =
      (kept.map Citations.trimmed).eraseDups := by
    show (Citations.sanitizeCitations (Citations.toJson kept)).getD [] = _
    rw [Citations.sanitize_again hkept]
    rfl
  refine ⟨hagain, ?_⟩
  rw [hloads, ← hagain, Citations.sanitize_again hkept, Option.some_inj]

theorem sameCitations_finished {mayFail : Op -> Prop} {svc : MessageService}
    {stream : StreamService} {now : Datetime} {event : Event} {r c : UUID} {s t : Store}
    {result : Except PyExc Unit} {published : Json}
    (hsuccess : Consumers.isSuccess event = true) (hnames : Consumers.Names event r c)
    (hfin : Prog.Finishes storageMachine mayFail
      (Consumers.handleChatResponseGenerated svc stream now event) s result t)
    (hpublished : t.published c = s.published c ++ [published]) :
    exists row message, t.row c r = some row ∧
      MessageRepository.liveMessage c (r, row) = some message ∧
      (SameCitations published message <->
        CutsNoBlanks event ∧ LeavesNone event (s.row c r)) := by
  have hanswered : Answered now event r c s t := by
    have hend := Prog.wp_finishes
      (wp_handleChatResponseGenerated_answered svc stream now hsuccess hnames) hfin
    cases result with
    | ok _ => exact hend
    | error _ => exact hend
  cases hanswered with
  | quiet hquiet =>
      rw [hquiet] at hpublished
      exact absurd (congrArg List.length hpublished) (by simp)
  | completed kept column content payload hkept hcolumn hrow hsent hcitations =>
      rw [hsent, Function.update_self] at hpublished
      have hsame : .obj payload = published := by
        simpa using hpublished
      refine ⟨_, _, hrow, rfl, ?_⟩
      rw [← hsame]
      rw [Citations.sanitize_itemsOf] at hkept
      exact sameCitations_iff (Citations.keeps_of_sanitize hkept) hcolumn rfl hcitations

/--
The citations of a completed event, of the message and of its cached copy are the same,
and sanitising is idempotent on them, exactly when no text is cut behind a blank and an
event without citations finds none in the row.
-/
theorem same_citations_iff (mayFail : Op -> Prop) (svc : MessageService)
    (stream : StreamService) :
    (forall value kept, Citations.sanitizeCitations value = some kept ->
      (Citations.sanitizeCitations (Citations.toJson kept) = some kept <->
        Citations.KeepsCutClean (Citations.itemsOf value)) ∧
      (Citations.loadsCitations (some (Citations.toJson kept)) = kept <->
        Citations.KeepsCutClean (Citations.itemsOf value))) ∧
    forall (now : Datetime) (event : Event) (r c : UUID) (s t : Store)
      (result : Except PyExc Unit) (published : Json),
      Consumers.isSuccess event = true -> Consumers.Names event r c ->
      Prog.Finishes storageMachine mayFail
        (Consumers.handleChatResponseGenerated svc stream now event) s result t ->
      t.published c = s.published c ++ [published] ->
      exists row message, t.row c r = some row ∧
        MessageRepository.liveMessage c (r, row) = some message ∧
        (SameCitations published message <->
          CutsNoBlanks event ∧ LeavesNone event (s.row c r)) := by
  constructor
  · exact fun _ _ h => sanitize_reloaded_iff h
  · intro now event r c s t result published hsuccess hnames hfin hpublished
    exact sameCitations_finished hsuccess hnames hfin hpublished

/-!
# A name cut behind a blank
-/

def citingEvent (sourceName : Text) : Event :=
  Consumers.finalEvent (.ofInt 2) (.ofInt 1)
    [(text "full_content", .str (text "An answer.")),
      (text "citations", .arr [.obj [(text "file_id", .str (text "f1")),
        (text "source_name", .str sourceName)]])]

def citingStore (sourceName : Text) : Store :=
  (Prog.run storageMachine (fun _ => false)
    (Consumers.handleChatResponseGenerated Deployment.single.api ⟨true⟩ ⟨9000, true⟩
      (citingEvent sourceName)) Store.blank).2

theorem citing_finishes (sourceName : Text) :
    exists result, Prog.Finishes storageMachine noFault
      (Consumers.handleChatResponseGenerated Deployment.single.api ⟨true⟩ ⟨9000, true⟩
        (citingEvent sourceName)) Store.blank result (citingStore sourceName) := by
  have hfin := Prog.run_finishes storageMachine (fun _ => false)
    (Consumers.handleChatResponseGenerated Deployment.single.api ⟨true⟩ ⟨9000, true⟩
      (citingEvent sourceName)) Store.blank
  rw [noFault_eq] at hfin
  exact ⟨_, hfin⟩

theorem citationItems_citingEvent (sourceName : Text) :
    citationItems (citingEvent sourceName) =
      [.obj [(text "file_id", .str (text "f1")), (text "source_name", .str sourceName)]] :=
  rfl

/-- A name of fewer than three hundred characters is kept whole. -/
theorem same_citations_short_name :
    exists published row message,
      (citingStore (text "spec.pdf")).row (.ofInt 1) (.ofInt 2) = some row ∧
      MessageRepository.liveMessage (.ofInt 1) (.ofInt 2, row) = some message ∧
      SameCitations published message ∧ message.citations.length = 1 := by
  rcases citing_finishes (text "spec.pdf") with ⟨result, hfin⟩
  have hone : ((citingStore (text "spec.pdf")).published (.ofInt 1)).length = 1 := by
    decide
  rcases List.length_eq_one_iff.mp hone with ⟨published, hpublished⟩
  rcases (same_citations_iff noFault _ _).right _ (citingEvent (text "spec.pdf")) (.ofInt 2)
    (.ofInt 1) Store.blank _ result published rfl (Consumers.names_finalEvent _ _ _) hfin
    hpublished with ⟨row, message, hrow, hmessage, hsame⟩
  refine ⟨published, row, message, hrow, hmessage, hsame.mpr ⟨?_, fun _ => rfl⟩, ?_⟩
  · intro entries _ _ fields c hfields _ _
    change .obj fields ∈ citationItems (citingEvent (text "spec.pdf")) at hfields
    rw [citationItems_citingEvent, List.mem_singleton] at hfields
    cases hfields
    constructor
    · rintro ⟨s, c, hs, hc, _⟩
      cases hs
      have hshort : (strip (text "spec.pdf"))[maxFieldChars - 1]? = none := by decide
      rw [hshort] at hc
      cases hc
    · rintro ⟨s, c, hs, hc, _⟩
      cases hs
  · have hlength : ((citingStore (text "spec.pdf")).row (.ofInt 1) (.ofInt 2)).map
        (fun row => (Citations.loadsCitations row.citations).length) = some 1 := by
      decide +kernel
    rw [hrow] at hlength
    rcases Option.map_eq_some_iff.mp hmessage with ⟨status, _, rfl⟩
    exact Option.some.inj hlength

/-- Its three hundredth character is a blank. -/
def blankName : Text :=
  List.replicate 299 0x61 ++ text " b"

/-- The blank is published, and stripped before the citation is stored. -/
theorem blank_at_cut_differs :
    ¬forall (svc : MessageService) (stream : StreamService) (now : Datetime) (event : Event)
      (r c : UUID) (s t : Store) (result : Except PyExc Unit) (published : Json),
      Consumers.isSuccess event = true -> Consumers.Names event r c ->
      Prog.Finishes storageMachine noFault
        (Consumers.handleChatResponseGenerated svc stream now event) s result t ->
      t.published c = s.published c ++ [published] ->
      exists row message, t.row c r = some row ∧
        MessageRepository.liveMessage c (r, row) = some message ∧
        SameCitations published message := by
  intro h
  rcases citing_finishes blankName with ⟨result, hfin⟩
  have hone : ((citingStore blankName).published (.ofInt 1)).length = 1 := by
    decide +kernel
  rcases List.length_eq_one_iff.mp hone with ⟨published, hpublished⟩
  rcases h _ _ _ (citingEvent blankName) (.ofInt 2) (.ofInt 1) Store.blank _ result published
    rfl (Consumers.names_finalEvent _ _ _) hfin hpublished with
    ⟨row, message, hrow, hmessage, hsame⟩
  rcases sameCitations_finished rfl (Consumers.names_finalEvent (.ofInt 2) (.ofInt 1) _) hfin
    hpublished with ⟨row', message', hrow', hmessage', hiff⟩
  rw [hrow] at hrow'
  cases hrow'
  rw [hmessage] at hmessage'
  cases hmessage'
  have hclean : CutsNoBlanks (citingEvent blankName) := (hiff.mp hsame).left
  let entry : Citation :=
    { fileId := text "f1", sourceName := List.replicate 299 0x61 ++ text " ",
      pageNumber := none, sectionName := none, range := none }
  have hentry : Citations.cleanOne (.obj [(text "file_id", .str (text "f1")),
      (text "source_name", .str blankName)]) = some entry := by
    decide +kernel
  have hentries : Citations.entriesOf (citationItems (citingEvent blankName)) = [entry] := by
    rw [citationItems_citingEvent, Citations.entriesOf, List.filterMap_cons_some hentry]
    rfl
  have hcut := hclean [entry] (hentries ▸ List.prefix_refl _) ⟨369, by decide +kernel, by decide⟩ _ entry
    (by rw [citationItems_citingEvent]; exact List.mem_singleton_self _) hentry
    (List.mem_singleton_self entry)
  apply hcut.left
  exact ⟨blankName, 0x20, rfl, by decide, by decide⟩

end ConversationService
