import ConversationService.Effects.RowChanges

/-!
# Which reply a response ends with

Final events, timeout passes and waiting on one response, one call after the
other. The first final event that can be stored decides: it is recorded in the
inbox, and every later one is taken for a duplicate, also a success after an
error.
-/

namespace ConversationService

open Python Programs Consumers

variable {d : Deployment}

inductive ReplyStep where
  | timeout (now : UUID -> Datetime) (nowTs : Nat)
  | event (now : Datetime) (event : Event)
  | wait (micros : Nat)

/--
One step, in which no operation raises. The records of the inbox live for seven days; waiting
does not touch them, so the steps of a sequence lie within that time.
-/
inductive Takes (d : Deployment) : ReplyStep -> Store -> Store -> Prop where
  | timeout {now : UUID -> Datetime} {nowTs : Nat} {s t : Store}
      {result : Except PyExc Unit} :
      Prog.Finishes storageMachine noFault (Call.program d (.timeoutPass now nowTs))
        s result t ->
      Takes d (.timeout now nowTs) s t
  | event {now : Datetime} {event : Event} {s t : Store}
      {result : Except PyExc Unit} :
      Prog.Finishes storageMachine noFault (Call.program d (.generated now event))
        s result t ->
      Takes d (.event now event) s t
  | wait {micros : Nat} {s : Store} :
      Takes d (.wait micros) s { s with clock := s.clock + micros }

inductive TakesAll (d : Deployment) : List ReplyStep -> Store -> Store -> Prop where
  | done {s : Store} : TakesAll d [] s s
  | step {x : ReplyStep} {rest : List ReplyStep} {s t u : Store} :
      Takes d x s t -> TakesAll d rest t u -> TakesAll d (x :: rest) s u

/-- The first final event whose values the database accepts. -/
def firstAnswer : List ReplyStep -> Option Event
  | [] => none
  | .event now event :: rest =>
      if (replyRow now event).isSome then some event else firstAnswer rest
  | .timeout _ _ :: rest => firstAnswer rest
  | .wait _ :: rest => firstAnswer rest

theorem firstAnswer_mem {steps : List ReplyStep} {event : Event}
    (h : firstAnswer steps = some event) : exists now, .event now event ∈ steps := by
  induction steps with
  | nil => cases h
  | cons x rest ih =>
      cases x with
      | timeout now nowTs =>
          rcases ih h with ⟨now', hmem⟩
          exact ⟨now', List.mem_cons_of_mem _ hmem⟩
      | event now event' =>
          unfold firstAnswer at h
          split at h
          · cases h
            exact ⟨now, by simp⟩
          · rcases ih h with ⟨now', hmem⟩
            exact ⟨now', List.mem_cons_of_mem _ hmem⟩
      | wait micros =>
          rcases ih h with ⟨now', hmem⟩
          exact ⟨now', List.mem_cons_of_mem _ hmem⟩

/-!
# The three phases of a response
-/

/-- No final event has been recorded, and the row holds no reply. -/
structure Unanswered (c r : UUID) (s : Store) : Prop where
  new : s.inbox (generatedKey r) = false
  row : exists row, s.row c r = some row ∧ row.sender = some .assistant ∧
    row.status ≠ .sent

/-- A success has been recorded, and the row holds its content. -/
structure RepliedWith (c r : UUID) (content : Text) (s : Store) : Prop where
  recorded : s.inbox (generatedKey r) = true
  row : exists row, s.row c r = some row ∧ row.sender = some .assistant ∧
    row.status = .sent ∧ row.content = some content

/-- An error has been recorded, and the row is a failure. -/
structure Errored (c r : UUID) (s : Store) : Prop where
  recorded : s.inbox (generatedKey r) = true
  row : exists row, s.row c r = some row ∧ row.sender = some .assistant ∧
    row.status = .failed

theorem takes_timeout {now : UUID -> Datetime} {nowTs : Nat} {s t : Store}
    {c r : UUID} {row : Row} (h : Takes d (.timeout now nowTs) s t)
    (hrow : s.row c r = some row) :
    t.inbox = s.inbox ∧
      exists row', t.row c r = some row' ∧
        (row' = row ∨ (¬PendingTimeoutWorker.HasSent s c r ∧
          row'.sender = some .assistant ∧ row'.status = .failed)) := by
  cases h with
  | timeout hfin =>
      have heffect := callEffect (mintsUnused_timeoutPass d now nowTs s) hfin
      constructor
      · cases heffect with
        | untouched hcore => exact hcore.inbox
        | passed hpass => exact hpass.inbox
      · rcases call_row (mintsUnused_timeoutPass d now nowTs s) heffect hrow with
          ⟨row', hrow', hchange⟩
        refine ⟨row', hrow', ?_⟩
        cases heffect with
        | untouched hcore =>
            left
            rw [hcore.row, hrow] at hrow'
            exact (Option.some.inj hrow').symm
        | passed hpass =>
            rcases hpass.row hrow with hsame | ⟨_, _, hsent, hfailed⟩
            · left
              rw [hsame] at hrow'
              exact (Option.some.inj hrow').symm
            · right
              rw [hfailed] at hrow'
              rw [← Option.some.inj hrow']
              exact ⟨hsent, rfl, rfl⟩

/-- Once a final event is recorded, the next ones change nothing. -/
theorem takes_event_recorded {now : Datetime} {event : Event} {s t : Store}
    {c r : UUID} (h : Takes d (.event now event) s t) (hnames : Names event r c)
    (hrecorded : s.inbox (generatedKey r) = true) : SameCore s t := by
  have hnot : forall r' c', ¬Answers now event s r' c' := by
    intro r' c' hanswers
    cases names_unique hnames hanswers.names
    rw [hanswers.new] at hrecorded
    cases hrecorded
  cases h with
  | event hfin =>
      cases callEffect (mintsUnused_generated d now event s) hfin with
      | untouched hcore => exact hcore
      | replied heffect hcore =>
          cases heffect with
          | skipped _ => exact hcore
          | kept hanswers _ _ _ _ => exact absurd hanswers (hnot _ _)
          | written hanswers _ _ _ _ => exact absurd hanswers (hnot _ _)

/-- The first final event is stored, unless one of its values is refused. -/
theorem takes_event_unanswered {now : Datetime} {event : Event} {s t : Store}
    {c r : UUID} (h : Takes d (.event now event) s t) (hnames : Names event r c)
    (hs : Unanswered c r s) :
    (replyRow now event = none ∧ SameCore s t) ∨
      (exists write row, replyRow now event = some write ∧ s.row c r = some row ∧
        t.row c r = some (write (some row)) ∧ t.inbox (generatedKey r) = true) := by
  rcases hs.row with ⟨row, hrow, hsender, hstatus⟩
  have hwritable : Writable s c r := by
    intro row' hrow'
    rw [hrow] at hrow'
    cases hrow'
    exact hsender
  have hincomplete : ¬HasCompleted s c r := by
    intro hcompleted
    rcases hcompleted with ⟨row', hrow', _, hsent, _⟩
    rw [hrow] at hrow'
    cases hrow'
    exact hstatus hsent
  cases h with
  | event hfin =>
      cases hwrite : replyRow now event with
      | none =>
          left
          refine ⟨rfl, ?_⟩
          cases callEffect (mintsUnused_generated d now event s) hfin with
          | untouched hcore => exact hcore
          | replied heffect hcore =>
              cases heffect with
              | skipped _ => exact hcore
              | kept hanswers _ hcompleted _ _ =>
                  cases names_unique hnames hanswers.names
                  exact absurd hcompleted hincomplete
              | written _ _ hsome _ _ =>
                  rw [hwrite] at hsome
                  cases hsome
      | some write =>
          right
          have hanswers : Answers now event s r c :=
            ⟨hnames, hs.new, hwritable, fun _ => by rw [hwrite]; rfl⟩
          rcases generated_written hfin hanswers (Or.inr hincomplete) hwrite with
            ⟨hrow', hkey⟩
          rw [hrow] at hrow'
          exact ⟨write, row, rfl, hrow, hrow', hkey⟩

/-!
# What each step keeps
-/

theorem takes_repliedWith {x : ReplyStep} {s t : Store} {c r : UUID} {content : Text}
    (h : Takes d x s t) (hnames : forall now event, x = .event now event ->
      Names event r c) (hs : RepliedWith c r content s) : RepliedWith c r content t := by
  rcases hs.row with ⟨row, hrow, hsender, hstatus, hcontent⟩
  cases x with
  | timeout now nowTs =>
      rcases takes_timeout h hrow with ⟨hinbox, row', hrow', hcase⟩
      refine ⟨by rw [hinbox, hs.recorded], row', hrow', ?_⟩
      rcases hcase with rfl | ⟨hnot, _⟩
      · exact ⟨hsender, hstatus, hcontent⟩
      · exact absurd ⟨row, hrow, hsender, hstatus⟩ hnot
  | event now event =>
      have hcore := takes_event_recorded h (hnames now event rfl) hs.recorded
      exact ⟨by rw [hcore.inbox, hs.recorded], row, by rw [hcore.row, hrow], hsender,
        hstatus, hcontent⟩
  | wait micros =>
      cases h
      exact ⟨hs.recorded, hs.row⟩

theorem takes_errored {x : ReplyStep} {s t : Store} {c r : UUID}
    (h : Takes d x s t) (hnames : forall now event, x = .event now event ->
      Names event r c) (hs : Errored c r s) : Errored c r t := by
  rcases hs.row with ⟨row, hrow, hsender, hstatus⟩
  cases x with
  | timeout now nowTs =>
      rcases takes_timeout h hrow with ⟨hinbox, row', hrow', hcase⟩
      refine ⟨by rw [hinbox, hs.recorded], row', hrow', ?_⟩
      rcases hcase with rfl | ⟨_, hsender', hfailed⟩
      · exact ⟨hsender, hstatus⟩
      · exact ⟨hsender', hfailed⟩
  | event now event =>
      have hcore := takes_event_recorded h (hnames now event rfl) hs.recorded
      exact ⟨by rw [hcore.inbox, hs.recorded], row, by rw [hcore.row, hrow], hsender,
        hstatus⟩
  | wait micros =>
      cases h
      exact ⟨hs.recorded, hs.row⟩

theorem takes_unanswered {x : ReplyStep} {s t : Store} {c r : UUID}
    (h : Takes d x s t) (hnames : forall now event, x = .event now event ->
      Names event r c) (hno : forall now event, x = .event now event ->
      replyRow now event = none) (hs : Unanswered c r s) : Unanswered c r t := by
  rcases hs.row with ⟨row, hrow, hsender, hstatus⟩
  cases x with
  | timeout now nowTs =>
      rcases takes_timeout h hrow with ⟨hinbox, row', hrow', hcase⟩
      refine ⟨by rw [hinbox, hs.new], row', hrow', ?_⟩
      rcases hcase with rfl | ⟨_, hsender', hfailed⟩
      · exact ⟨hsender, hstatus⟩
      · refine ⟨hsender', ?_⟩
        rw [hfailed]
        decide
  | event now event =>
      have hnone := hno now event rfl
      rcases takes_event_unanswered h (hnames now event rfl) hs with
        ⟨_, hcore⟩ | ⟨write, _, hwrite, _⟩
      · exact ⟨by rw [hcore.inbox, hs.new], row, by rw [hcore.row, hrow], hsender,
          hstatus⟩
      · rw [hnone] at hwrite
        cases hwrite
  | wait micros =>
      cases h
      exact ⟨hs.new, hs.row⟩

/-!
# Runs of steps
-/

theorem takesAll_repliedWith {steps : List ReplyStep} {s t : Store} {c r : UUID}
    {content : Text} (h : TakesAll d steps s t)
    (hnames : forall now event, .event now event ∈ steps -> Names event r c)
    (hs : RepliedWith c r content s) : RepliedWith c r content t := by
  induction h with
  | done => exact hs
  | step hx _ ih =>
      apply ih
      · intro now event hmem
        exact hnames now event (List.mem_cons_of_mem _ hmem)
      · apply takes_repliedWith hx _ hs
        intro now event heq
        exact hnames now event (by simp [heq])

theorem takesAll_errored {steps : List ReplyStep} {s t : Store} {c r : UUID}
    (h : TakesAll d steps s t)
    (hnames : forall now event, .event now event ∈ steps -> Names event r c)
    (hs : Errored c r s) : Errored c r t := by
  induction h with
  | done => exact hs
  | step hx _ ih =>
      apply ih
      · intro now event hmem
        exact hnames now event (List.mem_cons_of_mem _ hmem)
      · apply takes_errored hx _ hs
        intro now event heq
        exact hnames now event (by simp [heq])

/-- How a response ends, by the first final event that can be stored. -/
def EndsAs (c r : UUID) (answer : Option Event) (t : Store) : Prop :=
  match answer with
  | none => Unanswered c r t
  | some event =>
      (isSuccess event = true ∧ exists content,
        boundText (fullContent event) = some content ∧ RepliedWith c r content t) ∨
      (isSuccess event = false ∧ Errored c r t)

theorem takesAll_endsAs {steps : List ReplyStep} {s t : Store} {c r : UUID}
    (h : TakesAll d steps s t)
    (hnames : forall now event, .event now event ∈ steps -> Names event r c)
    (hs : Unanswered c r s) : EndsAs c r (firstAnswer steps) t := by
  induction h with
  | done => exact hs
  | @step x rest s t u hx hrest ih =>
      have hnamesRest : forall now event, .event now event ∈ rest ->
          Names event r c := by
        intro now event hmem
        exact hnames now event (List.mem_cons_of_mem _ hmem)
      have hnamesHead : forall now event, x = .event now event ->
          Names event r c := by
        intro now event heq
        exact hnames now event (by simp [heq])
      cases x with
      | timeout now nowTs =>
          apply ih hnamesRest
          apply takes_unanswered hx hnamesHead _ hs
          intro now event heq
          cases heq
      | wait micros =>
          apply ih hnamesRest
          apply takes_unanswered hx hnamesHead _ hs
          intro now event heq
          cases heq
      | event now event =>
          rcases takes_event_unanswered hx (hnamesHead now event rfl) hs with
            ⟨hnone, _⟩ | ⟨write, row, hwrite, hrow, hrow', hkey⟩
          · have hskip : firstAnswer (.event now event :: rest) = firstAnswer rest := by
              simp [firstAnswer, hnone]
            rw [hskip]
            apply ih hnamesRest
            apply takes_unanswered hx hnamesHead _ hs
            intro now' event' heq
            cases heq
            exact hnone
          · have hfirst : firstAnswer (.event now event :: rest) = some event := by
              simp [firstAnswer, hwrite]
            rw [hfirst]
            cases hevent : isSuccess event with
            | true =>
                rcases replyRow_success hevent hwrite with ⟨content, column, htext, rfl⟩
                left
                refine ⟨hevent, content, htext, ?_⟩
                apply takesAll_repliedWith hrest hnamesRest
                exact ⟨hkey, _, hrow', rfl, rfl, rfl⟩
            | false =>
                rcases replyRow_error hevent hwrite with ⟨content, htext, rfl⟩
                right
                refine ⟨hevent, ?_⟩
                apply takesAll_errored hrest hnamesRest
                exact ⟨hkey, _, hrow', rfl, rfl⟩

/-- The row holds the content of one of the successes among the steps. -/
def HoldsReply (steps : List ReplyStep) (c r : UUID) (t : Store) : Prop :=
  exists row now event content, t.row c r = some row ∧
    row.sender = some .assistant ∧ row.status = .sent ∧
    .event now event ∈ steps ∧ isSuccess event = true ∧
    boundText (fullContent event) = some content ∧ row.content = some content

theorem unanswered_send {mayFail : Op -> Prop} {s t : Store} {reads : Readings}
    {args : SendArgs} {msg : Message} {r : UUID} (hexplained : InboxExplained s)
    (hmints : MintsUnused d s (.send reads args))
    (hsend : Prog.Finishes storageMachine mayFail (d.api.send reads args) s
      (.ok msg) t)
    (hmsg : msg.responseMessageId = some r) :
    Unanswered args.conversationId r t := by
  have hresponse : MessageService.responseIdFor reads args = some r := by
    have hanswer := Prog.wp_finishes (wp_send_answer d.api reads args) hsend
    rw [← hmsg]
    exact hanswer.symm
  have hne : r ≠ args.messageId := by
    intro h
    exact hmints.distinct reads args rfl (by rw [hresponse, h])
  have hopened := (Prog.wp_finishes
    (wp_send_response d.api reads args hresponse hne) hsend).left.left
  constructor
  · rw [hopened.inbox]
    exact inbox_of_unused hexplained (hmints.unused r (Or.inr hresponse))
  · rcases hopened.placed with ⟨row, hrow, hsender, hstatus⟩
    refine ⟨row, hrow, hsender, ?_⟩
    rcases hstatus with h | h
    · rw [h]
      decide
    · rw [h]
      decide

/-! The question of these runs and the two events that answer it. -/

def question : SendArgs :=
  .plain (.ofInt 1) (uuidv7 (.at 1000)) (text "What is new?")

def questionResponse : UUID :=
  uuidv7After question.messageId (Readings.at 1001).response

def realReply : Event :=
  finalEvent questionResponse question.conversationId
    [(text "status", .str (text "success")), (text "full_content", .str (text "News."))]

def errorReply : Event :=
  finalEvent questionResponse question.conversationId
    [(text "status", .str (text "error"))]

def asked : Store :=
  Call.after .single (.send (.at 1001) question) .blank

/--
After any steps on a response that `send` opened, its row holds a real reply
exactly when the first final event that could be stored was a success.
-/
theorem holdsReply_iff_firstAnswer {mayFail : Op -> Prop} {initial s s' t : Store}
    {reads : Readings} {args : SendArgs} {msg : Message} {r : UUID}
    {steps : List ReplyStep} (hinitial : Initial initial)
    (hreach : Runs d mayFail (MintsUnused d) initial s)
    (hmints : MintsUnused d s (.send reads args))
    (hsend : Prog.Finishes storageMachine mayFail (d.api.send reads args) s
      (.ok msg) s')
    (hresponse : msg.responseMessageId = some r)
    (hnames : forall now event, .event now event ∈ steps ->
      Names event r args.conversationId)
    (hsteps : TakesAll d steps s' t) :
    HoldsReply steps args.conversationId r t <->
      (firstAnswer steps).any isSuccess = true := by
  have hexplained : InboxExplained s :=
    inboxExplained_runs (fun _ _ h => h) hreach (inboxExplained_initial hinitial)
  have hends := takesAll_endsAs hsteps hnames
    (unanswered_send hexplained hmints hsend hresponse)
  cases hfirst : firstAnswer steps with
  | none =>
      rw [hfirst] at hends
      rcases hends.row with ⟨row, hrow, _, hstatus⟩
      constructor
      · intro h
        rcases h with ⟨row', _, _, _, hrow', _, hsent, _⟩
        rw [hrow] at hrow'
        cases hrow'
        exact absurd hsent hstatus
      · intro h
        cases h
  | some event =>
      rw [hfirst] at hends
      rw [Option.any_some]
      rcases hends with ⟨hevent, content, htext, hreplied⟩ | ⟨hevent, herrored⟩
      · rcases hreplied.row with ⟨row, hrow, hsender, hstatus, hcontent⟩
        rcases firstAnswer_mem hfirst with ⟨now, hmem⟩
        constructor
        · intro _
          exact hevent
        · intro _
          exact ⟨row, now, event, content, hrow, hsender, hstatus, hmem, hevent, htext,
            hcontent⟩
      · rcases herrored.row with ⟨row, hrow, _, hstatus⟩
        constructor
        · intro h
          rcases h with ⟨row', _, _, _, hrow', _, hsent, _⟩
          rw [hrow] at hrow'
          cases hrow'
          rw [hstatus] at hsent
          cases hsent
        · intro h
          rw [hevent] at h
          cases h

theorem holdsReply_iff_firstAnswer_question :
    HoldsReply [.event ⟨0, true⟩ realReply] question.conversationId questionResponse
        (Call.after .single (.generated ⟨0, true⟩ realReply) asked) <->
      (firstAnswer [.event ⟨0, true⟩ realReply]).any isSuccess = true := by
  have hmints : MintsUnused .single Store.blank (.send (.at 1001) question) :=
    mintsUnused_blank (by decide)
  have hok : (Prog.run storageMachine (fun _ => false)
      (Deployment.single.api.send (.at 1001) question) .blank).1.isOk = true := by
    decide
  rcases send_finishes hok with ⟨msg, hsend⟩
  have hresponse : msg.responseMessageId = some questionResponse :=
    Prog.wp_finishes (wp_send_answer _ _ _) hsend
  have hnames : forall now event,
      .event now event ∈ [ReplyStep.event ⟨0, true⟩ realReply] ->
        Names event questionResponse question.conversationId := by
    intro now event hmem
    cases List.mem_singleton.mp hmem
    exact names_finalEvent _ _ _
  have hsteps : TakesAll .single [.event ⟨0, true⟩ realReply] asked
      (Call.after .single (.generated ⟨0, true⟩ realReply) asked) := by
    rcases after_finishes .single (.generated ⟨0, true⟩ realReply) asked with ⟨_, hfin⟩
    exact .step (.event hfin) .done
  exact holdsReply_iff_firstAnswer initial_blank Relation.ReflTransGen.refl hmints hsend
    hresponse hnames hsteps

/-- The error is stored first, so the real reply is dropped as a duplicate. -/
theorem errorReply_beats_realReply :
    isSuccess realReply = true ∧
      Names realReply questionResponse question.conversationId ∧
      ((Call.after .single (.generated ⟨0, true⟩ realReply)
        (Call.after .single (.generated ⟨0, true⟩ errorReply) asked)).row
          question.conversationId questionResponse).map Row.status = some .failed :=
  ⟨by decide, names_finalEvent _ _ _, by decide⟩

end ConversationService

