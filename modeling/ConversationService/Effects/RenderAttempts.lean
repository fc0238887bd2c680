import ConversationService.Effects.ArtifactStatements

/-!
# What a worker knows of a pending artifact

A worker submits an artifact that it has seen pending, with the number of attempts that it
has seen, and records the attempt with its next operation.
-/

namespace ConversationService

open Python ClusteredTable Programs

/-- An artifact that is pending, with its number of attempts. -/
abbrev PendingFact : Type := UUID × Nat

namespace ArtifactChange

def IsWork : ArtifactChange -> Prop
  | .retry _ => False
  | .missing => False
  | _ => True

end ArtifactChange

namespace ArtifactOp

/-- The operation relies on the artifact being pending. -/
def NeedsPending : ArtifactOp -> PendingFact -> Prop
  | .submit id row, fact => fact = (id, row.attemptCount)
  | .cas id _ (.queue _ attempts), fact => fact = (id, attempts - 1)
  | _, _ => False

/-- A change of the artifact that has taken effect may have ended its being pending. -/
def KeepsPending : (o : ArtifactOp) -> Option o.Res -> PendingFact -> Prop
  | .cas id _ _, some (some _), fact => fact.1 ≠ id
  | _, _, _ => True

def ShowsPending : (o : ArtifactOp) -> o.Res -> PendingFact -> Prop
  | .claim id _ _, some row, fact => row.status = .pending ∧ fact = (id, row.attemptCount)
  | .cas id _ change, some row, fact =>
      change.IsWork ∧ row.status = .pending ∧ fact = (id, row.attemptCount)
  | _, _, _ => False

def Accepts : (o : ArtifactOp) -> o.Res -> Prop
  | .submit _ _, .ok _ => True
  | _, _ => False

def QueuesAs (o : ArtifactOp) (id : UUID) (attempts : Nat) : Prop :=
  match o with
  | .cas id' _ (.queue _ attempts') => id' = id ∧ attempts' = attempts
  | _ => False

def RecordsAttempt : ArtifactOp -> ArtifactOp -> Prop
  | .submit id row, o => o.QueuesAs id (row.attemptCount + 1)
  | _, _ => False

end ArtifactOp

section Walk

variable {svc : ArtifactService} {call : ArtifactCall} {id : UUID}

/-- The program submits only what it knows to be pending. -/
abbrev SubmitsKnown {alpha : Type} (known : PendingFact -> Prop) (p : ArtifactProg alpha)
    (Q : (PendingFact -> Prop) -> alpha -> Prop) : Prop :=
  Prog.Informed (S := artifactStorage) ArtifactOp.NeedsPending ArtifactOp.KeepsPending
    ArtifactOp.ShowsPending known p Q

/-- If the row is pending, that is known. -/
def KnowsRow (id : UUID) (known : PendingFact -> Prop) (row : ArtifactRow) : Prop :=
  row.status = .pending -> known (id, row.attemptCount)

def KnowsNext (id : UUID) (known : PendingFact -> Prop) (next : Option ArtifactRow) : Prop :=
  forall row, next = some row -> KnowsRow id known row

/-- The outcome of something that may have changed the artifact or has left it alone. -/
structure KnowsOutcome (id : UUID) (known k : PendingFact -> Prop)
    (next : Option ArtifactRow) : Prop where
  shown : KnowsNext id k next
  kept : next = none -> forall fact, known fact -> k fact

theorem knowsNext_mono {k k' : PendingFact -> Prop} (next : Option ArtifactRow)
    (h : forall fact, k fact -> k' fact) (hk : KnowsNext id k next) : KnowsNext id k' next :=
  fun row hrow hpending => h _ (hk row hrow hpending)

theorem submitsKnown_any {alpha : Type} {P : ArtifactOp -> Prop}
    {known : PendingFact -> Prop} {p : ArtifactProg alpha} (h : Prog.AllOps P p)
    (hP : forall o, P o -> ¬o.Begins) : SubmitsKnown known p (fun _ _ => True) := by
  refine Prog.informed_of_allOps (Prog.allOps_mono h ?_)
  intro o ho fact hneeds
  have hnot := hP o ho
  cases o with
  | submit id row => exact hnot trivial
  | cas id allowedFrom change =>
      cases change with
      | queue jobId attempts => exact hnot trivial
      | _ => exact hneeds.elim
  | _ => exact hneeds.elim

theorem not_begins_of_plain (o : ArtifactOp) (h : o.Plain svc.cfg call) : ¬o.Begins := by
  intro hbegins
  apply h.ordinary
  cases o with
  | submit id row => trivial
  | cas id allowedFrom change =>
      cases change with
      | queue jobId attempts => trivial
      | _ => exact hbegins.elim
  | _ => exact hbegins.elim

theorem not_begins_of_ending (o : ArtifactOp) (h : o.Ending svc.cfg call) : ¬o.Begins := by
  intro hbegins
  have hsets := h.sets
  cases o with
  | submit id row => exact hsets
  | cas id allowedFrom change => exact hsets
  | _ => exact hbegins

theorem submitsKnown_cas {known : PendingFact -> Prop} {allowedFrom : List ArtifactStatus}
    {change : ArtifactChange} (hwork : change.IsWork)
    (hneeds : forall fact, ArtifactOp.NeedsPending (.cas id allowedFrom change) fact ->
      known fact) :
    SubmitsKnown known (ArtifactService.cas id allowedFrom change) (KnowsOutcome id known) := by
  refine ⟨hneeds, ?_, trivial⟩
  intro answer
  cases answer with
  | some row =>
      refine ⟨?_, fun h => by cases h⟩
      intro row' hrow' hpending
      cases hrow'
      exact Or.inl ⟨hwork, hpending, rfl⟩
  | none =>
      exact ⟨fun row' hrow' => (by cases hrow'), fun _ fact hfact => Or.inr ⟨hfact, trivial⟩⟩

theorem submitsKnown_work {known : PendingFact -> Prop} {allowedFrom : List ArtifactStatus}
    {change : ArtifactChange} (hwork : change.IsWork)
    (hneeds : forall fact, ¬ArtifactOp.NeedsPending (.cas id allowedFrom change) fact) :
    SubmitsKnown known (ArtifactService.cas id allowedFrom change) (KnowsNext id) :=
  Prog.informed_mono (submitsKnown_cas hwork (fun fact h => absurd h (hneeds fact)))
    (fun _ h => h) (fun _ _ next hmore h => knowsNext_mono next hmore h.shown)

theorem submitsKnown_failThenNone (known : PendingFact -> Prop) (code : Text) :
    SubmitsKnown known (ArtifactService.fail id code >>= fun _ => pure (none : Option ArtifactRow))
      (KnowsNext id) := by
  have hfail : SubmitsKnown known (ArtifactService.fail id code) (fun _ _ => True) :=
    Prog.informed_of_allOps
      (Prog.allOps_bind (allOps_artifactCall (fun _ h => h)) (fun _ => trivial))
  refine Prog.informed_bind (Prog.informed_mono hfail (fun _ h => h) ?_)
  intro k k' _ _ _ row hrow
  cases hrow

theorem submitsKnown_beginAgain (known : PendingFact -> Prop) (row : ArtifactRow)
    (allowedFrom : List ArtifactStatus) :
    SubmitsKnown known (svc.beginAgain id row allowedFrom) (KnowsNext id) := by
  unfold ArtifactService.beginAgain
  split
  · exact submitsKnown_failThenNone known _
  · exact submitsKnown_work trivial (fun _ h => h)

theorem submitsKnown_follow (known : PendingFact -> Prop) {row : ArtifactRow}
    {wanted : ArtifactStatus} (hwanted : wanted ≠ .pending) :
    SubmitsKnown known (ArtifactService.follow id row wanted) (KnowsNext id) := by
  unfold ArtifactService.follow
  split
  · exact submitsKnown_work trivial (fun _ h => h)
  · rename_i hstatus
    intro row' hrow' hpending
    cases hrow'
    exact absurd ((not_not.mp hstatus).symm.trans hpending) hwanted

theorem submitsKnown_pollJob (known : PendingFact -> Prop) (row : ArtifactRow) (age : Nat)
    (job : RenderJob) :
    SubmitsKnown known (svc.pollJob id row age job) (KnowsNext id) := by
  unfold ArtifactService.pollJob
  split
  · exact submitsKnown_work trivial (fun _ h => h)
  · split
    · exact submitsKnown_failThenNone known _
    · split
      · exact submitsKnown_failThenNone known _
      · apply submitsKnown_follow
        split
        · exact fun h => by cases h
        · exact fun h => by cases h

theorem submitsKnown_poll (known : PendingFact -> Prop) (row : ArtifactRow) :
    SubmitsKnown known (svc.poll id row) (KnowsNext id) := by
  refine ⟨fun _ h => h.elim, fun now => ?_, trivial⟩
  refine ⟨fun _ h => h.elim, fun job => ?_, trivial⟩
  cases job with
  | none => exact submitsKnown_beginAgain _ row _
  | some job => exact submitsKnown_pollJob _ row _ job

theorem submitsKnown_adopt (known : PendingFact -> Prop) :
    SubmitsKnown known (svc.adoptExistingObject id) (KnowsOutcome id known) := by
  have hnone : forall k : PendingFact -> Prop, (forall fact, known fact -> k fact) ->
      KnowsOutcome id known k none :=
    fun k hk => ⟨fun row hrow => (by cases hrow), fun _ => hk⟩
  refine ⟨fun _ h => h.elim, fun stored => ?_, trivial⟩
  cases stored with
  | none => exact hnone _ (fun fact h => Or.inr ⟨h, trivial⟩)
  | some stored =>
      refine ⟨fun _ h => h.elim, fun file => ?_, trivial⟩
      cases file with
      | none => trivial
      | some file =>
          dsimp only [Prog.bind]
          cases Media.validateMp4 file svc.cfg.maxVideoBytes with
          | none =>
              refine ⟨fun _ h => h.elim, fun _ => ?_, trivial⟩
              exact hnone _
                (fun fact h => Or.inr ⟨Or.inr ⟨Or.inr ⟨h, trivial⟩, trivial⟩, trivial⟩)
          | some info =>
              refine ⟨fun _ h => h.elim, fun thumb => ?_, trivial⟩
              refine Prog.informed_mono (submitsKnown_cas trivial (fun _ h => h.elim))
                (fun _ h => h) ?_
              intro k k' next hmore hk
              refine ⟨knowsNext_mono next hmore hk.shown, ?_⟩
              intro heq fact hfact
              exact hmore fact (hk.kept heq fact
                (Or.inr ⟨Or.inr ⟨Or.inr ⟨hfact, trivial⟩, trivial⟩, trivial⟩))

theorem submitsKnown_submit {known : PendingFact -> Prop} {row : ArtifactRow}
    (hknown : known (id, row.attemptCount)) :
    SubmitsKnown known (ArtifactService.submit id row) (KnowsNext id) := by
  refine ⟨fun fact hneeds => ?_, fun answer => ?_, trivial⟩
  · rw [show fact = (id, row.attemptCount) from hneeds]
    exact hknown
  · cases answer with
    | error code => exact submitsKnown_failThenNone _ _
    | ok job =>
        refine Prog.informed_mono (submitsKnown_cas trivial ?_) (fun _ h => h)
          (fun _ _ next hmore h => knowsNext_mono next hmore h.shown)
        intro fact hneeds
        rw [show fact = (id, row.attemptCount) from hneeds]
        exact Or.inr ⟨hknown, trivial⟩

theorem submitsKnown_dispatch {known : PendingFact -> Prop} {row : ArtifactRow}
    (hknown : known (id, row.attemptCount)) :
    SubmitsKnown known (svc.dispatch id row) (KnowsNext id) := by
  refine Prog.informed_bind (Prog.informed_mono (submitsKnown_adopt known) (fun _ h => h) ?_)
  intro k k' adopted hmore hk
  cases adopted with
  | some adopted => exact knowsNext_mono (some adopted) hmore hk.shown
  | none =>
      dsimp only
      split
      · exact submitsKnown_failThenNone _ _
      · exact submitsKnown_submit (hmore _ (hk.kept rfl _ hknown))

theorem submitsKnown_storeVideo (known : PendingFact -> Prop) (row : ArtifactRow) (file : Bytes)
    (info : MediaInfo) :
    SubmitsKnown known (ArtifactService.storeVideo id row file info) (KnowsNext id) := by
  refine ⟨fun _ h => h.elim, fun _ => ?_, trivial⟩
  refine ⟨fun _ h => h.elim, fun stored => ?_, trivial⟩
  show SubmitsKnown _ (if stored.any (fun object => object.size = info.size) then _
    else Prog.raise .osError) _
  split
  · refine Prog.informed_bind (Prog.informed_mono (Q := fun _ _ => True) ?_ (fun _ h => h) ?_)
    · refine Prog.informed_of_allOps (Prog.allOps_tryCatch ?_ (fun _ => trivial))
      refine Prog.allOps_bind (allOps_artifactCall (fun _ h => h)) ?_
      intro data
      cases data with
      | none => trivial
      | some data =>
          dsimp only
          split
          · trivial
          · exact Prog.allOps_bind (allOps_artifactCall (fun _ h => h)) (fun _ => trivial)
    · intro k k' thumb _ _
      exact submitsKnown_work trivial (fun _ h => h)
  · trivial

theorem submitsKnown_upload (known : PendingFact -> Prop) (row : ArtifactRow) :
    SubmitsKnown known (svc.upload id row) (KnowsNext id) := by
  refine Prog.informed_bind (Prog.informed_mono (submitsKnown_adopt known) (fun _ h => h) ?_)
  intro k k' adopted hmore hk
  cases adopted with
  | some adopted => exact knowsNext_mono (some adopted) hmore hk.shown
  | none =>
      refine ⟨fun _ h => h.elim, fun download => ?_, trivial⟩
      cases download with
      | gone => exact submitsKnown_beginAgain _ row _
      | rejected code => exact submitsKnown_failThenNone _ _
      | file file =>
          dsimp only [Prog.bind]
          cases Media.validateMp4 file svc.cfg.maxVideoBytes with
          | some info => exact submitsKnown_storeVideo _ row file info
          | none => exact submitsKnown_failThenNone _ _

theorem submitsKnown_step {known : PendingFact -> Prop} {row : ArtifactRow}
    (hknown : KnowsRow id known row) :
    SubmitsKnown known (svc.step id row) (KnowsNext id) := by
  have hnone : SubmitsKnown known (pure none : ArtifactProg (Option ArtifactRow))
      (KnowsNext id) := by
    intro row' hrow'
    cases hrow'
  unfold ArtifactService.step
  cases hstatus : row.status with
  | pending => exact submitsKnown_dispatch (hknown hstatus)
  | queued => exact submitsKnown_poll known row
  | rendering => exact submitsKnown_poll known row
  | uploading => exact submitsKnown_upload known row
  | ready => exact hnone
  | failed => exact hnone

theorem submitsKnown_steps {known : PendingFact -> Prop} (rounds : Nat) {row : ArtifactRow}
    (hknown : KnowsRow id known row) :
    SubmitsKnown known (svc.steps id rounds row) (fun _ _ => True) := by
  induction rounds generalizing known row with
  | zero => trivial
  | succ rounds ih =>
      refine Prog.informed_bind (Prog.informed_mono (submitsKnown_step hknown)
        (fun _ h => h) ?_)
      intro k k' next hmore hk
      cases next with
      | none => trivial
      | some next =>
          dsimp only
          split
          · trivial
          · exact ih (knowsNext_mono (some next) hmore hk next rfl)

theorem submitsKnown_advanceClaimed {known : PendingFact -> Prop} (hcall : call.Advances id)
    {row : ArtifactRow} (hknown : KnowsRow id known row) :
    SubmitsKnown known (svc.advanceClaimed id row) (fun _ _ => True) := by
  have hpause : Prog.AllOps (ArtifactOp.Ending svc.cfg call) (ArtifactService.pause id) :=
    ending_pause hcall
  have hrelease : Prog.AllOps (ArtifactOp.Ending svc.cfg call) (artifactCall (.release id)) :=
    allOps_artifactCall ⟨hcall, trivial⟩
  refine Prog.informed_bind (Prog.informed_mono (Q := fun _ _ => True) ?_ (fun _ h => h) ?_)
  · refine Prog.informed_tryCatch ?_ (fun k _ => submitsKnown_any hpause not_begins_of_ending)
    exact Prog.informed_bind (submitsKnown_steps 5 hknown)
  · intro k k' keepLease _ _
    cases keepLease with
    | true => trivial
    | false => exact submitsKnown_any hrelease not_begins_of_ending

theorem submitsKnown_program (known : PendingFact -> Prop) :
    SubmitsKnown known (call.program svc) (fun _ _ => True) := by
  have hplain : forall {alpha : Type} {p : ArtifactProg alpha} (f : alpha -> ArtifactAnswer),
      Prog.AllOps (ArtifactOp.Plain svc.cfg call) p ->
      SubmitsKnown known (p >>= fun a => .ret (f a)) (fun _ _ => True) :=
    fun f hp => submitsKnown_any (Prog.allOps_bind hp (fun _ => trivial)) not_begins_of_plain
  cases hcall : call with
  | advance id worker =>
      subst hcall
      refine Prog.informed_bind ?_
      refine ⟨fun _ h => h.elim, fun row => ?_, trivial⟩
      cases row with
      | none => trivial
      | some row =>
          refine submitsKnown_advanceClaimed ⟨worker, rfl⟩ ?_
          intro hpending
          exact Or.inl ⟨hpending, rfl⟩
  | register request =>
      subst hcall
      exact hplain _ (plain_register rfl)
  | retry owner id =>
      subst hcall
      exact hplain _ (plain_retry rfl)
  | markObjectMissing id =>
      subst hcall
      exact hplain _ (plain_markObjectMissing rfl)
  | deleteOrphanObjects =>
      subst hcall
      exact hplain _ plain_deleteOrphanObjects

/-!
# Submissions are recorded at once
-/

/-- Behind an accepted submission the program records the attempt. -/
abbrev RecordsAtOnce {alpha : Type} (p : ArtifactProg alpha) : Prop :=
  Prog.Prompt (S := artifactStorage) ArtifactOp.Accepts ArtifactOp.RecordsAttempt p

theorem recordsAtOnce_of_allOps {alpha : Type} {P : ArtifactOp -> Prop}
    {p : ArtifactProg alpha} (h : Prog.AllOps P p) (hP : forall o, P o -> ¬o.Begins) :
    RecordsAtOnce p := by
  refine Prog.prompt_of_allOps (Prog.allOps_mono h ?_)
  intro o ho r haccepts
  have hnot := hP o ho
  cases o with
  | submit id row => exact hnot trivial
  | _ => exact haccepts.elim

theorem recordsAtOnce_submit (id : UUID) (row : ArtifactRow) :
    RecordsAtOnce (ArtifactService.submit id row) := by
  constructor
  · intro answer haccepts
    cases answer with
    | ok job => exact ⟨rfl, rfl⟩
    | error code => exact haccepts.elim
  · intro answer
    match answer with
    | none => trivial
    | some (.ok job) => exact ⟨fun _ h => h.elim, fun next => by cases next <;> trivial⟩
    | some (.error code) => exact ⟨fun _ h => h.elim, fun next => by cases next <;> trivial⟩

theorem kind_recordsAtOnce : ArtifactKind svc call (fun p => RecordsAtOnce p) where
  plain h := recordsAtOnce_of_allOps h not_begins_of_plain
  adopt _ hcall := recordsAtOnce_of_allOps (closing_adopt hcall)
    (fun _ hclosing => hclosing.closes)
  store _ row _ _ hcall hinfo := recordsAtOnce_of_allOps (closing_storeVideo hcall row hinfo)
    (fun _ hclosing => hclosing.closes)
  submit id row _ _ := recordsAtOnce_submit id row
  bind := Prog.prompt_bind
  ending h := recordsAtOnce_of_allOps h not_begins_of_ending
  tryCatch := Prog.prompt_tryCatch

end Walk

end ConversationService
