import ConversationService.Model.SourceEditTransactions
import ConversationService.Properties.ExportLifeCycle

/-!
# Caps under concurrent transactions

The number of edits in a conversation and the number of a user's unfinished exports are
counted on a snapshot before a row is inserted, and nothing keeps other transactions from
doing the same at that time. The caps hold as long as the rows that a count does not show,
because they are under way, leave room. A save that has met an edit of its block looks for
it once more; it reports a reached cap only if the edit is not deleted in between.
-/

namespace ConversationService

open Python ClusteredTable Programs ReadCommitted

/-!
# Edits of a conversation
-/

def editsUnderWay (db : EditDatabase) (owner conversationId : UUID) : Finset EditPlace :=
  db.possible (fun place _ => place.isIn owner conversationId)

/--
An `INSERT` whose snapshot shows fewer edits than the cap adds no row to as many edits as
the cap allows, those of other open transactions included.
-/
def CountsEditsUnderWay (pool : EditRequestPool) (t : EditRequestTask) : Prop :=
  forall x key submission next, t.prog = .op (x, .run (.insertEdit key submission)) next ->
    editCount (pool.store.transaction x).seen key.owner key.conversationId <
      submission.maxPerConversation ->
    key.place ∈ editsUnderWay pool.store key.owner key.conversationId ∨
      (editsUnderWay pool.store key.owner key.conversationId).card <
        submission.maxPerConversation

/-- The operation is of the transaction `x`, and an `INSERT` has the cap as its limit. -/
def SessionCapped (x cap : Nat) (o : (sessions editTable).Op) : Prop :=
  o.1 = x ∧ forall key submission, o.2 = .run (.insertEdit key submission) ->
    submission.maxPerConversation = cap

section EditCaps

variable {cap : Nat} {permits : EditRequestPool -> EditRequestTask -> Prop}
  {db : EditDatabase}

theorem sessionCapped_program {request : EditRequest}
    (hcap : forall submission, request.call.submission = some submission ->
      submission.maxPerConversation = cap) :
    Prog.AllOps (SessionCapped request.xid cap) request.program := by
  have hops : Prog.AllOps (fun o => forall key submission,
      o = EditOp.insertEdit key submission -> submission.maxPerConversation = cap)
      request.call.program := by
    unfold EditCall.program
    cases hsubmission : request.call.submission with
    | none =>
        dsimp only
        refine Prog.allOps_bind ?_ ?_
        · exact (Prog.allOps_perform _ _).mpr (by simp)
        · intro removed
          split
          · trivial
          · refine Prog.allOps_bind ((Prog.allOps_perform _ _).mpr (by simp)) ?_
            intro current
            cases current with
            | none => trivial
            | some row => trivial
    | some submission =>
        dsimp only
        refine Prog.allOps_bind ?_ ?_
        · unfold SourceEditRepository.write
          split
          · refine (Prog.allOps_perform _ _).mpr ?_
            intro key submission' heq
            cases heq
            exact hcap submission hsubmission
          · exact (Prog.allOps_perform _ _).mpr (by simp)
        · intro row
          cases row with
          | some row => trivial
          | none =>
              refine Prog.allOps_bind ((Prog.allOps_perform _ _).mpr (by simp)) ?_
              intro current
              unfold SourceEditRepository.unwritten
              split
              · split
                · trivial
                · trivial
              · split
                · trivial
                · trivial
  refine allOps_transaction ?_ ?_ _ hops
  · intro o ho
    refine ⟨rfl, ?_⟩
    intro key submission heq
    cases heq
    exact ho key submission rfl
  · intro o ho
    exact ⟨rfl, fun key submission heq => absurd heq (ho _)⟩

theorem place_of_put {o : EditOp} {place : EditPlace} {row : SourceEditRecord} {x : Nat}
    (htarget : sourceEdits.target o (db.transaction x).seen = some place)
    (hattempt : sourceEdits.attempt o db.now
      (((db.transaction x).current db.rows).get place) = .put row) :
    (exists key submission, o = .insertEdit key submission ∧ place = key.place ∧
      editCount (db.transaction x).seen key.owner key.conversationId <
        submission.maxPerConversation) ∨
    exists old, ((db.transaction x).current db.rows).get place = some old := by
  cases hcurrent : ((db.transaction x).current db.rows).get place with
  | some old => exact Or.inr ⟨old, rfl⟩
  | none =>
      left
      rw [hcurrent] at hattempt
      have htarget' : o.target (db.transaction x).seen = some place := htarget
      have hattempt' : o.attempt db.now none = .put row := hattempt
      cases o with
      | insertEdit key submission =>
          unfold EditOp.target at htarget'
          dsimp only at htarget'
          split at htarget'
          · rename_i hcount
            exact ⟨key, submission, rfl, (Option.some.inj htarget').symm, hcount⟩
          · cases htarget'
      | updateEdit key content expected => cases hattempt'
      | deleteEdit key expected => cases hattempt'
      | selectEdit key => cases hattempt'

theorem isIn_place {key : BlockKey} {owner conversationId : UUID} :
    key.place.isIn owner conversationId = true <->
      key.owner = owner ∧ key.conversationId = conversationId := by
  unfold EditPlace.isIn BlockKey.place
  simp

theorem taskProof_editCaps
    (hpermits : forall pool t, permits pool t -> CountsEditsUnderWay pool t) :
    Pool.TaskProof (editRequestRules cap permits)
      (fun db => forall owner conversationId,
        (editsUnderWay db owner conversationId).card ≤ cap)
      (fun t => Prog.AllOps (SessionCapped t.call.xid cap) t.prog) where
  done := by
    intro pool request o next hcaps hops hallowed
    refine ⟨?_, hops.right _⟩
    intro owner conversationId
    have hcap := hcaps owner conversationId
    rcases possible_exec (D := sourceEdits) (fun place _ => place.isIn owner conversationId)
      pool.store o with hsub |
      ⟨x, s, place, row, rfl, htarget, hattempt, hin, hadds⟩
    · exact (Finset.card_le_card hsub).trans hcap
    · have hsub : editsUnderWay (sourceEdits.exec (x, .run s) pool.store).2 owner
          conversationId ⊆ insert place (editsUnderWay pool.store owner conversationId) :=
        fun k hk => Finset.mem_insert.mpr (hadds k hk)
      by_cases hheld : place ∈ editsUnderWay pool.store owner conversationId
      · refine (Finset.card_le_card hsub).trans ?_
        rw [Finset.insert_eq_of_mem hheld]
        exact hcap
      · rcases place_of_put htarget hattempt with ⟨key, submission, rfl, rfl, hcount⟩ |
          ⟨old, hold⟩
        · rcases isIn_place.mp hin with ⟨rfl, rfl⟩
          have hlimit := hops.left.right key submission rfl
          have hroom := hpermits pool _ hallowed.left x key submission next rfl hcount
          have hlt := hroom.resolve_left hheld
          refine (Finset.card_le_card hsub).trans ?_
          rw [Finset.card_insert_of_notMem hheld, <- hlimit]
          exact hlt
        · refine absurd ?_ hheld
          rcases get_applyWrites_cases hold with hwrite | ⟨_, hrow⟩
          · exact Database.possible_of_written hwrite hin
          · exact Database.mem_possible.mpr (Or.inl ⟨old, hrow, hin⟩)
  failed := fun request o next hops _ => hops.right none
  started := fun pool request _ hstart => sessionCapped_program hstart.right
  moved := by
    intro db db' hcaps hmove owner conversationId
    exact (Finset.card_le_card (Database.possible_moves hmove)).trans (hcaps owner conversationId)

theorem editCount_le (hpermits : forall pool t, permits pool t -> CountsEditsUnderWay pool t)
    {pool : EditRequestPool}
    (hreach : Pool.Reaches (editRequestRules cap permits) ⟨.blank, []⟩ pool)
    (owner conversationId : UUID) : editCount pool.store.rows owner conversationId ≤ cap := by
  have hkeeps := Pool.keeps_reaches (taskProof_editCaps hpermits) hreach
    ⟨fun _ _ => Nat.zero_le _, fun _ h => by cases h⟩
  exact (Database.committed_le_possible _ _).trans (hkeeps.store owner conversationId)

end EditCaps

/-!
# The reported cap
-/

/-- The call is running while its conversation is full. -/
def FullDuring (cap : Nat) (request : EditRequest) (pool : EditRequestPool) : Prop :=
  (exists t, t ∈ pool.tasks ∧ t.call = request ∧ t.prog.Running) ∧
    cap ≤ editCount pool.store.rows request.call.key.owner request.call.key.conversationId

/-- The edit that a program selects with its next statement. -/
def selectsNext : Prog (sessions editTable) EditExc EditAnswer -> Option BlockKey
  | .op (_, .take) next =>
      match next (some ()) with
      | .op (_, .run (.selectEdit key)) _ => some key
      | _ => none
  | _ => none

/--
A new save has inserted nothing although its snapshot showed fewer edits than the cap, and
is about to look for the edit that it has met.
-/
structure LooksAgain (db : EditDatabase) (place : EditPlace) (t : EditRequestTask) : Prop where
  version : t.call.call.expectedVersion = 0
  selects : selectsNext t.prog = some t.call.call.key
  place : t.call.call.key.place = place
  room : forall submission, t.call.call.submission = some submission ->
    editCount (db.transaction t.call.xid).seen t.call.call.key.owner
      t.call.call.key.conversationId < submission.maxPerConversation

/-- No edit is deleted for good while a save is about to look for it again. -/
def SparesMetEdits (pool : EditRequestPool) (t : EditRequestTask) : Prop :=
  forall x next place u, t.prog = .op (x, .commit) next ->
    (place, none) ∈ (pool.store.transaction x).writes -> u ∈ pool.tasks ->
    ¬LooksAgain pool.store place u

section ReportedCaps

variable {cap : Nat} {request : EditRequest} {submission : EditSubmission} {db db' : EditDatabase}

/-- Whatever comes, the program does not report a reached cap. -/
def NoLimit (prog : Prog (sessions editTable) EditExc EditAnswer) : Prop :=
  prog.Raises (fun e => e ≠ .sourceEditLimitReached)

theorem noLimit_statements {x : Nat} {p : EditProg EditAnswer}
    (h : p.Raises (fun e => e ≠ .sourceEditLimitReached)) :
    NoLimit (statements .database x p) := by
  have hdatabase : EditExc.database ≠ .sourceEditLimitReached := by simp
  induction p with
  | ret a =>
      rintro (_ | done)
      · exact fun _ => hdatabase
      · trivial
  | raise e => exact fun _ => h
  | op o next ih =>
      rw [statements]
      rintro (_ | taken)
      · exact ih none (h none)
      · exact fun answer => ih answer (h answer)

def afterReread (submission : EditSubmission) :
    Option (Option SourceEditRow) -> EditProg EditAnswer
  | some current => SourceEditRepository.unwritten submission 0 current
  | none => .raise .database

/-- What a new save does with the answer to its `INSERT`. -/
def afterInsert (key : BlockKey) (submission : EditSubmission) :
    Option (Option SourceEditRow) -> EditProg EditAnswer
  | some (some row) => .ret (.saved row true)
  | some none => .op (.selectEdit key) (afterReread submission)
  | none => .raise .database

theorem save_zero (key : BlockKey) (submission : EditSubmission) :
    SourceEditRepository.save key submission 0 =
      .op (.insertEdit key submission) (afterInsert key submission) := by
  have hreread : forall current, (SourceEditRepository.get key >>= fun current =>
      SourceEditRepository.unwritten submission 0 current) = current ->
      current = .op (.selectEdit key) (afterReread submission) := by
    rintro _ rfl
    show Prog.op _ _ = _
    congr 1
    funext answer
    cases answer with
    | none => rfl
    | some current => rfl
  unfold SourceEditRepository.save SourceEditRepository.write
  rw [if_pos rfl]
  show Prog.op _ _ = _
  congr 1
  funext answer
  cases answer with
  | none => rfl
  | some row =>
      cases row with
      | some row => rfl
      | none => exact hreread _ rfl

theorem raises_afterReread (submission : EditSubmission) {answer : Option (Option SourceEditRow)}
    (h : answer ≠ some none) :
    (afterReread submission answer).Raises (fun e => e ≠ .sourceEditLimitReached) := by
  match answer with
  | none => exact (by simp : EditExc.database ≠ .sourceEditLimitReached)
  | some none => exact absurd rfl h
  | some (some row) =>
      show (SourceEditRepository.unwritten submission 0 (some row)).Raises _
      unfold SourceEditRepository.unwritten
      dsimp only
      split
      · trivial
      · exact (by simp : EditExc.sourceEditConflict (some row) ≠ .sourceEditLimitReached)

/-- The transaction of the request has written nothing, if it is open. -/
def Unwritten (db : EditDatabase) (x : Nat) : Prop :=
  forall t, db.running.get x = some t -> t.writes = []

/-- Where a new save stands, and what its transaction has seen. -/
inductive NewSaveStage (request : EditRequest) (submission : EditSubmission) (db : EditDatabase) :
    Prog (sessions editTable) EditExc EditAnswer -> Prop where
  | begins : NewSaveStage request submission db request.program
  | inserts : Unwritten db request.xid ->
      NewSaveStage request submission db (statements .database request.xid
        (.op (.insertEdit request.call.key submission)
          (afterInsert request.call.key submission)))
  | inserting : Unwritten db request.xid ->
      (forall t, db.running.get request.xid = some t ->
        editCount t.snapshot request.call.key.owner request.call.key.conversationId <
          submission.maxPerConversation) ->
      NewSaveStage request submission db
        (.op (request.xid, .run (.insertEdit request.call.key submission)) (fun answer =>
          statements .database request.xid
            (afterInsert request.call.key submission answer)))
  | rereads : Unwritten db request.xid ->
      (forall t, db.running.get request.xid = some t ->
        editCount t.snapshot request.call.key.owner request.call.key.conversationId <
          submission.maxPerConversation ∧
        (db.rows.get request.call.key.place).isSome = true) ->
      NewSaveStage request submission db (statements .database request.xid
        (.op (.selectEdit request.call.key) (afterReread submission)))
  | rereading : Unwritten db request.xid ->
      (forall t, db.running.get request.xid = some t ->
        (t.snapshot.get request.call.key.place).isSome = true) ->
      NewSaveStage request submission db
        (.op (request.xid, .run (.selectEdit request.call.key)) (fun answer =>
          statements .database request.xid (afterReread submission answer)))
  | ends (prog : Prog (sessions editTable) EditExc EditAnswer) : NoLimit prog ->
      NewSaveStage request submission db prog

theorem exists_transaction {x : Nat} (h : (db.running.get x).isSome = true) :
    exists t, db.running.get x = some t ∧ db.transaction x = t := by
  rcases Option.isSome_iff_exists.mp h with ⟨t, ht⟩
  exact ⟨t, ht, Database.transaction_of_get ht⟩

/-- A step of its own takes a new save to its next stage, unless the conversation is full. -/
theorem newSaveStage_exec {o : (sessions editTable).Op}
    {next : Option ((sessions editTable).Res o) -> Prog (sessions editTable) EditExc EditAnswer}
    (hsave : request.call.submission = some submission)
    (hversion : request.call.expectedVersion = 0)
    (hstage : NewSaveStage request submission db (.op o next)) (hready : sourceEdits.Ready db o)
    (hroom : editCount db.rows request.call.key.owner request.call.key.conversationId <
      submission.maxPerConversation) :
    NewSaveStage request submission (sourceEdits.exec o db).2
      (next (some (sourceEdits.exec o db).1)) := by
  generalize hprog : Prog.op o next = prog at hstage
  cases hstage with
  | begins =>
      have hprogram : request.call.program =
          .op (.insertEdit request.call.key submission)
            (afterInsert request.call.key submission) := by
        unfold EditCall.program
        rw [hsave, hversion]
        exact save_zero _ _
      unfold EditRequest.program transaction at hprog
      cases hprog
      show NewSaveStage request submission _ (statements .database request.xid request.call.program)
      rw [hprogram]
      refine NewSaveStage.inserts ?_
      intro t ht
      change (db.setTransaction request.xid (.blank db.rows)).running.get request.xid = _ at ht
      rw [Database.get_setTransaction, if_pos rfl] at ht
      cases ht
      rfl
  | inserts hunwritten =>
      rw [statements] at hprog
      cases hprog
      rcases exists_transaction hready with ⟨t, ht, htransaction⟩
      have hafter : (sourceEdits.exec (request.xid, .take) db).2.running.get request.xid =
          some { t with snapshot := db.rows } := by
        show (db.setTransaction request.xid _).running.get request.xid = _
        rw [Database.get_setTransaction, if_pos rfl, htransaction]
      refine NewSaveStage.inserting ?_ ?_
      · intro u hu
        rw [hafter] at hu
        cases hu
        exact hunwritten t ht
      · intro u hu
        rw [hafter] at hu
        cases hu
        exact hroom
  | inserting hunwritten hcount =>
      cases hprog
      rcases exists_transaction hready.left with ⟨t, ht, htransaction⟩
      have hwrites := hunwritten t ht
      have hseen : t.seen = t.snapshot := by
        unfold Transaction.seen
        rw [hwrites]
        rfl
      have hcurrent : t.current db.rows = db.rows := by
        unfold Transaction.current
        rw [hwrites]
        rfl
      have htarget : sourceEdits.target (.insertEdit request.call.key submission) t.seen =
          some request.call.key.place := by
        rw [hseen]
        exact if_pos (hcount t ht)
      cases hmet : db.rows.get request.call.key.place with
      | some old =>
          have houtcome : sourceEdits.outcome db.now db.rows t
              (.insertEdit request.call.key submission) = .nothing := by
            unfold Table.outcome
            rw [htarget, hcurrent]
            dsimp only
            rw [hmet]
            rfl
          have hexec : sourceEdits.exec
              (request.xid, .run (.insertEdit request.call.key submission)) db =
              (none, db.setTransaction request.xid t) := by
            show (sourceEdits.answer _ _ _, db.setTransaction request.xid _) = _
            rw [htransaction]
            unfold Table.after
            rw [houtcome]
            rfl
          rw [hexec]
          have hget : (db.setTransaction request.xid t).running.get request.xid = some t := by
            rw [Database.get_setTransaction, if_pos rfl]
          refine NewSaveStage.rereads ?_ ?_
          · intro u hu
            rw [hget] at hu
            cases hu
            exact hwrites
          · intro u hu
            rw [hget] at hu
            cases hu
            refine ⟨hcount t ht, ?_⟩
            show (db.rows.get request.call.key.place).isSome = true
            rw [hmet]
            rfl
      | none =>
          have houtcome : exists record, sourceEdits.outcome db.now db.rows t
              (.insertEdit request.call.key submission) = .put record := by
            unfold Table.outcome
            rw [htarget, hcurrent]
            dsimp only
            rw [hmet]
            exact ⟨_, rfl⟩
          rcases houtcome with ⟨record, houtcome⟩
          have hanswer : (sourceEdits.exec
              (request.xid, .run (.insertEdit request.call.key submission)) db).1 =
              some record.row := by
            show EditOp.answer _ _ (sourceEdits.outcome db.now db.rows
              (db.transaction request.xid) _) = _
            rw [htransaction, houtcome]
            rfl
          rw [hanswer]
          exact NewSaveStage.ends _ (noLimit_statements trivial)
  | rereads hunwritten hmet =>
      rw [statements] at hprog
      cases hprog
      rcases exists_transaction hready with ⟨t, ht, htransaction⟩
      have hafter : (sourceEdits.exec (request.xid, .take) db).2.running.get request.xid =
          some { t with snapshot := db.rows } := by
        show (db.setTransaction request.xid _).running.get request.xid = _
        rw [Database.get_setTransaction, if_pos rfl, htransaction]
      refine NewSaveStage.rereading ?_ ?_
      · intro u hu
        rw [hafter] at hu
        cases hu
        exact hunwritten t ht
      · intro u hu
        rw [hafter] at hu
        cases hu
        exact (hmet t ht).right
  | rereading hunwritten hmet =>
      cases hprog
      rcases exists_transaction hready.left with ⟨t, ht, htransaction⟩
      have hanswer : (sourceEdits.exec
          (request.xid, .run (.selectEdit request.call.key)) db).1 ≠ none := by
        show ((db.transaction request.xid).seen.get request.call.key.place).map _ ≠ none
        rw [htransaction]
        unfold Transaction.seen
        rw [hunwritten t ht]
        intro hnone
        have hsome := hmet t ht
        rw [show t.snapshot.get request.call.key.place = none from Option.map_eq_none_iff.mp hnone]
          at hsome
        cases hsome
      refine NewSaveStage.ends _ (noLimit_statements (raises_afterReread submission ?_))
      intro heq
      exact hanswer (Option.some.inj heq)
  | ends prog hend =>
      subst hprog
      exact NewSaveStage.ends _ (hend _)

theorem newSaveStage_fault {o : (sessions editTable).Op}
    {next : Option ((sessions editTable).Res o) -> Prog (sessions editTable) EditExc EditAnswer}
    (hstage : NewSaveStage request submission db (.op o next)) :
    NewSaveStage request submission db (next none) := by
  have hdatabase : (Prog.raise .database : EditProg EditAnswer).Raises
      (fun e => e ≠ .sourceEditLimitReached) :=
    (by simp : EditExc.database ≠ .sourceEditLimitReached)
  generalize hprog : Prog.op o next = prog at hstage
  cases hstage with
  | begins =>
      unfold EditRequest.program transaction at hprog
      cases hprog
      exact NewSaveStage.ends _ (by simp : EditExc.database ≠ .sourceEditLimitReached)
  | inserts hunwritten =>
      rw [statements] at hprog
      cases hprog
      exact NewSaveStage.ends _ (noLimit_statements hdatabase)
  | inserting hunwritten hcount =>
      cases hprog
      exact NewSaveStage.ends _ (noLimit_statements hdatabase)
  | rereads hunwritten hmet =>
      rw [statements] at hprog
      cases hprog
      exact NewSaveStage.ends _ (noLimit_statements hdatabase)
  | rereading hunwritten hmet =>
      cases hprog
      exact NewSaveStage.ends _ (noLimit_statements hdatabase)
  | ends prog hend =>
      subst hprog
      exact NewSaveStage.ends _ (hend none)

theorem newSaveStage_stable {prog : Prog (sessions editTable) EditExc EditAnswer}
    (hsave : request.call.submission = some submission)
    (hversion : request.call.expectedVersion = 0)
    (hrunning : forall t, db'.running.get request.xid = some t ->
      db.running.get request.xid = some t)
    (hrows : LooksAgain db request.call.key.place ⟨request, prog⟩ ->
      (db.rows.get request.call.key.place).isSome = true ->
      (db'.rows.get request.call.key.place).isSome = true)
    (hstage : NewSaveStage request submission db prog) :
    NewSaveStage request submission db' prog := by
  cases hstage with
  | begins => exact NewSaveStage.begins
  | inserts hunwritten => exact NewSaveStage.inserts (fun t ht => hunwritten t (hrunning t ht))
  | inserting hunwritten hcount =>
      exact NewSaveStage.inserting (fun t ht => hunwritten t (hrunning t ht))
        (fun t ht => hcount t (hrunning t ht))
  | rereads hunwritten hmet =>
      refine NewSaveStage.rereads (fun t ht => hunwritten t (hrunning t ht)) ?_
      intro t ht
      have ht' := hrunning t ht
      rcases hmet t ht' with ⟨hcount, hsome⟩
      refine ⟨hcount, hrows ?_ hsome⟩
      refine ⟨hversion, ?_, rfl, ?_⟩
      · show selectsNext (statements _ _ _) = _
        rw [statements]
        rfl
      · intro other hother
        dsimp only at hother ⊢
        rw [hsave] at hother
        cases hother
        rw [Database.transaction_of_get ht']
        unfold Transaction.seen
        rw [hunwritten t ht']
        exact hcount
  | rereading hunwritten hmet =>
      exact NewSaveStage.rereading (fun t ht => hunwritten t (hrunning t ht))
        (fun t ht => hmet t (hrunning t ht))
  | ends prog hend => exact NewSaveStage.ends prog hend

/-- A call that is not a new save never reports a reached cap. -/
theorem noLimit_program (h : forall submission, request.call.submission = some submission ->
    request.call.expectedVersion ≠ 0) : NoLimit request.program := by
  have hprogram : request.call.program.Raises (fun e => e ≠ .sourceEditLimitReached) := by
    unfold EditCall.program
    cases hsubmission : request.call.submission with
    | none =>
        rintro (_ | removed)
        · exact (by simp : EditExc.database ≠ .sourceEditLimitReached)
        · cases removed with
          | true => trivial
          | false =>
              rintro (_ | _ | current)
              · exact (by simp : EditExc.database ≠ .sourceEditLimitReached)
              · trivial
              · exact (by simp : EditExc.sourceEditConflict _ ≠ .sourceEditLimitReached)
    | some submission =>
        have hne := h submission hsubmission
        dsimp only
        unfold SourceEditRepository.save SourceEditRepository.write
        rw [if_neg hne]
        rintro (_ | _ | row)
        · exact (by simp : EditExc.database ≠ .sourceEditLimitReached)
        · rintro (_ | current)
          · exact (by simp : EditExc.database ≠ .sourceEditLimitReached)
          · show (SourceEditRepository.unwritten _ _ current).Raises _
            unfold SourceEditRepository.unwritten
            cases current with
            | none =>
                dsimp only
                rw [if_neg hne]
                exact (by simp : EditExc.sourceEditConflict _ ≠ .sourceEditLimitReached)
            | some row =>
                dsimp only
                split
                · trivial
                · exact (by simp : EditExc.sourceEditConflict _ ≠ .sourceEditLimitReached)
        · trivial
  rintro (_ | begun)
  · exact (by simp : EditExc.database ≠ .sourceEditLimitReached)
  · exact noLimit_statements hprogram

/-- A call either is a new save at one of its stages or never reports a reached cap. -/
def EditStands (request : EditRequest) (db : EditDatabase)
    (prog : Prog (sessions editTable) EditExc EditAnswer) : Prop :=
  NoLimit prog ∨ exists submission, request.call.submission = some submission ∧
    request.call.expectedVersion = 0 ∧ NewSaveStage request submission db prog

theorem editStands_program : EditStands request db request.program := by
  by_cases h : exists submission, request.call.submission = some submission ∧
      request.call.expectedVersion = 0
  · rcases h with ⟨submission, hsubmission, hversion⟩
    exact Or.inr ⟨submission, hsubmission, hversion, NewSaveStage.begins⟩
  · left
    refine noLimit_program ?_
    intro submission hsubmission hversion
    exact h ⟨submission, hsubmission, hversion⟩

theorem editStands_stable {prog : Prog (sessions editTable) EditExc EditAnswer}
    (hrunning : forall t, db'.running.get request.xid = some t ->
      db.running.get request.xid = some t)
    (hrows : LooksAgain db request.call.key.place ⟨request, prog⟩ ->
      (db.rows.get request.call.key.place).isSome = true ->
      (db'.rows.get request.call.key.place).isSome = true)
    (h : EditStands request db prog) : EditStands request db' prog := by
  rcases h with hend | ⟨submission, hsubmission, hversion, hstage⟩
  · exact Or.inl hend
  · exact Or.inr ⟨submission, hsubmission, hversion,
      newSaveStage_stable hsubmission hversion hrunning hrows hstage⟩

variable {permits : EditRequestPool -> EditRequestTask -> Prop}

/-- The rules under which the call takes no step while its conversation is full. -/
abbrev roomyRules (cap : Nat) (request : EditRequest)
    (permits : EditRequestPool -> EditRequestTask -> Prop) :
    Rules EditRequest (sessions editTable) EditExc EditAnswer EditDatabase :=
  editRequestRules cap (fun pool t => permits pool t ∧ ¬FullDuring cap request pool)

theorem localProof_reported (hpermits : forall pool t, permits pool t -> SparesMetEdits pool t) :
    Pool.LocalProof (roomyRules cap request permits) (fun _ => True)
      (fun db t => Prog.AllOps (SessionCapped t.call.xid cap) t.prog ∧
        (t.call = request -> (forall submission, request.call.submission = some submission ->
          submission.maxPerConversation = cap) ∧ EditStands request db t.prog))
      (fun p q => p.call.xid ≠ q.call.xid) where
  symm := fun _ _ h => h.symm
  own := by
    intro before after call o next db hholds hallowed
    have htask := hholds.each _ (List.mem_append_right _ List.mem_cons_self)
    refine ⟨trivial, htask.left.right _, ?_⟩
    intro hcall
    change call = request at hcall
    subst hcall
    rcases htask.right rfl with ⟨hcap, hend | ⟨submission, hsubmission, hversion, hstage⟩⟩
    · exact ⟨hcap, Or.inl (hend _)⟩
    · refine ⟨hcap, Or.inr ⟨submission, hsubmission, hversion, ?_⟩⟩
      refine newSaveStage_exec hsubmission hversion hstage (hallowed.right o next rfl) ?_
      rw [hcap submission hsubmission]
      refine Nat.lt_of_not_le ?_
      intro hfull
      refine hallowed.left.right ⟨⟨_, List.mem_append_right _ List.mem_cons_self, rfl, ?_⟩, hfull⟩
      trivial
  ownFault := by
    intro before after call o next db hholds _
    have htask := hholds.each _ (List.mem_append_right _ List.mem_cons_self)
    refine ⟨trivial, htask.left.right none, ?_⟩
    intro hcall
    change call = request at hcall
    subst hcall
    rcases htask.right rfl with ⟨hcap, hend | ⟨submission, hsubmission, hversion, hstage⟩⟩
    · exact ⟨hcap, Or.inl (hend none)⟩
    · exact ⟨hcap, Or.inr ⟨submission, hsubmission, hversion, newSaveStage_fault hstage⟩⟩
  stable := by
    intro pool call o next q hholds hmem hallowed hq happart
    have hxid := (hholds.each _ hmem).left.left.left
    rcases hholds.each q hq with ⟨hops, hstands⟩
    refine ⟨hops, ?_⟩
    intro hcall
    rcases hstands hcall with ⟨hcap, hstands⟩
    refine ⟨hcap, ?_⟩
    subst hcall
    refine editStands_stable ?_ ?_ hstands
    · intro t ht
      rw [<- Table.running_exec_ne (D := sourceEdits) (o := o)
        (fun heq => happart (hxid.symm.trans heq.symm))]
      exact ht
    · intro hlooks hsome
      rcases Table.rows_exec (D := sourceEdits) o with hrows | ⟨x, rfl, hrows⟩
      · show ((sourceEdits.exec o pool.store).2.rows.get _).isSome = true
        rw [hrows]
        exact hsome
      · refine Database.isSome_commit ?_ hsome
        intro hdeleted
        exact hpermits pool _ hallowed.left.left x next _ q rfl hdeleted hq hlooks
  apartNext := fun _ _ _ _ _ _ _ _ _ h => h
  apartFault := fun _ _ _ _ _ _ _ _ _ h => h
  stopped := fun _ _ _ _ _ _ _ _ _ => trivial
  started := by
    intro pool call _ hstart
    refine ⟨trivial, ⟨sessionCapped_program hstart.right, ?_⟩, ?_⟩
    · intro hcall
      change call = request at hcall
      subst hcall
      exact ⟨hstart.right, editStands_program⟩
    · intro q hq
      exact hstart.left q hq
  moved := by
    intro tasks db db' hholds hmove
    refine ⟨trivial, ?_⟩
    intro q hq
    rcases hholds.each q hq with ⟨hops, hstands⟩
    refine ⟨hops, fun hcall => ?_⟩
    rcases hstands hcall with ⟨hcap, hstands⟩
    refine ⟨hcap, ?_⟩
    change EditStands request db q.prog at hstands
    rcases hmove with ⟨x, rfl⟩ | ⟨hrows, hrunning, _⟩
    · refine editStands_stable ?_ ?_ hstands
      · intro t ht
        rw [Database.get_rollback] at ht
        split at ht
        · cases ht
        · exact ht
      · exact fun _ hsome => hsome
    · refine editStands_stable ?_ ?_ hstands
      · intro t ht
        rw [<- hrunning]
        exact ht
      · intro _ hsome
        rw [hrows]
        exact hsome

/-- A run in which the call never runs while its conversation is full. -/
def RunsWithRoom (cap : Nat) (request : EditRequest)
    (permits : EditRequestPool -> EditRequestTask -> Prop) :
    EditRequestPool -> EditRequestPool -> Prop :=
  Relation.ReflTransGen (fun pool pool' =>
    Pool.Step (editRequestRules cap permits) pool pool' ∧ ¬FullDuring cap request pool)

theorem not_reported (hpermits : forall pool t, permits pool t -> SparesMetEdits pool t)
    {pool : EditRequestPool} (hrun : RunsWithRoom cap request permits ⟨.blank, []⟩ pool) :
    (⟨request, .raise .sourceEditLimitReached⟩ : EditRequestTask) ∉ pool.tasks := by
  have hreach : Pool.Reaches (roomyRules cap request permits) ⟨.blank, []⟩ pool := by
    refine Relation.ReflTransGen.mono (fun pool pool' h => ?_) _ _ hrun
    rcases h with ⟨hstep, hroom⟩
    exact Pool.step_permits hstep (fun t ht => ⟨⟨ht.left, hroom⟩, ht.right⟩)
  have hholds := Pool.holds_reaches (localProof_reported hpermits) hreach
    ⟨trivial, (fun _ h => by cases h), List.Pairwise.nil⟩
  intro hmem
  rcases ((hholds.each _ hmem).right rfl).right with hend | ⟨submission, _, _, hstage⟩
  · exact hend rfl
  · generalize hprog : (Prog.raise EditExc.sourceEditLimitReached :
      Prog (sessions editTable) EditExc EditAnswer) = prog at hstage
    cases hstage with
    | begins => cases hprog
    | inserts _ =>
        rw [statements] at hprog
        cases hprog
    | inserting _ _ => cases hprog
    | rereads _ _ =>
        rw [statements] at hprog
        cases hprog
    | rereading _ _ => cases hprog
    | ends prog hend =>
        subst hprog
        exact hend rfl

end ReportedCaps

/-!
# Unfinished exports of a user
-/

/-- The job that a program inserts next, if it finds none that it can reuse. -/
def nextInsert {alpha : Type} : ExportProg alpha -> Option NewJob
  | .op (.insertJob job _) _ => some job
  | .op (.selectReusable _ _ _) next =>
      match next (some none) with
      | .op (.insertJob job _) _ => some job
      | _ => none
  | _ => none

def unfinishedJobs (s : ExportStore) (owner : UUID) : List (UUID × ExportJob) :=
  s.selectJobs (fun _ j => j.ownerUserId == owner && j.isUnfinished)

def reservation (owner : UUID) (t : ExportTask) : Option RequestKey :=
  ((nextInsert t.prog).filter (fun job => job.ownerUserId = owner)).map NewJob.requestKey

/-- The requests of the owner's unfinished jobs, and of those that are about to be made. -/
def requestsUnderWay (pool : ExportPool) (owner : UUID) : Finset RequestKey :=
  ((unfinishedJobs pool.store owner).map (fun e => e.2.requestKey) ++
    pool.tasks.filterMap (reservation owner)).toFinset

/--
A creation that counts fewer jobs than the limit finds no more requests under way than the
limit allows, its own included.
-/
def CountsRequestsUnderWay (svc : ExportService) (pool : ExportPool) (t : ExportTask) : Prop :=
  forall owner key next, t.prog = .op (.countUnfinished owner key) next ->
    (unfinishedJobs pool.store owner).length < svc.cfg.maxLivePerUser ->
    (insert key (requestsUnderWay pool owner)).card ≤ svc.cfg.maxLivePerUser

section ExportCaps

variable {alpha beta : Type}

/-- The count has found room for the job. -/
def CountedRoom (limit : Nat) (job : NewJob) (o : ExportOp) (answer : Option o.Res) : Prop :=
  match o, answer with
  | .countUnfinished owner key, some live =>
      live < limit ∧ job.ownerUserId = owner ∧ job.requestKey = key
  | _, _ => False

/-- A program is about to insert a job only by counting or because it already was. -/
def Reserves (limit : Nat) : ExportProg alpha -> Prop
  | .op o next => forall answer, Reserves limit (next answer) ∧
      forall job, nextInsert (next answer) = some job ->
        CountedRoom limit job o answer ∨ nextInsert (.op o next) = some job
  | _ => True

/-- The program is not about to insert a job, and never is without having counted. -/
def Counts (limit : Nat) (p : ExportProg alpha) : Prop :=
  nextInsert p = none ∧ Reserves limit p

variable {limit : Nat}

theorem insertsNone {p : ExportProg alpha} (h : nextInsert p = none) {P : NewJob -> Prop} :
    forall job, nextInsert p = some job -> P job := by
  intro job hjob
  rw [h] at hjob
  cases hjob

theorem countedRoom_exec {job : NewJob} {o : ExportOp} {s : ExportStore}
    (h : CountedRoom limit job o (some (o.exec s).1)) :
    o = .countUnfinished job.ownerUserId job.requestKey ∧
      (unfinishedJobs s job.ownerUserId).length < limit := by
  cases o with
  | countUnfinished owner key =>
      rcases h with ⟨hroom, rfl, rfl⟩
      exact ⟨rfl, hroom⟩
  | _ => exact h.elim

theorem not_countedRoom_none {job : NewJob} {o : ExportOp} :
    ¬CountedRoom limit job o none := by
  cases o with
  | _ => exact fun h => h

theorem counts_of_settled {p : ExportProg alpha}
    (h : Prog.AllOps (fun o => ¬ExportOp.Inserts o) p) : Counts limit p := by
  have hnone : forall {q : ExportProg alpha}, Prog.AllOps (fun o => ¬ExportOp.Inserts o) q ->
      nextInsert q = none := by
    intro q hq
    unfold nextInsert
    split
    · exact absurd trivial hq.left
    · split
      · rename_i heq
        have hnext := hq.right (some none)
        rw [heq] at hnext
        exact absurd trivial hnext.left
      · rfl
    · rfl
  refine ⟨hnone h, ?_⟩
  induction p with
  | ret a => trivial
  | raise e => trivial
  | op o next ih =>
      exact fun answer =>
        ⟨ih answer (h.right answer), insertsNone (hnone (h.right answer))⟩

/-- The operation neither adds a job nor looks for one that can be reused. -/
def ExportOp.Precedes : ExportOp -> Prop
  | .insertJob _ _ => False
  | .selectReusable _ _ _ => False
  | _ => True

theorem counts_bind {p : ExportProg alpha} {f : alpha -> ExportProg beta}
    (hp : Prog.AllOps ExportOp.Precedes p) (hf : forall a, Counts limit (f a)) :
    Counts limit (p >>= f) := by
  have hnone : forall {q : ExportProg alpha}, Prog.AllOps ExportOp.Precedes q ->
      nextInsert (q >>= f) = none := by
    intro q hq
    cases q with
    | ret a => exact (hf a).left
    | raise e => rfl
    | op o next =>
        cases o with
        | insertJob job lapsed => exact hq.left.elim
        | selectReusable owner key lapsed => exact hq.left.elim
        | _ => rfl
  refine ⟨hnone hp, ?_⟩
  induction p with
  | ret a => exact (hf a).right
  | raise e => trivial
  | op o next ih =>
      exact fun answer =>
        ⟨ih answer (hp.right answer), insertsNone (hnone (hp.right answer))⟩

theorem nextInsert_ret_bind (g : alpha -> beta) (p : ExportProg alpha) :
    nextInsert (p >>= fun a => .ret (g a)) = nextInsert p := by
  cases p with
  | ret a => rfl
  | raise e => rfl
  | op o next =>
      cases o with
      | selectReusable owner key lapsed =>
          rw [Prog.op_bind]
          unfold nextInsert
          dsimp only
          cases next (some none) with
          | ret a => rfl
          | raise e => rfl
          | op o' next' =>
              cases o' with
              | _ => rfl
      | _ => rfl

theorem counts_ret_bind (g : alpha -> beta) {p : ExportProg alpha} (hp : Counts limit p) :
    Counts limit (p >>= fun a => .ret (g a)) := by
  refine ⟨(nextInsert_ret_bind g p).trans hp.left, ?_⟩
  have hreserves := hp.right
  clear hp
  induction p with
  | ret a => trivial
  | raise e => trivial
  | op o next ih =>
      intro answer
      refine ⟨ih answer (hreserves answer).left, ?_⟩
      intro job hjob
      have hnext := nextInsert_ret_bind g (next answer)
      have hhere := nextInsert_ret_bind g (.op o next)
      rcases (hreserves answer).right job (hnext.symm.trans hjob) with hcounted | hsame
      · exact Or.inl hcounted
      · exact Or.inr (hhere.trans hsame)

theorem settled_reread (owner : UUID) (key : RequestKey) (lapsed : List UUID)
    (inserted : Option ExportJob) (jobId : UUID) :
    Prog.AllOps (fun o => ¬ExportOp.Inserts o)
      (ExportService.reread owner key lapsed inserted jobId) := by
  unfold ExportService.reread
  cases inserted with
  | some row => trivial
  | none =>
      refine Prog.allOps_bind (allOps_exportCall id) ?_
      intro row
      cases row with
      | some row => exact Prog.allOps_bind (allOps_exportCall id) (fun _ => trivial)
      | none => trivial

theorem nextInsert_reusable {owner : UUID} {key : RequestKey} {lapsed : List UUID}
    {next : Option (Option (UUID × ExportJob)) -> ExportProg alpha}
    (h : forall owner key lapsed next',
      next (some none) ≠ .op (.selectReusable owner key lapsed) next') :
    nextInsert (next (some none)) = nextInsert (.op (.selectReusable owner key lapsed) next) := by
  unfold nextInsert
  dsimp only
  generalize next (some none) = q at h
  cases q with
  | ret a => rfl
  | raise e => rfl
  | op o next' =>
      cases o with
      | selectReusable owner key lapsed => exact absurd rfl (h owner key lapsed next')
      | _ => rfl

def afterLookup (svc : ExportService) (request : ExportService.Request) (job : NewJob)
    (lapsed : List UUID) (live : Nat) :
    Option (Option (UUID × ExportJob)) -> ExportProg (UUID × ExportJob × Bool)
  | none => Prog.raise .other
  | some (some row) => do
      exportCall (.commitLapsed lapsed)
      pure (row.1, row.2, false)
  | some none =>
      if svc.cfg.maxLivePerUser ≤ live then Prog.raise .exportLimitReached
      else do
        let inserted : Option ExportJob <- exportCall (.insertJob job lapsed)
        ExportService.reread request.owner job.requestKey lapsed inserted job.jobId

theorem findOrInsert_eq (svc : ExportService) (request : ExportService.Request) (job : NewJob) :
    svc.findOrInsert request job =
      exportCall (.selectLapsed request.owner job.requestKey) >>= fun lapsed =>
        exportCall (.countUnfinished request.owner job.requestKey) >>= fun live =>
          .op (.selectReusable request.owner job.requestKey lapsed)
            (afterLookup svc request job lapsed live) := by
  unfold ExportService.findOrInsert
  congr 1
  funext lapsed
  congr 1
  funext live
  show Prog.op _ _ = _
  congr 1
  funext existing
  rcases existing with _ | _ | row
  · rfl
  · rfl
  · rfl

theorem reserves_afterLookup (svc : ExportService) (request : ExportService.Request)
    (job : NewJob) (lapsed : List UUID) (live : Nat) :
    Reserves limit (.op (.selectReusable request.owner job.requestKey lapsed)
      (afterLookup svc request job lapsed live)) := by
  rintro (_ | _ | row)
  · exact ⟨trivial, insertsNone rfl⟩
  · refine ⟨?_, fun job' hjob => Or.inr ((nextInsert_reusable ?_).symm.trans hjob)⟩
    · unfold afterLookup
      dsimp only
      split
      · trivial
      · rintro (_ | inserted)
        · exact ⟨trivial, insertsNone rfl⟩
        · have hsettled : Counts limit _ := counts_of_settled
            (settled_reread request.owner job.requestKey lapsed inserted job.jobId)
          exact ⟨hsettled.right, insertsNone hsettled.left⟩
    · intro owner key lapsed' next heq
      unfold afterLookup at heq
      dsimp only at heq
      split at heq
      · cases heq
      · cases heq
  · have hsettled : Counts limit (exportCall (.commitLapsed lapsed) >>= fun _ =>
        (pure (row.1, row.2, false) : ExportProg (UUID × ExportJob × Bool))) :=
      counts_of_settled (Prog.allOps_bind (allOps_exportCall id) (fun _ => trivial))
    exact ⟨hsettled.right, insertsNone hsettled.left⟩

theorem room_of_nextInsert {svc : ExportService} {request : ExportService.Request}
    {job job' : NewJob} {lapsed : List UUID} {live : Nat}
    (h : nextInsert (.op (.selectReusable request.owner job.requestKey lapsed)
      (afterLookup svc request job lapsed live)) = some job') :
    live < svc.cfg.maxLivePerUser ∧ job' = job := by
  unfold nextInsert afterLookup at h
  dsimp only at h
  by_cases hfull : svc.cfg.maxLivePerUser ≤ live
  · rw [if_pos hfull] at h
    cases h
  · rw [if_neg hfull] at h
    cases h
    exact ⟨Nat.lt_of_not_le hfull, rfl⟩

theorem counts_findOrInsert (svc : ExportService) (request : ExportService.Request)
    (job : NewJob) (howner : job.ownerUserId = request.owner) :
    Counts svc.cfg.maxLivePerUser (svc.findOrInsert request job) := by
  rw [findOrInsert_eq]
  refine counts_bind (allOps_exportCall trivial) ?_
  intro lapsed
  refine ⟨rfl, ?_⟩
  -- behind the count a job may be about to be inserted
  rintro (_ | live)
  · exact ⟨trivial, insertsNone rfl⟩
  · refine ⟨reserves_afterLookup svc request job lapsed live, ?_⟩
    intro job' hjob
    rcases room_of_nextInsert hjob with ⟨hroom, rfl⟩
    exact Or.inl ⟨hroom, howner, rfl⟩

theorem precedes_fromSources (p : Py alpha) : Prog.AllOps ExportOp.Precedes (fromSources p) :=
  Prog.allOps_mapExc (Prog.allOps_mapOps (Prog.allOps_of_forall (fun _ => trivial) p))

theorem counts_create (svc : ExportService) (request : ExportService.Request) (jobId : UUID) :
    Counts svc.cfg.maxLivePerUser (svc.create request jobId) := by
  refine counts_bind ?_ ?_
  · refine Prog.allOps_bind (precedes_fromSources _) ?_
    intro h
    split
    · dsimp only
      split
      · trivial
      · trivial
    · trivial
  · intro ids
    refine counts_bind ?_ (fun snapshot => counts_findOrInsert svc _ _ rfl)
    induction ids with
    | nil => trivial
    | cons id rest ih =>
        refine Prog.allOps_bind (precedes_fromSources _) ?_
        intro latest
        exact Prog.allOps_bind ih (fun _ => trivial)

theorem settled_publish (svc : ExportService) (jobId : UUID) (file : RenderedFile)
    (conversations : Nat) :
    Prog.AllOps (fun o => ¬ExportOp.Inserts o) (svc.publish jobId file conversations) := by
  unfold ExportService.publish
  split
  · trivial
  · refine Prog.allOps_bind (allOps_exportCall id) ?_
    intro _
    refine Prog.allOps_bind ?_ ?_
    · refine Prog.allOps_bind (allOps_exportCall id) ?_
      intro stored
      split
      · trivial
      · trivial
    · intro _
      refine Prog.allOps_bind (allOps_exportCall id) ?_
      intro ok
      split
      · trivial
      · exact allOps_exportCall id

theorem builtFrom_settled (svc : ExportService) :
    BuiltFrom svc (fun p => Prog.AllOps (fun o => ¬ExportOp.Inserts o) p) where
  plain h := Prog.allOps_mono h (fun _ hworking => hworking.settled)
  publish := settled_publish svc
  bind := Prog.allOps_bind
  tryCatch := Prog.allOps_tryCatch

theorem counts_program (svc : ExportService) (call : ExportCall) :
    Counts svc.cfg.maxLivePerUser (call.program svc) := by
  by_cases h : exists request jobId, call = .create request jobId
  · rcases h with ⟨request, jobId, rfl⟩
    exact counts_ret_bind some (counts_create svc request jobId)
  · refine counts_of_settled (builtFrom_program (builtFrom_settled svc) call ?_)
    intro request jobId hcall
    exact absurd ⟨request, jobId, hcall⟩ h

theorem job_exec_none {o : ExportOp} {s : ExportStore} {jobId : UUID} (ho : ¬o.Inserts)
    (h : s.job jobId = none) : (o.exec s).2.job jobId = none := by
  have hupdate : forall select change, (s.updateJobs select change).job jobId = none := by
    intro select change
    rw [ExportStore.job_updateJobs, h]
    rfl
  cases o with
  | insertJob job lapsed => exact absurd trivial ho
  | commitLapsed lapsed => exact hupdate _ _
  | claimJob jobId maxAttempts lease => exact hupdate _ _
  | setJob jobId allowed change => exact hupdate _ _
  | failExhausted maxAttempts => exact hupdate _ _
  | pruneJobs age =>
      show (s.jobs.filterRows _).get jobId = none
      rw [Partition.get_filterRows, show s.jobs.get jobId = none from h]
      rfl
  | _ => exact h

theorem unfinished_of_moves {j j' : ExportJob} (h : JobMoves j j')
    (hafter : j'.isUnfinished = true) : j.isUnfinished = true := by
  rw [isUnfinished_iff] at hafter ⊢
  rcases h.status with hsame | hmove
  · rw [<- hsame]
    exact hafter
  · generalize j.status = status at hmove
    generalize j'.status = status' at hmove hafter
    cases hmove with
    | claimed => exact Or.inl rfl
    | finished => exact Or.inr rfl
    | expired => simp at hafter
    | failedPending => exact Or.inl rfl
    | failedProcessing => exact Or.inr rfl
    | released => exact Or.inr rfl

theorem unfinished_exec {cfg : ExportSettings} {o : ExportOp} {s : ExportStore} {jobId : UUID}
    {j' : ExportJob} (hsent : o.Sent cfg) (hafter : (o.exec s).2.job jobId = some j')
    (hunfinished : j'.isUnfinished = true) :
    (exists j, s.job jobId = some j ∧ j.isUnfinished = true ∧
      j.ownerUserId = j'.ownerUserId ∧ j.requestKey = j'.requestKey) ∨
    exists job lapsed, o = .insertJob job lapsed ∧ job.ownerUserId = j'.ownerUserId ∧
      job.requestKey = j'.requestKey := by
  have hmoved : forall j, s.job jobId = some j -> JobMoves j j' ->
      exists j, s.job jobId = some j ∧ j.isUnfinished = true ∧
        j.ownerUserId = j'.ownerUserId ∧ j.requestKey = j'.requestKey := fun j hj hmoves =>
    ⟨j, hj, unfinished_of_moves hmoves hunfinished, hmoves.owner.symm, hmoves.requestKey.symm⟩
  have hrow : RowStep cfg s (o.exec s).2 jobId := rowStep_exec hsent
  cases hrow with
  | same h => exact Or.inl ⟨j', h.symm.trans hafter, hunfinished, rfl, rfl⟩
  | updated j k hj hk hupdate =>
      rw [hafter] at hk
      cases hk
      exact Or.inl (hmoved j hj (moves_update hupdate))
  | inserted new hnone hnew _ =>
      by_cases hinserts : o.Inserts
      · cases o with
        | insertJob job lapsed =>
            refine Or.inr ⟨job, lapsed, rfl, ?_⟩
            unfold ExportOp.exec at hafter
            dsimp only at hafter
            have hlapsed : (s.expireLapsed lapsed).job jobId = none := by
              rw [ExportStore.job_expireLapsed, hnone]
              rfl
            split at hafter
            · rw [hnone] at hafter
              cases hafter
            · rw [ExportStore.job_insertRow] at hafter
              split at hafter
              · cases hafter
                exact ⟨rfl, rfl⟩
              · rw [hlapsed] at hafter
                cases hafter
        | _ => exact hinserts.elim
      · rw [job_exec_none hinserts hnone] at hafter
        cases hafter
  | pruned j _ hgone _ =>
      rw [hafter] at hgone
      cases hgone

theorem mem_requestsUnderWay {pool : ExportPool} {owner : UUID} {key : RequestKey} :
    key ∈ requestsUnderWay pool owner <->
      (exists jobId j, pool.store.job jobId = some j ∧ j.ownerUserId = owner ∧
        j.isUnfinished = true ∧ j.requestKey = key) ∨
      exists t, t ∈ pool.tasks ∧ reservation owner t = some key := by
  unfold requestsUnderWay unfinishedJobs
  rw [List.mem_toFinset, List.mem_append, List.mem_map, List.mem_filterMap]
  constructor
  · rintro (⟨⟨jobId, j⟩, hin, rfl⟩ | hreserved)
    · rcases ExportStore.mem_selectJobs.mp hin with ⟨hj, hselect⟩
      rcases Bool.and_eq_true_iff.mp hselect with ⟨howner, hunfinished⟩
      exact Or.inl ⟨jobId, j, hj, eq_of_beq howner, hunfinished, rfl⟩
    · exact Or.inr hreserved
  · rintro (⟨jobId, j, hj, rfl, hunfinished, rfl⟩ | hreserved)
    · refine Or.inl ⟨(jobId, j), ExportStore.mem_selectJobs.mpr ⟨hj, ?_⟩, rfl⟩
      exact Bool.and_eq_true_iff.mpr ⟨beq_self_eq_true _, hunfinished⟩
    · exact Or.inr hreserved

theorem reservation_eq_some {owner : UUID} {t : ExportTask} {key : RequestKey} :
    reservation owner t = some key <-> exists job, nextInsert t.prog = some job ∧
      job.ownerUserId = owner ∧ job.requestKey = key := by
  unfold reservation
  rw [Option.map_eq_some_iff]
  constructor
  · rintro ⟨job, hjob, hkey⟩
    rcases Option.filter_eq_some_iff.mp hjob with ⟨hnext, howner⟩
    exact ⟨job, hnext, of_decide_eq_true howner, hkey⟩
  · rintro ⟨job, hnext, howner, hkey⟩
    exact ⟨job, Option.filter_eq_some_iff.mpr ⟨hnext, decide_eq_true howner⟩, hkey⟩

/-- One live job for each request: a user has as many unfinished jobs as requests. -/
theorem unfinished_le {cfg : ExportSettings} {pool : ExportPool}
    (hsound : JobsSound cfg pool.store) (owner : UUID) :
    (unfinishedJobs pool.store owner).length ≤ (requestsUnderWay pool owner).card := by
  have hmem : forall e, e ∈ unfinishedJobs pool.store owner ->
      pool.store.job e.1 = some e.2 ∧ e.2.ownerUserId = owner ∧ e.2.isLive = true := by
    rintro ⟨jobId, j⟩ hin
    rcases ExportStore.mem_selectJobs.mp hin with ⟨hj, hselect⟩
    rcases Bool.and_eq_true_iff.mp hselect with ⟨howner, hunfinished⟩
    refine ⟨hj, eq_of_beq howner, ?_⟩
    unfold ExportJob.isLive
    rw [hunfinished]
    rfl
  have hnodup : ((unfinishedJobs pool.store owner).map (fun e => e.2.requestKey)).Nodup := by
    refine List.Nodup.map_on ?_ (pool.store.jobs.nodup_rows.filter _)
    rintro ⟨jobId, j⟩ hin ⟨jobId', j'⟩ hin' hkey
    rcases hmem _ hin with ⟨hj, howner, hlive⟩
    rcases hmem _ hin' with ⟨hj', howner', hlive'⟩
    have hid := hsound.oneLive jobId jobId' j j' hj hj' hlive hlive'
      (howner.trans howner'.symm) hkey
    dsimp only at hj hj'
    rw [hid, hj'] at hj
    cases hj
    rw [hid]
  rw [<- List.length_map (fun e : UUID × ExportJob => e.2.requestKey),
    <- List.toFinset_card_of_nodup hnodup]
  refine Finset.card_le_card ?_
  intro key hkey
  unfold requestsUnderWay
  rw [List.mem_toFinset] at hkey ⊢
  exact List.mem_append_left _ hkey

variable {svc : ExportService} {permits : ExportPool -> ExportTask -> Prop}

theorem underWay_replace {before after : List ExportTask} {t t' : ExportTask}
    {s s' : ExportStore} {owner : UUID} {extra : Finset RequestKey}
    (hjobs : forall jobId j', s'.job jobId = some j' -> j'.isUnfinished = true ->
      (exists j, s.job jobId = some j ∧ j.isUnfinished = true ∧
        j.ownerUserId = j'.ownerUserId ∧ j.requestKey = j'.requestKey) ∨
      reservation j'.ownerUserId t = some j'.requestKey)
    (hnext : forall key, reservation owner t' = some key ->
      reservation owner t = some key ∨ key ∈ extra) :
    requestsUnderWay ⟨s', before ++ t' :: after⟩ owner ⊆
      extra ∪ requestsUnderWay ⟨s, before ++ t :: after⟩ owner := by
  intro key hkey
  rw [Finset.mem_union]
  have hhere : reservation owner t = some key ->
      key ∈ requestsUnderWay ⟨s, before ++ t :: after⟩ owner := fun h =>
    mem_requestsUnderWay.mpr (Or.inr ⟨t, by simp, h⟩)
  rcases mem_requestsUnderWay.mp hkey with ⟨jobId, j', hj', rfl, hunfinished, rfl⟩ |
    ⟨u, hu, hreserved⟩
  · right
    rcases hjobs jobId j' hj' hunfinished with ⟨j, hj, hbefore, howner, hkey'⟩ | hreserved
    · exact mem_requestsUnderWay.mpr (Or.inl ⟨jobId, j, hj, howner, hbefore, hkey'⟩)
    · exact hhere hreserved
  · rcases Pool.mem_replace hu with rfl | hother
    · rcases hnext key hreserved with hold | hextra
      · exact Or.inr (hhere hold)
      · exact Or.inl hextra
    · exact Or.inr (mem_requestsUnderWay.mpr
        (Or.inr ⟨u, Pool.mem_split_of_mem hother, hreserved⟩))

theorem card_underWay_replace {before after : List ExportTask} {t t' : ExportTask}
    {s s' : ExportStore} {owner : UUID}
    (hcard : (requestsUnderWay ⟨s, before ++ t :: after⟩ owner).card ≤ limit)
    (hjobs : forall jobId j', s'.job jobId = some j' -> j'.isUnfinished = true ->
      (exists j, s.job jobId = some j ∧ j.isUnfinished = true ∧
        j.ownerUserId = j'.ownerUserId ∧ j.requestKey = j'.requestKey) ∨
      reservation j'.ownerUserId t = some j'.requestKey)
    (hnext : forall key, reservation owner t' = some key -> reservation owner t = some key) :
    (requestsUnderWay ⟨s', before ++ t' :: after⟩ owner).card ≤ limit := by
  have hsub : _ ⊆ ∅ ∪ requestsUnderWay ⟨s, before ++ t :: after⟩ owner :=
    underWay_replace hjobs (fun key h => Or.inl (hnext key h))
  rw [Finset.empty_union] at hsub
  exact (Finset.card_le_card hsub).trans hcard

theorem underWay_subset {pool pool' : ExportPool} {owner : UUID}
    (hjobs : forall jobId, pool'.store.job jobId = pool.store.job jobId)
    (htasks : forall t key, t ∈ pool'.tasks -> reservation owner t = some key ->
      t ∈ pool.tasks) : requestsUnderWay pool' owner ⊆ requestsUnderWay pool owner := by
  intro key hkey
  rcases mem_requestsUnderWay.mp hkey with ⟨jobId, j, hj, hrest⟩ | ⟨t, ht, hreserved⟩
  · exact mem_requestsUnderWay.mpr (Or.inl ⟨jobId, j, (hjobs jobId).symm.trans hj, hrest⟩)
  · exact mem_requestsUnderWay.mpr (Or.inr ⟨t, htasks t key ht hreserved, hreserved⟩)

theorem unfinished_or_reserved {cfg : ExportSettings} {s : ExportStore} {o : ExportOp}
    {call : ExportCall} {next : Option o.Res -> ExportProg ExportAnswer}
    (hsent : ExportOp.Sent cfg o) (jobId : UUID) (j' : ExportJob)
    (hj' : (o.exec s).2.job jobId = some j')
    (hunfinished : j'.isUnfinished = true) :
    (exists j, s.job jobId = some j ∧ j.isUnfinished = true ∧
      j.ownerUserId = j'.ownerUserId ∧ j.requestKey = j'.requestKey) ∨
    reservation j'.ownerUserId ⟨call, .op o next⟩ = some j'.requestKey := by
  rcases unfinished_exec hsent hj' hunfinished with hbefore | ⟨job, lapsed, rfl, howner, hkey⟩
  · exact Or.inl hbefore
  · exact Or.inr (reservation_eq_some.mpr ⟨job, rfl, howner, hkey⟩)

theorem localProof_exportCaps
    (hpermits : forall pool t, permits pool t -> CountsRequestsUnderWay svc pool t) :
    Pool.LocalProof (exportRules svc permits)
      (fun pool => forall owner, (requestsUnderWay pool owner).card ≤ svc.cfg.maxLivePerUser)
      (fun _ t => Prog.AllOps (ExportOp.Sent svc.cfg) t.prog ∧
        Reserves svc.cfg.maxLivePerUser t.prog)
      (fun _ _ => True) where
  symm := fun _ _ _ => trivial
  own := by
    intro before after call o next s hholds hallowed
    have htask := hholds.each _ (List.mem_append_right _ List.mem_cons_self)
    have hreserves := htask.right (some (o.exec s).1)
    refine ⟨?_, htask.left.right _, hreserves.left⟩
    intro owner
    by_cases hcounted : exists job, CountedRoom svc.cfg.maxLivePerUser job o (some (o.exec s).1) ∧
        job.ownerUserId = owner ∧ nextInsert (next (some (o.exec s).1)) = some job
    · rcases hcounted with ⟨job, hroom, rfl, hjob⟩
      rcases countedRoom_exec hroom with ⟨rfl, hbelow⟩
      have hcard := hpermits _ _ hallowed _ _ next rfl hbelow
      refine le_trans (Finset.card_le_card ?_) hcard
      rw [Finset.insert_eq]
      refine underWay_replace (unfinished_or_reserved htask.left.left) ?_
      intro key hkey
      rcases reservation_eq_some.mp hkey with ⟨job', hjob', _, rfl⟩
      right
      have heq : some job = some job' := hjob.symm.trans hjob'
      cases heq
      exact Finset.mem_singleton_self _
    · refine card_underWay_replace (hholds.shared owner)
        (unfinished_or_reserved htask.left.left) ?_
      intro key hkey
      rw [reservation_eq_some] at hkey ⊢
      rcases hkey with ⟨job, hjob, howner, hrest⟩
      rcases hreserves.right job hjob with hroom | hsame
      · exact absurd ⟨job, hroom, howner, hjob⟩ hcounted
      · exact ⟨job, hsame, howner, hrest⟩
  ownFault := by
    intro before after call o next s hholds _
    have htask := hholds.each _ (List.mem_append_right _ List.mem_cons_self)
    have hreserves := htask.right none
    refine ⟨?_, htask.left.right none, hreserves.left⟩
    intro owner
    refine card_underWay_replace (hholds.shared owner)
      (fun jobId j' hj' hunfinished => Or.inl ⟨j', hj', hunfinished, rfl, rfl⟩) ?_
    intro key hkey
    rcases reservation_eq_some.mp hkey with ⟨job, hjob, hrest⟩
    rcases hreserves.right job hjob with hroom | hsame
    · exact (not_countedRoom_none hroom).elim
    · exact reservation_eq_some.mpr ⟨job, hsame, hrest⟩
  stable := by
    intro pool call o next q hholds _ _ hq _
    exact hholds.each q hq
  apartNext := fun _ _ _ _ _ _ _ _ _ _ => trivial
  apartFault := fun _ _ _ _ _ _ _ _ _ _ => trivial
  stopped := by
    intro before after call o next s hholds _ _ owner
    refine (Finset.card_le_card ?_).trans (hholds.shared owner)
    exact underWay_subset (fun _ => rfl) (fun t key ht _ => Pool.mem_split_of_mem ht)
  started := by
    intro pool call hholds _
    have hcounts := counts_program svc call
    refine ⟨?_, ⟨sent_program call, hcounts.right⟩, fun _ _ => trivial⟩
    intro owner
    refine (Finset.card_le_card ?_).trans (hholds.shared owner)
    refine underWay_subset (fun _ => rfl) ?_
    intro t key ht hreserved
    rcases List.mem_append.mp ht with hold | hnew
    · exact hold
    · rw [List.mem_singleton.mp hnew] at hreserved
      rcases reservation_eq_some.mp hreserved with ⟨job, hjob, _⟩
      have hnone := hcounts.left
      rw [show nextInsert (call.program svc) = some job from hjob] at hnone
      cases hnone
  moved := by
    intro tasks s t hholds hmove
    refine ⟨?_, hholds.each⟩
    intro owner
    refine (Finset.card_le_card ?_).trans (hholds.shared owner)
    refine underWay_subset ?_ (fun _ _ ht _ => ht)
    intro jobId
    unfold ExportStore.job
    rw [hmove.jobs]

theorem unfinishedJobs_le
    (hpermits : forall pool t, permits pool t -> CountsRequestsUnderWay svc pool t)
    {pool : ExportPool} (hreach : Pool.Reaches (exportRules svc permits) ⟨.blank, []⟩ pool)
    (owner : UUID) : (unfinishedJobs pool.store owner).length ≤ svc.cfg.maxLivePerUser := by
  have hkeeps := Pool.keeps_reaches taskProof_sent hreach
    ⟨jobsSound_blank, fun _ h => by cases h⟩
  have hholds := Pool.holds_reaches (localProof_exportCaps hpermits) hreach
    ⟨fun _ => Nat.zero_le _, (fun _ h => by cases h), List.Pairwise.nil⟩
  exact (unfinished_le hkeeps.store owner).trans (hholds.shared owner)

end ExportCaps

/-!
# Both tables
-/

def WithinCaps (pool : EditRequestPool) (t : EditRequestTask) : Prop :=
  CountsEditsUnderWay pool t ∧ SparesMetEdits pool t

/--
As long as the counts leave room for the rows under way and no edit is deleted for good
while a save is about to look for it again, both caps hold, and no save reports a reached
cap unless its conversation has been full while it was running.
-/
theorem caps_hold {cap : Nat} {svc : ExportService} {pool : EditRequestPool}
    {exports : ExportPool}
    (hedits : Pool.Reaches (editRequestRules cap WithinCaps) ⟨.blank, []⟩ pool)
    (hexports : Pool.Reaches (exportRules svc (CountsRequestsUnderWay svc)) ⟨.blank, []⟩
      exports) :
    (forall owner conversationId, editCount pool.store.rows owner conversationId ≤ cap) ∧
      (forall request pool', RunsWithRoom cap request WithinCaps ⟨.blank, []⟩ pool' ->
        (⟨request, .raise .sourceEditLimitReached⟩ : EditRequestTask) ∉ pool'.tasks) ∧
      forall owner,
        (unfinishedJobs exports.store owner).length ≤ svc.cfg.maxLivePerUser := by
  refine ⟨?_, ?_, ?_⟩
  · exact editCount_le (fun _ _ h => h.left) hedits
  · intro request pool' hrun
    exact not_reported (fun _ _ h => h.right) hrun
  · exact unfinishedJobs_le (fun _ _ h => h) hexports

/-!
# Two saves and two exports at a time
-/

def cappedSave (x : Nat) (block : String) : EditRequest :=
  { xid := x
    call :=
      { key := ⟨.ofInt 1, .ofInt 2, .ofInt 3, text block⟩
        submission := some
          { id := .ofInt x
            content := text "x"
            language := []
            sourceFormat := .code
            originalSha256 := []
            maxPerConversation := 2 }
        seen := none
        expectedVersion := 0 } }

def discard (x : Nat) (block : String) : EditRequest :=
  { xid := x
    call :=
      { key := ⟨.ofInt 1, .ofInt 2, .ofInt 3, text block⟩
        submission := none
        seen := none
        expectedVersion := 1 } }

def wholeRequest (i : Nat) (request : EditRequest) : List (Pool.Act EditRequest) :=
  [.start request] ++ List.replicate 4 (.perform i)

/-- An act that needs no other permission than that of the server. -/
def editRequestAct? (cap : Nat) (permits? : EditRequestPool -> EditRequestTask -> Bool)
    (pool : EditRequestPool) : Pool.Act EditRequest -> Bool
  | .start request =>
      pool.tasks.all (fun t => t.call.xid != request.xid) &&
        request.call.submission.all (fun submission => submission.maxPerConversation == cap)
  | .perform i =>
      pool.tasks[i]?.all (fun t =>
        permits? pool t &&
          match t.prog with
          | .op o _ => sourceEdits.ready? pool.store o
          | _ => true)
  | _ => false

theorem allows_of_editRequestAct {cap : Nat}
    {permits : EditRequestPool -> EditRequestTask -> Prop}
    {permits? : EditRequestPool -> EditRequestTask -> Bool}
    (hpermits : forall pool t, permits? pool t = true -> permits pool t)
    {pool : EditRequestPool} {act : Pool.Act EditRequest}
    (h : editRequestAct? cap permits? pool act = true) :
    Pool.Allows (editRequestRules cap permits) pool act := by
  cases act with
  | start request =>
      rcases Bool.and_eq_true_iff.mp h with ⟨hxid, hcap⟩
      refine ⟨?_, ?_⟩
      · intro t ht
        exact bne_iff_ne.mp (List.all_eq_true.mp hxid t ht)
      · intro submission hsubmission
        rw [hsubmission] at hcap
        exact eq_of_beq hcap
  | perform i =>
      intro t ht
      have hperform : (pool.tasks[i]?).all _ = true := h
      rw [ht] at hperform
      rcases Bool.and_eq_true_iff.mp hperform with ⟨hallowed, hready⟩
      refine ⟨hpermits pool t hallowed, ?_⟩
      intro o next hprog
      rw [hprog] at hready
      exact sourceEdits.ready_of_check hready
  | fault i => cases h
  | stop i => cases h

/-- Two requests take their snapshots before either has committed. -/
def savedTogether : List (Pool.Act EditRequest) :=
  wholeRequest 0 (cappedSave 1 "a") ++
    [.start (cappedSave 2 "b"), .start (cappedSave 3 "c")] ++
    [.perform 1, .perform 1, .perform 2, .perform 2] ++
    [.perform 1, .perform 2, .perform 1, .perform 2]

/-- An edit that a save has met is deleted before the save looks for it again. -/
def metAndDeleted : List (Pool.Act EditRequest) :=
  wholeRequest 0 (cappedSave 1 "a") ++ [.start (cappedSave 2 "a")] ++
    List.replicate 3 (.perform 1) ++ wholeRequest 2 (discard 3 "a") ++
    List.replicate 3 (.perform 1)

def playedEdits (permits : EditRequestPool -> EditRequestTask -> Prop)
    (acts : List (Pool.Act EditRequest)) : EditRequestPool :=
  acts.foldl (Pool.play (editRequestRules 2 permits)) ⟨.blank, []⟩

/-- The service with a limit of one unfinished job. -/
def oneExportAtATime : ExportService :=
  { exportService with cfg := { ExportSettings.default with maxLivePerUser := 1 } }

/-- Both creations have counted before either inserts its job. -/
def exportedTogether : List (Pool.Act ExportCall) :=
  [.start (.create exportRequest (.ofInt 4))] ++ List.replicate 5 (.perform 0) ++
    [.start (.create { exportRequest with format := .pdf } (.ofInt 5))] ++
    List.replicate 5 (.perform 1) ++ [.perform 0, .perform 1]

def playedTogether : ExportPool :=
  exportedTogether.foldl (Pool.play (exportRules oneExportAtATime (fun _ _ => True)))
    ⟨.oneConversation, []⟩

def withinCaps? (pool : EditRequestPool) (t : EditRequestTask) : Bool :=
  match t.prog with
  | .op (_, .run (.insertEdit key submission)) _ =>
      decide ((editsUnderWay pool.store key.owner key.conversationId).card <
        submission.maxPerConversation)
  | .op (x, .commit) _ =>
      (pool.store.transaction x).writes.all (fun write => write.2.isSome)
  | _ => true

theorem withinCaps_of_check {pool : EditRequestPool} {t : EditRequestTask}
    (h : withinCaps? pool t = true) : WithinCaps pool t := by
  unfold withinCaps? at h
  refine ⟨?_, ?_⟩
  · intro x key submission next hprog _
    rw [hprog] at h
    exact Or.inr (of_decide_eq_true h)
  · intro x next place u hprog hdeleted
    rw [hprog] at h
    have hsome := List.all_eq_true.mp h _ hdeleted
    cases hsome

def countsRequests? (svc : ExportService) (pool : ExportPool) (t : ExportTask) : Bool :=
  match t.prog with
  | .op (.countUnfinished owner key) _ =>
      decide ((unfinishedJobs pool.store owner).length < svc.cfg.maxLivePerUser ->
        (insert key (requestsUnderWay pool owner)).card ≤ svc.cfg.maxLivePerUser)
  | _ => true

theorem countsRequests_of_check {svc : ExportService} {pool : ExportPool} {t : ExportTask}
    (h : countsRequests? svc pool t = true) : CountsRequestsUnderWay svc pool t := by
  intro owner key next hprog
  unfold countsRequests? at h
  rw [hprog] at h
  exact of_decide_eq_true h

def exportAct? (svc : ExportService) (pool : ExportPool) : Pool.Act ExportCall -> Bool
  | .start _ => true
  | .perform i => pool.tasks[i]?.all (countsRequests? svc pool)
  | _ => false

theorem allows_of_exportAct {svc : ExportService} {pool : ExportPool}
    {act : Pool.Act ExportCall} (h : exportAct? svc pool act = true) :
    Pool.Allows (exportRules svc (CountsRequestsUnderWay svc)) pool act := by
  cases act with
  | start call => trivial
  | perform i =>
      intro t ht
      have hperform : (pool.tasks[i]?).all (countsRequests? svc pool) = true := h
      rw [ht] at hperform
      exact countsRequests_of_check hperform
  | fault i => cases h
  | stop i => cases h

/-- Two saves at a time in a conversation with room for both. -/
def savedWithRoom : List (Pool.Act EditRequest) :=
  [.start (cappedSave 1 "a"), .start (cappedSave 2 "b")] ++
    [.perform 0, .perform 0, .perform 1, .perform 1] ++
    [.perform 0, .perform 1, .perform 0, .perform 1]

def exportedOnce : List (Pool.Act ExportCall) :=
  [.start (.create exportRequest (.ofInt 4))] ++ List.replicate 6 (.perform 0)

theorem caps_hold_room :
    editCount (playedEdits WithinCaps savedWithRoom).store.rows (.ofInt 1) (.ofInt 2) = 2 ∧
    (forall owner conversationId,
      editCount (playedEdits WithinCaps savedWithRoom).store.rows owner conversationId ≤ 2) ∧
    (forall request pool', RunsWithRoom 2 request WithinCaps ⟨.blank, []⟩ pool' ->
      (⟨request, .raise .sourceEditLimitReached⟩ : EditRequestTask) ∉ pool'.tasks) ∧
    forall owner, (unfinishedJobs (exportedOnce.foldl
      (Pool.play (exportRules oneExportAtATime (CountsRequestsUnderWay oneExportAtATime)))
      ⟨.oneConversation, []⟩).store owner).length ≤ oneExportAtATime.cfg.maxLivePerUser := by
  have hchecks : Pool.checks (editRequestRules 2 WithinCaps) (editRequestAct? 2 withinCaps?)
      ⟨.blank, []⟩ savedWithRoom = true := by
    decide +kernel
  have hexports : Pool.checks
      (exportRules oneExportAtATime (CountsRequestsUnderWay oneExportAtATime))
      (exportAct? oneExportAtATime) ⟨.oneConversation, []⟩ exportedOnce = true := by
    decide
  refine ⟨by decide +kernel, caps_hold ?_ ?_⟩
  · exact Pool.reaches_schedule (Pool.allowsAll_of_checks
      (fun _ _ h => allows_of_editRequestAct (fun _ _ h => withinCaps_of_check h) h) hchecks)
  · refine Relation.ReflTransGen.head
      (Pool.Step.move [] _ ExportStore.oneConversation ⟨Nat.le_refl _, rfl, rfl⟩) ?_
    exact Pool.reaches_schedule (Pool.allowsAll_of_checks
      (fun _ _ h => allows_of_exportAct h) hexports)

theorem caps_exceeded :
    (¬forall (cap : Nat) (pool : EditRequestPool),
      Pool.Reaches (editRequestRules cap (fun _ _ => True)) ⟨.blank, []⟩ pool ->
      forall owner conversationId, editCount pool.store.rows owner conversationId ≤ cap) ∧
    (¬forall (svc : ExportService) (exports : ExportPool),
      Pool.Reaches (exportRules svc (fun _ _ => True)) ⟨.blank, []⟩ exports ->
      forall owner,
        (unfinishedJobs exports.store owner).length ≤ svc.cfg.maxLivePerUser) ∧
    ¬forall (cap : Nat) (request : EditRequest) (pool : EditRequestPool),
      RunsWithRoom cap request (fun _ _ => True) ⟨.blank, []⟩ pool ->
      (⟨request, .raise .sourceEditLimitReached⟩ : EditRequestTask) ∉ pool.tasks := by
  refine ⟨?_, ?_, ?_⟩
  · intro hclaim
    have hchecks : Pool.checks (editRequestRules 2 (fun _ _ => True))
        (editRequestAct? 2 (fun _ _ => true)) ⟨.blank, []⟩ savedTogether = true := by
      decide +kernel
    have hreach : Pool.Reaches (editRequestRules 2 (fun _ _ => True)) ⟨.blank, []⟩
        (playedEdits (fun _ _ => True) savedTogether) :=
      Pool.reaches_schedule (Pool.allowsAll_of_checks
        (fun _ _ h => allows_of_editRequestAct (fun _ _ _ => trivial) h) hchecks)
    have hcount : editCount (playedEdits (fun _ _ => True) savedTogether).store.rows
        (.ofInt 1) (.ofInt 2) = 3 := by
      decide +kernel
    have hle := hclaim 2 _ hreach (.ofInt 1) (.ofInt 2)
    rw [hcount] at hle
    exact absurd hle (by decide)
  · intro hclaim
    have hreach : Pool.Reaches (exportRules oneExportAtATime (fun _ _ => True)) ⟨.blank, []⟩
        playedTogether := by
      refine Relation.ReflTransGen.head
        (Pool.Step.move [] _ ExportStore.oneConversation ⟨Nat.le_refl _, rfl, rfl⟩) ?_
      refine Pool.reaches_schedule (Pool.allowsAll_of_forall ?_ _)
      intro act _ pool
      cases act with
      | start call => trivial
      | perform i => exact fun _ _ => trivial
      | fault i => exact fun _ _ _ _ => trivial
      | stop i => exact fun _ _ => ⟨trivial, trivial⟩
    have hcount : (unfinishedJobs playedTogether.store exportOwner).length = 2 := by
      decide
    have hle := hclaim oneExportAtATime _ hreach exportOwner
    rw [hcount] at hle
    exact absurd hle (by decide)
  · intro hclaim
    have hchecks : Pool.checks (editRequestRules 2 (fun _ _ => True))
        (fun pool act => editRequestAct? 2 (fun _ _ => true) pool act &&
          decide (editCount pool.store.rows (.ofInt 1) (.ofInt 2) < 2))
        ⟨.blank, []⟩ metAndDeleted = true := by
      decide +kernel
    have hrun : RunsWithRoom 2 (cappedSave 2 "a") (fun _ _ => True) ⟨.blank, []⟩
        (playedEdits (fun _ _ => True) metAndDeleted) := by
      refine Pool.steps_of_checks ?_ hchecks
      intro pool act h
      rcases Bool.and_eq_true_iff.mp h with ⟨hact, hroom⟩
      refine ⟨allows_of_editRequestAct (fun _ _ _ => trivial) hact, ?_⟩
      intro hfull
      exact absurd hfull.right (Nat.not_le_of_lt (of_decide_eq_true hroom))
    refine hclaim 2 _ _ hrun ?_
    have hraised : ((playedEdits (fun _ _ => True) metAndDeleted).tasks[1]?).any (fun t =>
        t.call == cappedSave 2 "a" &&
          match t.prog with
          | .raise e => e == .sourceEditLimitReached
          | _ => false) = true := by
      decide +kernel
    rcases (Option.any_eq_true _ _).mp hraised with ⟨⟨call, prog⟩, hget, ht⟩
    rcases Bool.and_eq_true_iff.mp ht with ⟨hcall, hprog⟩
    have hmem := List.mem_of_getElem? hget
    rw [show call = cappedSave 2 "a" from eq_of_beq hcall] at hmem
    cases prog with
    | ret a => cases hprog
    | op o next => cases hprog
    | raise e =>
        rw [show e = .sourceEditLimitReached from eq_of_beq hprog] at hmem
        exact hmem

end ConversationService
