import ConversationService.Model.ExportService

/-!
# What the statements of the export service do to the jobs

Every operation changes a row of `export_jobs` in one of a few ways, whichever program it
comes from. The update statements that are sent restrict the status of the row that they
change.
-/

namespace ConversationService

open Python ClusteredTable Programs

def JobChange.allowed : JobChange -> List JobStatus
  | .progress _ _ => [.processing]
  | .ready _ _ _ _ _ _ _ => [.processing]
  | .fail _ => [.pending, .processing]
  | .release _ => [.processing]
  | .expire => [.ready]

def ExportOp.Sent (cfg : ExportSettings) : ExportOp -> Prop
  | .setJob _ allowed change => allowed = change.allowed
  | .claimJob _ maxAttempts _ => maxAttempts = cfg.maxAttempts
  | _ => True

/-- How an `UPDATE` changes a row. -/
inductive RowUpdate (cfg : ExportSettings) (now : Nat) (j : ExportJob) : ExportJob -> Prop where
  | claim (lease : Nat) : j.isUnfinished = true -> j.attemptCount < cfg.maxAttempts ->
      RowUpdate cfg now j
        { j with
          status := .processing
          attemptCount := j.attemptCount + 1
          leaseUntil := some (now + lease)
          updatedAt := now }
  | set (change : JobChange) : j.status ∈ change.allowed ->
      RowUpdate cfg now j (change.apply now j)
  | lapse : j.status = .ready -> RowUpdate cfg now j { j with status := .expired }

/-- What an operation does to the row of one job. -/
inductive RowStep (cfg : ExportSettings) (s t : ExportStore) (id : UUID) : Prop where
  | same : t.job id = s.job id -> RowStep cfg s t id
  | updated (j j' : ExportJob) : s.job id = some j -> t.job id = some j' ->
      RowUpdate cfg s.now j j' -> RowStep cfg s t id
  | inserted (job : NewJob) : s.job id = none -> t.job id = some (job.row s.now) ->
      (forall id' j, t.job id' = some j -> j.isLive = true ->
        j.isRequest job.ownerUserId job.requestKey = true -> id' = id) ->
      RowStep cfg s t id
  | pruned (j : ExportJob) : s.job id = some j -> t.job id = none ->
      j.status = .failed ∨ j.status = .expired -> RowStep cfg s t id

theorem mem_unfinished {j : ExportJob} (h : j.isUnfinished = true) :
    j.status ∈ [JobStatus.pending, JobStatus.processing] := by
  simpa [ExportJob.isUnfinished] using h

section Rows

variable {cfg : ExportSettings} {s : ExportStore} {id : UUID}

theorem rowStep_updateJobs {select : UUID -> ExportJob -> Bool}
    {change : ExportJob -> ExportJob}
    (h : forall id j, select id j = true -> RowUpdate cfg s.now j (change j)) :
    RowStep cfg s (s.updateJobs select change) id := by
  have hjob := ExportStore.job_updateJobs s select change id
  cases hold : s.job id with
  | none =>
      apply RowStep.same
      rw [hjob, hold]
      rfl
  | some j =>
      rw [hold, Option.map_some] at hjob
      by_cases hselect : select id j = true
      · rw [if_pos hselect] at hjob
        exact RowStep.updated j (change j) hold hjob (h id j hselect)
      · rw [if_neg hselect] at hjob
        exact RowStep.same (hjob.trans hold.symm)

theorem rowStep_updateJob {id' : UUID} {select : ExportJob -> Bool}
    {change : ExportJob -> ExportJob}
    (h : forall j, select j = true -> RowUpdate cfg s.now j (change j)) :
    RowStep cfg s (s.updateJob id' select change).2 id := by
  apply rowStep_updateJobs
  intro id j hselect
  exact h j (Bool.and_eq_true_iff.mp hselect).right

theorem rowStep_expireLapsed (lapsed : List UUID) :
    RowStep cfg s (s.expireLapsed lapsed) id := by
  apply rowStep_updateJobs
  intro id j hselect
  exact RowUpdate.lapse (eq_of_beq (Bool.and_eq_true_iff.mp hselect).right)

theorem rowStep_insertJob (job : NewJob) (lapsed : List UUID) :
    RowStep cfg s (ExportOp.exec (.insertJob job lapsed) s).2 id := by
  have hlapse : RowStep cfg s (s.expireLapsed lapsed) id := rowStep_expireLapsed lapsed
  unfold ExportOp.exec
  dsimp only
  split
  · exact RowStep.same rfl
  · rename_i hfree
    rw [Bool.or_eq_true, not_or] at hfree
    rcases hfree with ⟨hid, hkey⟩
    have hnone : (s.expireLapsed lapsed).job job.jobId = none := by
      simpa using hid
    have hempty : (s.expireLapsed lapsed).selectJobs (fun _ j =>
        j.isRequest job.ownerUserId job.requestKey && j.isLive) = [] := by
      simpa using hkey
    have hjob : forall id', ((s.expireLapsed lapsed).insertRow job.jobId (job.row s.now)).job
        id' = if id' = job.jobId then some (job.row s.now)
          else (s.expireLapsed lapsed).job id' :=
      fun id' => ExportStore.job_insertRow _ _ _ _
    by_cases hsame : id = job.jobId
    · subst hsame
      have hold : s.job job.jobId = none := by
        rw [ExportStore.job_expireLapsed] at hnone
        exact Option.map_eq_none_iff.mp hnone
      refine RowStep.inserted job hold ?_ ?_
      · rw [hjob, if_pos rfl]
      · intro id' j hj hlive hrequest
        by_cases hid' : id' = job.jobId
        · exact hid'
        · rw [hjob, if_neg hid'] at hj
          have hmem : (id', j) ∈ (s.expireLapsed lapsed).selectJobs (fun _ j =>
              j.isRequest job.ownerUserId job.requestKey && j.isLive) :=
            ExportStore.mem_selectJobs.mpr ⟨hj, Bool.and_eq_true_iff.mpr ⟨hrequest, hlive⟩⟩
          rw [hempty] at hmem
          cases hmem
    · have hother := hjob id
      rw [if_neg hsame] at hother
      cases hlapse with
      | same h => exact RowStep.same (hother.trans h)
      | updated j j' hj hj' hupdate =>
          exact RowStep.updated j j' hj (hother.trans hj') hupdate
      | inserted job' hj hj' _ =>
          rw [ExportStore.job_expireLapsed, hj] at hj'
          cases hj'
      | pruned j hj hj' hstatus =>
          exact RowStep.pruned j hj (hother.trans hj') hstatus

theorem rowStep_pruneJobs (age : Nat) :
    RowStep cfg s (ExportOp.exec (.pruneJobs age) s).2 id := by
  have hjob : (ExportOp.exec (.pruneJobs age) s).2.job id =
      (s.job id).filter (fun j => !((j.status == .failed || j.status == .expired) &&
        j.updatedAt + age < s.now)) :=
    Partition.get_filterRows _ _ _
  cases hold : s.job id with
  | none =>
      apply RowStep.same
      rw [hjob, hold]
      rfl
  | some j =>
      rw [hold] at hjob
      cases hkeep : (j.status == .failed || j.status == .expired) &&
          decide (j.updatedAt + age < s.now) with
      | false =>
          apply RowStep.same
          rw [hjob, hold, Option.filter_some, hkeep]
          rfl
      | true =>
          refine RowStep.pruned j hold ?_ ?_
          · rw [hjob, Option.filter_some, hkeep]
            rfl
          · simpa using (Bool.and_eq_true_iff.mp hkeep).left

theorem rowStep_exec {o : ExportOp} (hsent : o.Sent cfg) :
    RowStep cfg s (o.exec s).2 id := by
  cases o with
  | commitLapsed lapsed => exact rowStep_expireLapsed lapsed
  | insertJob job lapsed => exact rowStep_insertJob job lapsed
  | claimJob jobId maxAttempts lease =>
      apply rowStep_updateJob
      intro j hselect
      rcases Bool.and_eq_true_iff.mp hselect with ⟨hboth, _⟩
      rcases Bool.and_eq_true_iff.mp hboth with ⟨hunfinished, hattempts⟩
      have hbelow : j.attemptCount < cfg.maxAttempts := by
        rw [← show maxAttempts = cfg.maxAttempts from hsent]
        exact of_decide_eq_true hattempts
      exact RowUpdate.claim lease hunfinished hbelow
  | setJob jobId allowed change =>
      apply rowStep_updateJob
      intro j hselect
      rw [show allowed = change.allowed from hsent] at hselect
      exact RowUpdate.set change (List.contains_iff_mem.mp hselect)
  | failExhausted maxAttempts =>
      apply rowStep_updateJobs
      intro id j hselect
      rcases Bool.and_eq_true_iff.mp hselect with ⟨hboth, _⟩
      exact RowUpdate.set (.fail _) (mem_unfinished (Bool.and_eq_true_iff.mp hboth).left)
  | pruneJobs age => exact rowStep_pruneJobs age
  | _ => exact RowStep.same rfl

end Rows

/-!
# What the programs send

Apart from the end of an upload, the programs only send plain operations.
-/

/-- The operation makes a job ready. -/
def ExportOp.Publishes : ExportOp -> Prop
  | .setJob _ _ (.ready _ _ _ _ _ _ _) => True
  | _ => False

structure ExportOp.Plain (cfg : ExportSettings) (o : ExportOp) : Prop where
  sent : o.Sent cfg
  quiet : ¬o.Publishes

def ExportOp.Inserts : ExportOp -> Prop
  | .insertJob _ _ => True
  | _ => False

structure ExportOp.Working (cfg : ExportSettings) (o : ExportOp) : Prop where
  plain : o.Plain cfg
  settled : ¬o.Inserts

section Sent

variable {svc : ExportService}

theorem allOps_exportCall {P : ExportOp -> Prop} {o : ExportOp} (h : P o) :
    Prog.AllOps P (exportCall o) :=
  (Prog.allOps_perform (S := exportStorage) ExportExc.other o).mpr h

theorem working_fromSources {alpha : Type} (p : Py alpha) :
    Prog.AllOps (ExportOp.Working svc.cfg) (fromSources p) :=
  Prog.allOps_mapExc (Prog.allOps_mapOps
    (Prog.allOps_of_forall (fun _ => ⟨⟨trivial, id⟩, id⟩) p))

theorem working_snapshot (ids : List UUID) :
    Prog.AllOps (ExportOp.Working svc.cfg) (ExportCollector.snapshot ids) := by
  induction ids with
  | nil => trivial
  | cons id rest ih =>
      refine Prog.allOps_bind (working_fromSources _) ?_
      intro latest
      exact Prog.allOps_bind ih (fun _ => trivial)

theorem working_loadHierarchy (owner : UUID) :
    Prog.AllOps (ExportOp.Working svc.cfg) (svc.loadHierarchy owner) :=
  working_fromSources _

theorem working_scopeIds (owner conversationId : UUID) (scope : ExportScope) :
    Prog.AllOps (ExportOp.Working svc.cfg) (svc.scopeIds owner conversationId scope) := by
  refine Prog.allOps_bind (working_loadHierarchy owner) ?_
  intro h
  split
  · dsimp only
    split
    · trivial
    · trivial
  · trivial

theorem plain_reread (owner : UUID) (key : RequestKey) (lapsed : List UUID)
    (inserted : Option ExportJob) (jobId : UUID) :
    Prog.AllOps (ExportOp.Plain svc.cfg)
      (ExportService.reread owner key lapsed inserted jobId) := by
  unfold ExportService.reread
  cases inserted with
  | some row => trivial
  | none =>
      refine Prog.allOps_bind (allOps_exportCall ⟨trivial, id⟩) ?_
      intro row
      cases row with
      | some row =>
          exact Prog.allOps_bind (allOps_exportCall ⟨trivial, id⟩) (fun _ => trivial)
      | none => trivial

theorem plain_findOrInsert (request : ExportService.Request) (job : NewJob) :
    Prog.AllOps (ExportOp.Plain svc.cfg) (svc.findOrInsert request job) := by
  refine Prog.allOps_bind (allOps_exportCall ⟨trivial, id⟩) ?_
  intro lapsed
  refine Prog.allOps_bind (allOps_exportCall ⟨trivial, id⟩) ?_
  intro live
  refine Prog.allOps_bind (allOps_exportCall ⟨trivial, id⟩) ?_
  intro existing
  cases existing with
  | some row =>
      exact Prog.allOps_bind (allOps_exportCall ⟨trivial, id⟩) (fun _ => trivial)
  | none =>
      dsimp only
      split
      · trivial
      · refine Prog.allOps_bind (allOps_exportCall ⟨trivial, id⟩) ?_
        intro inserted
        exact plain_reread _ _ _ _ _

theorem plain_create (request : ExportService.Request) (jobId : UUID) :
    Prog.AllOps (ExportOp.Plain svc.cfg) (svc.create request jobId) := by
  refine Prog.allOps_bind (Prog.allOps_mono (working_scopeIds _ _ _) fun _ h => h.plain) ?_
  intro ids
  refine Prog.allOps_bind (Prog.allOps_mono (working_snapshot ids) fun _ h => h.plain) ?_
  intro snapshot
  exact plain_findOrInsert _ _

theorem working_setJob {jobId : UUID} {allowed : List JobStatus} {change : JobChange}
    (hallowed : allowed = change.allowed) (hquiet : ¬(ExportOp.setJob jobId allowed
      change).Publishes) :
    Prog.AllOps (ExportOp.Working svc.cfg) (ExportService.setJob jobId allowed change) :=
  allOps_exportCall ⟨⟨hallowed, hquiet⟩, id⟩

theorem working_fail (jobId : UUID) (code : Text) :
    Prog.AllOps (ExportOp.Working svc.cfg) (ExportService.fail jobId code) :=
  Prog.allOps_bind (working_setJob rfl id) (fun _ => trivial)

theorem working_progress (jobId : UUID) (done total : Nat) :
    Prog.AllOps (ExportOp.Working svc.cfg) (ExportService.progress jobId done total) :=
  Prog.allOps_bind (working_setJob rfl id) (fun _ => trivial)

theorem working_pages (maxMessages : Nat) (id : UUID) (rounds : Nat) (collected : List Message)
    (cursor : Option UUID) :
    Prog.AllOps (ExportOp.Working svc.cfg)
      (ExportCollector.pages maxMessages id rounds collected cursor) := by
  induction rounds generalizing collected cursor with
  | zero => trivial
  | succ rounds ih =>
      unfold ExportCollector.pages
      split
      · refine Prog.allOps_bind (working_fromSources _) ?_
        intro messages
        split
        · trivial
        · exact ih _ _
      · trivial

theorem working_collectAll (owner : UUID) (h : Hierarchy) (rootId : UUID)
    (inScope : List UUID) (snapshot : Snapshot) (jobId : UUID) (ids : List UUID)
    (convs : List ExportConversation) :
    Prog.AllOps (ExportOp.Working svc.cfg)
      (ExportCollector.collectAll svc owner h rootId inScope snapshot
        (ExportService.progress jobId) ids convs) := by
  induction ids generalizing convs with
  | nil => trivial
  | cons id rest ih =>
      refine Prog.allOps_bind (working_fromSources _) ?_
      intro full
      split
      · exact ih _
      · refine Prog.allOps_bind ?_ ?_
        · exact Prog.allOps_bind (working_pages _ _ _ _ _) (fun _ => trivial)
        · intro msgs
          refine Prog.allOps_bind (working_progress _ _ _) ?_
          intro _
          split
          · exact ih _
          · exact ih _

theorem working_collect (owner : UUID) (h : Hierarchy) (selectedId : UUID) (ids : List UUID)
    (snapshot : Snapshot) (jobId : UUID) :
    Prog.AllOps (ExportOp.Working svc.cfg)
      (ExportCollector.collect svc owner h selectedId ids snapshot
        (ExportService.progress jobId)) := by
  unfold ExportCollector.collect
  split
  · exact Prog.allOps_bind (working_collectAll _ _ _ _ _ _ _ _) (fun _ => trivial)
  · trivial

theorem working_render :
    Prog.AllOps (ExportOp.Working svc.cfg) ExportService.render := by
  refine Prog.allOps_bind (allOps_exportCall ⟨⟨trivial, id⟩, id⟩) ?_
  intro rendered
  cases rendered with
  | ok file => trivial
  | error failure =>
      cases failure with
      | pdfUnavailable => trivial
      | other => trivial

theorem working_handle (jobId : UUID) (job : ExportJob) (e : ExportExc) :
    Prog.AllOps (ExportOp.Working svc.cfg) (svc.handle jobId job e) := by
  unfold ExportService.handle
  split
  · exact working_fail _ _
  · exact working_fail _ _
  · exact working_fail _ _
  · split
    · exact working_fail _ _
    · exact Prog.allOps_bind (working_setJob rfl id) (fun _ => trivial)

theorem working_failExhausted :
    Prog.AllOps (ExportOp.Working svc.cfg) svc.failExhausted :=
  allOps_exportCall ⟨⟨trivial, id⟩, id⟩

theorem working_deleteKey (key : Option Text) :
    Prog.AllOps (ExportOp.Working svc.cfg) (ExportService.deleteKey key) := by
  unfold ExportService.deleteKey
  cases key with
  | some key =>
      dsimp only
      split
      · trivial
      · exact allOps_exportCall ⟨⟨trivial, id⟩, id⟩
  | none => trivial

theorem working_expireDue (due : List (UUID × Option Text)) :
    Prog.AllOps (ExportOp.Working svc.cfg) (ExportService.expireDue due) := by
  induction due with
  | nil => trivial
  | cons entry rest ih =>
      refine Prog.allOps_bind (working_deleteKey _) ?_
      intro _
      exact Prog.allOps_bind (working_setJob rfl id) (fun _ => ih)

theorem working_sweepObject (info : ObjectInfo) :
    Prog.AllOps (ExportOp.Working svc.cfg) (ExportService.sweepObject info) := by
  refine Prog.allOps_bind (allOps_exportCall ⟨⟨trivial, id⟩, id⟩) ?_
  intro now
  cases ExportService.jobOf info with
  | none => trivial
  | some jobId =>
      dsimp only
      split
      · trivial
      · refine Prog.allOps_bind (allOps_exportCall ⟨⟨trivial, id⟩, id⟩) ?_
        intro status
        split
        · trivial
        · exact allOps_exportCall ⟨⟨trivial, id⟩, id⟩

theorem working_sweep (objects : List ObjectInfo) :
    Prog.AllOps (ExportOp.Working svc.cfg) (ExportService.sweep objects) := by
  induction objects with
  | nil => trivial
  | cons info rest ih => exact Prog.allOps_bind (working_sweepObject info) (fun _ => ih)

theorem working_cleanup : Prog.AllOps (ExportOp.Working svc.cfg) svc.cleanup := by
  refine Prog.allOps_bind (allOps_exportCall ⟨⟨trivial, id⟩, id⟩) ?_
  intro due
  refine Prog.allOps_bind (working_expireDue due) ?_
  intro _
  refine Prog.allOps_bind (allOps_exportCall ⟨⟨trivial, id⟩, id⟩) ?_
  intro pruned
  refine Prog.allOps_bind (allOps_exportCall ⟨⟨trivial, id⟩, id⟩) ?_
  intro objects
  exact working_sweep objects

/-!
# Programs around the upload

What holds of all plain programs and of an upload, and of programs that follow one
another, holds of every call.
-/

/-- A kind of program that the calls of the service are built from. -/
structure BuiltFrom (svc : ExportService)
    (K : forall {alpha : Type}, ExportProg alpha -> Prop) : Prop where
  plain : forall {alpha : Type} {p : ExportProg alpha},
    Prog.AllOps (ExportOp.Working svc.cfg) p -> K p
  publish : forall jobId file conversations, K (svc.publish jobId file conversations)
  bind : forall {alpha beta : Type} {p : ExportProg alpha} {f : alpha -> ExportProg beta},
    K p -> (forall a, K (f a)) -> K (p >>= f)
  tryCatch : forall {alpha : Type} {p : ExportProg alpha}
    {handler : ExportExc -> ExportProg alpha},
    K p -> (forall e, K (handler e)) -> K (p.tryCatch handler)

variable {K : forall {alpha : Type}, ExportProg alpha -> Prop}

theorem builtFrom_produce (hK : BuiltFrom svc K) (jobId : UUID) (job : ExportJob) :
    K (svc.produce jobId job) := by
  unfold ExportService.produce
  refine hK.bind (hK.plain (working_loadHierarchy _)) ?_
  intro h
  split
  · refine hK.bind (hK.plain (allOps_exportCall ⟨⟨trivial, id⟩, id⟩)) ?_
    intro renderer
    refine hK.bind (hK.plain (working_collect _ _ _ _ _ _)) ?_
    intro bundle
    refine hK.bind (hK.plain working_render) ?_
    intro file
    exact hK.publish _ _ _
  · exact hK.plain trivial

theorem builtFrom_process (hK : BuiltFrom svc K) (jobId : UUID) : K (svc.process jobId) := by
  refine hK.bind (hK.plain (allOps_exportCall ⟨⟨rfl, id⟩, id⟩)) ?_
  intro job
  cases job with
  | some job =>
      exact hK.tryCatch (builtFrom_produce hK jobId job)
        (fun e => hK.plain (working_handle _ _ e))
  | none => exact hK.plain trivial

theorem builtFrom_processAll (hK : BuiltFrom svc K) (ids : List UUID) :
    K (svc.processAll ids) := by
  induction ids with
  | nil => exact hK.plain trivial
  | cons jobId rest ih => exact hK.bind (builtFrom_process hK jobId) (fun _ => ih)

theorem builtFrom_program (hK : BuiltFrom svc K) (call : ExportCall)
    (hcreate : forall request jobId, call = .create request jobId ->
      K (svc.create request jobId)) : K (call.program svc) := by
  have hret : forall a : ExportAnswer, K (.ret a : ExportProg ExportAnswer) :=
    fun a => hK.plain trivial
  cases call with
  | create request jobId =>
      exact hK.bind (hcreate request jobId rfl) (fun _ => hret _)
  | process jobId => exact hK.bind (builtFrom_process hK jobId) (fun _ => hret _)
  | runOnce =>
      refine hK.bind ?_ (fun _ => hret _)
      refine hK.bind (hK.plain (allOps_exportCall ⟨⟨trivial, id⟩, id⟩)) ?_
      intro ids
      exact hK.bind (builtFrom_processAll hK ids) (fun _ => hK.plain working_failExhausted)
  | failExhausted => exact hK.bind (hK.plain working_failExhausted) (fun _ => hret _)
  | cleanup => exact hK.bind (hK.plain working_cleanup) (fun _ => hret _)

theorem sent_publish (jobId : UUID) (file : RenderedFile) (conversations : Nat) :
    Prog.AllOps (ExportOp.Sent svc.cfg) (svc.publish jobId file conversations) := by
  unfold ExportService.publish
  split
  · trivial
  · refine Prog.allOps_bind (allOps_exportCall trivial) ?_
    intro _
    refine Prog.allOps_bind ?_ ?_
    · refine Prog.allOps_bind (allOps_exportCall trivial) ?_
      intro stored
      split
      · trivial
      · trivial
    · intro _
      refine Prog.allOps_bind (allOps_exportCall rfl) ?_
      intro ok
      split
      · trivial
      · exact allOps_exportCall trivial

theorem builtFrom_sent :
    BuiltFrom svc (fun p => Prog.AllOps (ExportOp.Sent svc.cfg) p) where
  plain h := Prog.allOps_mono h (fun _ h => h.plain.sent)
  publish := sent_publish
  bind := Prog.allOps_bind
  tryCatch := Prog.allOps_tryCatch

theorem sent_program (call : ExportCall) :
    Prog.AllOps (ExportOp.Sent svc.cfg) (call.program svc) := by
  refine builtFrom_program builtFrom_sent call ?_
  intro request jobId _
  exact Prog.allOps_mono (plain_create request jobId) (fun _ h => h.sent)

end Sent

end ConversationService
