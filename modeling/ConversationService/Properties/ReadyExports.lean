import ConversationService.Properties.ExportLifeCycle

/-!
# Ready exports and their objects

The object of an export has a name that only depends on its job, and nothing but the
status of the row decides which of several runs of the job has won. A ready export can be
downloaded as long as no object is written or deleted that a ready job refers to or that
another run has just uploaded.
-/

namespace ConversationService

open Python ClusteredTable Programs

/-- Every ready job that is not past its expiry has its file in the store. -/
def ReadyDownloadable (s : ExportStore) : Prop :=
  forall id j, s.job id = some j -> j.status = .ready -> j.isLapsed s.now = false ->
    exists key object, j.objectKey = some key ∧ s.objects.get key = some object ∧
      j.sizeBytes = some object.bytes.length ∧
      j.checksumSha256 = some (sha256Hex object.bytes)

/-- What a run knows of an object that it has uploaded. -/
structure UploadFact where
  key : Text
  size : Nat
  checksum : Text
deriving DecidableEq, Repr

def ExportStore.Stores (s : ExportStore) (fact : UploadFact) : Prop :=
  exists object, s.objects.get fact.key = some object ∧ object.bytes.length = fact.size ∧
    sha256Hex object.bytes = fact.checksum

namespace ExportOp

def Touches : ExportOp -> Text -> Prop
  | .putFile key _ _, key' => key = key'
  | .deleteObject key, key' => key = key'
  | _, _ => False

def Records : ExportOp -> UploadFact -> Prop
  | .setJob _ _ (.ready key _ _ size checksum _ _), fact => fact = ⟨key, size, checksum⟩
  | _, _ => False

/-- The operation belongs to the end of an upload of the object. -/
def Confirms : ExportOp -> UploadFact -> Prop
  | .statObject key, fact => fact.key = key
  | .setJob _ _ (.ready key _ _ _ _ _ _), fact => fact.key = key
  | _, _ => False

def Uploads : (o : ExportOp) -> o.Res -> UploadFact -> Prop
  | .putFile key file _, _, fact => fact = ⟨key, file.bytes.length, sha256Hex file.bytes⟩
  | _, _, _ => False

end ExportOp

/-- The task is about to confirm or to record an upload of the object. -/
def IsConfirming (t : ExportTask) (key : Text) : Prop :=
  exists fact : UploadFact, fact.key = key ∧
    Prog.HeadUses (S := exportStorage) ExportOp.Confirms fact t.prog

/--
The object that the task writes or deletes next is not the one of a ready job before its
expiry, and no run is confirming an upload of it.
-/
def LeavesUploads (pool : ExportPool) (t : ExportTask) : Prop :=
  forall o next key, t.prog = .op o next -> o.Touches key ->
    (forall id j, pool.store.job id = some j -> j.status = .ready ->
      j.isLapsed pool.store.now = false -> j.objectKey ≠ some key) ∧
    forall t', t' ∈ pool.tasks -> ¬IsConfirming t' key

/-!
# One operation
-/

section Statements

variable {cfg : ExportSettings} {s : ExportStore} {o : ExportOp}

theorem now_exec (o : ExportOp) (s : ExportStore) : (o.exec s).2.now = s.now := by
  cases o with
  | insertJob job lapsed =>
      unfold ExportOp.exec
      dsimp only
      split
      · rfl
      · rfl
  | _ => rfl

theorem objects_exec {key : Text} (h : ¬o.Touches key) :
    (o.exec s).2.objects.get key = s.objects.get key := by
  cases o with
  | putFile key' file metadata => exact Partition.get_upsert_ne _ _ (fun heq => h heq.symm)
  | deleteObject key' =>
      show (s.objects.erase key').get key = s.objects.get key
      rw [Partition.get_erase, if_neg (fun heq => h heq.symm)]
  | insertJob job lapsed =>
      unfold ExportOp.exec
      dsimp only
      split
      · rfl
      · rfl
  | _ => rfl

theorem stores_exec {fact : UploadFact} (h : s.Stores fact) (htouch : ¬o.Touches fact.key) :
    (o.exec s).2.Stores fact := by
  rcases h with ⟨object, hobject, hrest⟩
  exact ⟨object, (objects_exec htouch).trans hobject, hrest⟩

theorem stores_upload {r : o.Res} {fact : UploadFact} (h : o.Uploads r fact) :
    (o.exec s).2.Stores fact := by
  cases o with
  | putFile key file metadata =>
      rw [show fact = ⟨key, file.bytes.length, sha256Hex file.bytes⟩ from h]
      exact ⟨_, Partition.get_upsert_self _ _ _, rfl, rfl⟩
  | _ => exact h.elim

theorem not_touches_of_confirms {fact : UploadFact} {key : Text} (h : o.Confirms fact) :
    ¬o.Touches key := by
  intro htouch
  cases o with
  | putFile key file metadata => exact h.elim
  | deleteObject key => exact h.elim
  | _ => exact htouch.elim

theorem ready_updateJobs {select : UUID -> ExportJob -> Bool}
    {change : ExportJob -> ExportJob} {id : UUID} {j' : ExportJob}
    (h : (s.updateJobs select change).job id = some j') :
    s.job id = some j' ∨ exists j, select id j = true ∧ j' = change j := by
  rw [ExportStore.job_updateJobs] at h
  rcases Option.map_eq_some_iff.mp h with ⟨j, hj, heq⟩
  by_cases hselect : select id j = true
  · rw [if_pos hselect] at heq
    exact Or.inr ⟨j, hselect, heq.symm⟩
  · rw [if_neg hselect] at heq
    rw [← heq]
    exact Or.inl hj

theorem ready_exec {id : UUID} {j : ExportJob} (hsent : o.Sent cfg)
    (hj : (o.exec s).2.job id = some j) (hready : j.status = .ready) :
    s.job id = some j ∨ exists fact, o.Records fact ∧ j.objectKey = some fact.key ∧
      j.sizeBytes = some fact.size ∧ j.checksumSha256 = some fact.checksum := by
  have hlapse : forall lapsed, (s.expireLapsed lapsed).job id = some j ->
      s.job id = some j := by
    intro lapsed h
    rcases ready_updateJobs h with hold | ⟨k, _, heq⟩
    · exact hold
    · rw [heq] at hready
      cases hready
  cases o with
  | commitLapsed lapsed => exact Or.inl (hlapse lapsed hj)
  | insertJob job lapsed =>
      unfold ExportOp.exec at hj
      dsimp only at hj
      split at hj
      · exact Or.inl hj
      · rw [ExportStore.job_insertRow] at hj
        split at hj
        · cases hj
          cases hready
        · exact Or.inl (hlapse lapsed hj)
  | claimJob jobId maxAttempts lease =>
      rcases ready_updateJobs hj with hold | ⟨k, _, heq⟩
      · exact Or.inl hold
      · rw [heq] at hready
        cases hready
  | setJob jobId allowed change =>
      rcases ready_updateJobs hj with hold | ⟨k, hselect, heq⟩
      · exact Or.inl hold
      · rw [heq] at hready
        cases change with
        | progress done total =>
            -- a change of the progress is restricted to processing jobs
            have hstatus := (Bool.and_eq_true_iff.mp hselect).right
            rw [show allowed = [.processing] from hsent] at hstatus
            have hprocessing : k.status = .processing :=
              List.mem_singleton.mp (List.contains_iff_mem.mp hstatus)
            cases hprocessing.symm.trans hready
        | ready key filename contentType size checksum conversations retention =>
            rw [heq]
            exact Or.inr ⟨⟨key, size, checksum⟩, rfl, rfl, rfl, rfl⟩
        | fail code => cases hready
        | release delay => cases hready
        | expire => cases hready
  | failExhausted maxAttempts =>
      rcases ready_updateJobs hj with hold | ⟨k, _, heq⟩
      · exact Or.inl hold
      · rw [heq] at hready
        cases hready
  | pruneJobs age =>
      have hfilter : (s.job id).filter (fun j =>
          !((j.status == .failed || j.status == .expired) && j.updatedAt + age < s.now)) =
          some j := (Partition.get_filterRows _ _ _).symm.trans hj
      exact Or.inl (Option.filter_eq_some_iff.mp hfilter).left
  | _ => exact Or.inl hj

end Statements

/-!
# What the programs know
-/

section Programs

variable {svc : ExportService}

/-- The program records no object that it has not just uploaded. -/
abbrev Informed {alpha : Type} (known : UploadFact -> Prop) (p : ExportProg alpha) : Prop :=
  Prog.Informed (S := exportStorage) ExportOp.Records (fun o _ => o.Confirms) ExportOp.Uploads
    known p (fun _ _ => True)

theorem informed_anyway {alpha : Type} {known : UploadFact -> Prop} {p : ExportProg alpha}
    (h : Informed (fun _ => False) p) : Informed known p :=
  Prog.informed_mono h (fun _ hfalse => hfalse.elim) (fun _ _ _ _ _ => trivial)

theorem records_publishes {o : ExportOp} {fact : UploadFact} (h : o.Records fact) :
    o.Publishes := by
  cases o with
  | setJob jobId allowed change =>
      cases change with
      | ready objectKey filename contentType size checksum conversations retention => trivial
      | _ => exact h.elim
  | _ => exact h.elim

theorem informed_publish (jobId : UUID) (file : RenderedFile) (conversations : Nat) :
    Informed (fun _ => False) (svc.publish jobId file conversations) := by
  unfold ExportService.publish
  split
  · trivial
  · refine ⟨fun _ h => h.elim, fun _ => ?_, trivial⟩
    -- what the upload has shown is still known behind `stat`
    refine ⟨fun _ h => h.elim, fun stored => ?_, trivial⟩
    show Informed _ ((if stored.any (fun info => info.size = file.bytes.length) then pure ()
      else Prog.raise .osError : ExportProg Unit) >>= _)
    split
    · refine ⟨?_, fun ok => ?_, trivial⟩
      · intro fact hfact
        subst hfact
        exact Or.inr ⟨Or.inl rfl, rfl⟩
      · cases ok with
        | true => trivial
        | false =>
            apply Prog.informed_of_allOps
            exact allOps_exportCall (fun _ h => h)
    · trivial

theorem informed_plain {alpha : Type} {p : ExportProg alpha}
    (h : Prog.AllOps (ExportOp.Plain svc.cfg) p) : Informed (fun _ => False) p :=
  Prog.informed_of_allOps (Prog.allOps_mono h
    (fun _ hplain _ hrecords => hplain.quiet (records_publishes hrecords)))

theorem builtFrom_informed : BuiltFrom svc (fun p => Informed (fun _ => False) p) where
  plain h := informed_plain (Prog.allOps_mono h (fun _ hworking => hworking.plain))
  publish := informed_publish
  bind hp hf := Prog.informed_bind (Prog.informed_mono hp (fun _ h => h)
    (fun _ _ a _ _ => informed_anyway (hf a)))
  tryCatch hp hhandler := Prog.informed_tryCatch hp (fun _ e => informed_anyway (hhandler e))

end Programs

/-!
# Runs
-/

section Runs

variable {svc : ExportService}

/-- What is known of a task: whatever it relies on next is in the store. -/
structure UploadKnown (svc : ExportService) (s : ExportStore) (t : ExportTask) : Prop where
  sent : Prog.AllOps (ExportOp.Sent svc.cfg) t.prog
  informed : exists known, Informed known t.prog ∧ forall fact, known fact ->
    Prog.HeadUses (S := exportStorage) ExportOp.Confirms fact t.prog -> s.Stores fact

theorem uploadKnown_start (s : ExportStore) (call : ExportCall) :
    UploadKnown svc s ⟨call, call.program svc⟩ :=
  ⟨sent_program call, fun _ => False,
    builtFrom_program builtFrom_informed call
      (fun request jobId _ => informed_plain (plain_create request jobId)),
    fun _ h => h.elim⟩

theorem notLapsed_before {j : ExportJob} {now later : Nat} (h : now ≤ later)
    (hlater : j.isLapsed later = false) : j.isLapsed now = false := by
  rw [Bool.eq_false_iff] at hlater ⊢
  intro hnow
  apply hlater
  rcases Bool.and_eq_true_iff.mp hnow with ⟨hready, hexpiry⟩
  rcases (Option.any_eq_true _ _).mp hexpiry with ⟨expiry, heq, hbefore⟩
  refine Bool.and_eq_true_iff.mpr ⟨hready, (Option.any_eq_true _ _).mpr ⟨expiry, heq, ?_⟩⟩
  have hlt : expiry < now := of_decide_eq_true hbefore
  exact decide_eq_true (by omega)

theorem downloadable_exec {pool : ExportPool} {call : ExportCall} {o : ExportOp}
    {next : Option o.Res -> ExportProg ExportAnswer}
    (hready : ReadyDownloadable pool.store)
    (hknown : UploadKnown svc pool.store ⟨call, .op o next⟩)
    (hpermits : LeavesUploads pool ⟨call, .op o next⟩) :
    ReadyDownloadable (o.exec pool.store).2 := by
  intro id j hj hstatus hlapsed
  rw [now_exec] at hlapsed
  rcases ready_exec hknown.sent.left hj hstatus with hold | ⟨fact, hrecords, hkey, hsize, hsum⟩
  · rcases hready id j hold hstatus hlapsed with ⟨key, object, hkey, hobject, hrest⟩
    refine ⟨key, object, hkey, ?_, hrest⟩
    have htouch : ¬o.Touches key := by
      intro htouch
      exact (hpermits o next key rfl htouch).left id j hold hstatus hlapsed hkey
    rw [objects_exec htouch]
    exact hobject
  · rcases hknown.informed with ⟨known, hinformed, hstores⟩
    have hconfirms : o.Confirms fact := by
      cases o with
      | setJob jobId allowed change =>
          cases change with
          | ready objectKey filename contentType size checksum conversations retention =>
              rw [show fact = ⟨objectKey, size, checksum⟩ from hrecords]
              rfl
          | _ => exact hrecords.elim
      | _ => exact hrecords.elim
    have hfact : pool.store.Stores fact :=
      hstores fact (hinformed.left fact hrecords) hconfirms
    rcases stores_exec hfact (not_touches_of_confirms hconfirms) with
      ⟨object, hobject, hobjectSize, hobjectSum⟩
    exact ⟨fact.key, object, hkey, hobject, by rw [hsize, hobjectSize],
      by rw [hsum, hobjectSum]⟩

theorem uploadKnown_next {s : ExportStore} {call : ExportCall} {o : ExportOp}
    {next : Option o.Res -> ExportProg ExportAnswer}
    (hknown : UploadKnown svc s ⟨call, .op o next⟩) :
    UploadKnown svc (o.exec s).2 ⟨call, next (some (o.exec s).1)⟩ := by
  rcases hknown.informed with ⟨known, hinformed, hstores⟩
  refine ⟨hknown.sent.right _, _, hinformed.right.left _, ?_⟩
  intro fact hfact _
  rcases hfact with hshown | ⟨hbefore, huses⟩
  · exact stores_upload hshown
  · exact stores_exec (hstores fact hbefore huses) (not_touches_of_confirms huses)

theorem localProof_uploads : Pool.LocalProof (exportRules svc LeavesUploads)
    (fun pool => ReadyDownloadable pool.store) (UploadKnown svc) (fun _ _ => True) where
  symm := fun _ _ _ => trivial
  own := by
    intro before after call o next s h hpermits
    have hknown := h.each ⟨call, .op o next⟩ (by simp)
    exact ⟨downloadable_exec h.shared hknown hpermits, uploadKnown_next hknown⟩
  ownFault := by
    intro before after call o next s h _
    have hknown := h.each ⟨call, .op o next⟩ (by simp)
    rcases hknown.informed with ⟨known, hinformed, hstores⟩
    exact ⟨h.shared, hknown.sent.right none, _, hinformed.right.right,
      fun fact hfact _ => hstores fact hfact.left hfact.right⟩
  stable := by
    intro pool call o next q h _ hpermits hq _
    rcases h.each q hq with ⟨hsent, known, hinformed, hstores⟩
    refine ⟨hsent, known, hinformed, ?_⟩
    intro fact hfact huses
    refine stores_exec (hstores fact hfact huses) ?_
    intro htouch
    exact (hpermits o next fact.key rfl htouch).right q hq ⟨fact, rfl, huses⟩
  apartNext := fun _ _ _ _ _ _ _ _ _ _ => trivial
  apartFault := fun _ _ _ _ _ _ _ _ _ _ => trivial
  stopped := fun _ _ _ _ _ _ h _ _ => h.shared
  started := fun pool call h _ =>
    ⟨h.shared, uploadKnown_start pool.store call, fun _ _ => trivial⟩
  moved := by
    intro tasks s t h hmove
    have hjob : forall id, t.job id = s.job id := by
      intro id
      unfold ExportStore.job
      rw [hmove.jobs]
    refine ⟨?_, ?_⟩
    · intro id j hj hstatus hlapsed
      rw [hmove.objects]
      exact h.shared id j (hjob id ▸ hj) hstatus (notLapsed_before hmove.now hlapsed)
    · intro q hq
      rcases h.each q hq with ⟨hsent, known, hinformed, hstores⟩
      refine ⟨hsent, known, hinformed, ?_⟩
      intro fact hfact huses
      unfold ExportStore.Stores
      rw [hmove.objects]
      exact hstores fact hfact huses

/--
As long as no step writes or deletes an object that a ready job refers to or that a run is
confirming, every ready job before its expiry has its file in the store.
-/
theorem ready_exports_downloadable {pool : ExportPool}
    (hreach : Pool.Reaches (exportRules svc LeavesUploads) ⟨.blank, []⟩ pool) :
    ReadyDownloadable pool.store := by
  have hblank : ReadyDownloadable ExportStore.blank := by
    intro id j h
    cases h
  exact (Pool.holds_reaches localProof_uploads hreach
    ⟨hblank, fun _ h => (by cases h), List.Pairwise.nil⟩).shared

end Runs

/-!
# One run of a job, and two
-/

def touchedKey? (prog : ExportProg ExportAnswer) : Option Text :=
  match prog with
  | .op (.putFile key _ _) _ => some key
  | .op (.deleteObject key) _ => some key
  | _ => none

def confirmedKey? (prog : ExportProg ExportAnswer) : Option Text :=
  match prog with
  | .op (.statObject key) _ => some key
  | .op (.setJob _ _ (.ready key _ _ _ _ _ _)) _ => some key
  | _ => none

def leavesUploads? (pool : ExportPool) (t : ExportTask) : Bool :=
  (touchedKey? t.prog).all (fun key =>
    pool.store.jobs.rows.all (fun e => decide (e.2.status ≠ .ready) ||
      e.2.isLapsed pool.store.now || decide (e.2.objectKey ≠ some key)) &&
      pool.tasks.all (fun t' => decide (confirmedKey? t'.prog ≠ some key)))

theorem touchedKey_of_touches {o : ExportOp} {next : Option o.Res -> ExportProg ExportAnswer}
    {key : Text} (h : o.Touches key) : touchedKey? (.op o next) = some key := by
  cases o with
  | putFile key' file metadata => exact congrArg some h
  | deleteObject key' => exact congrArg some h
  | _ => exact h.elim

theorem confirmedKey_of_confirms {prog : ExportProg ExportAnswer} {fact : UploadFact}
    (h : Prog.HeadUses (S := exportStorage) ExportOp.Confirms fact prog) :
    confirmedKey? prog = some fact.key := by
  cases prog with
  | ret a => exact h.elim
  | raise e => exact h.elim
  | op o next =>
      cases o with
      | statObject key => exact congrArg some (Eq.symm h)
      | setJob jobId allowed change =>
          cases change with
          | ready objectKey filename contentType size checksum conversations retention =>
              exact congrArg some (Eq.symm h)
          | _ => exact h.elim
      | _ => exact h.elim

theorem leavesUploads_of_check {pool : ExportPool} {t : ExportTask}
    (h : leavesUploads? pool t = true) : LeavesUploads pool t := by
  intro o next key hprog htouch
  unfold leavesUploads? at h
  rw [hprog, touchedKey_of_touches htouch] at h
  rcases Bool.and_eq_true_iff.mp h with ⟨hjobs, htasks⟩
  constructor
  · intro id j hj hready hlapsed hkey
    have hrow := List.all_eq_true.mp hjobs (id, j) ((Partition.get_eq_some_iff _ _ _).mp hj)
    simp [hready, hlapsed, hkey] at hrow
  · intro t' ht' hconfirming
    rcases hconfirming with ⟨fact, hfact, huses⟩
    have hnot := of_decide_eq_true (List.all_eq_true.mp htasks t' ht')
    rw [confirmedKey_of_confirms huses, hfact] at hnot
    exact hnot rfl

def exportActs (pool : ExportPool) : Pool.Act ExportCall -> Bool
  | .start _ => true
  | .perform i => (pool.tasks[i]?).all (leavesUploads? pool)
  | _ => false

theorem allows_of_exportActs {svc : ExportService} {pool : ExportPool}
    {act : Pool.Act ExportCall} (h : exportActs pool act = true) :
    Pool.Allows (exportRules svc LeavesUploads) pool act := by
  cases act with
  | start call => trivial
  | perform i =>
      intro t ht
      change (pool.tasks[i]?).all (leavesUploads? pool) = true at h
      rw [ht] at h
      exact leavesUploads_of_check h
  | fault i => cases h
  | stop i => cases h

theorem ready_exports_downloadable_once :
    ReadyDownloadable
      (exported.foldl (Pool.play (exportRules exportService LeavesUploads))
        ⟨.oneConversation, []⟩).store := by
  have hchecks : Pool.checks (exportRules exportService LeavesUploads) exportActs
      ⟨.oneConversation, []⟩ exported = true := by
    decide +kernel
  exact ready_exports_downloadable
    (Relation.ReflTransGen.trans (reaches_oneConversation _)
      (Pool.reaches_schedule
        (Pool.allowsAll_of_checks (fun _ _ => allows_of_exportActs) hchecks)))

/-- The first run of the job has uploaded its file and not yet confirmed it. -/
def uploaded : List (Pool.Act ExportCall) :=
  [.start (.create exportRequest (.ofInt 4))] ++ List.replicate 6 (.perform 0) ++
    [.start (.process (.ofInt 4))] ++ List.replicate 8 (.perform 1)

/-- The lease of the first run has passed. -/
def outlived : ExportPool :=
  { playedExports uploaded with
    store := { (playedExports uploaded).store with now := 301 * second } }

/--
A second run claims the job and renders its file, the first run makes the job ready, and
the second one uploads its file and deletes it again.
-/
def overtaken : List (Pool.Act ExportCall) :=
  [.start (.process (.ofInt 4))] ++ List.replicate 7 (.perform 2) ++
    List.replicate 2 (.perform 1) ++ List.replicate 4 (.perform 2)

/-- A run that has lost its job deletes the file of the run that has won it. -/
theorem ready_export_deleted :
    ¬forall (svc : ExportService) (pool : ExportPool),
      Pool.Reaches (exportRules svc (fun _ _ => True)) ⟨.blank, []⟩ pool ->
      ReadyDownloadable pool.store := by
  intro hall
  let pool := overtaken.foldl
    (Pool.play (exportRules exportService (fun _ _ => True))) outlived
  have hmove : Pool.Step (exportRules exportService (fun _ _ => True))
      (playedExports uploaded) outlived := by
    have hnow : (playedExports uploaded).store.now ≤ 301 * second := by
      decide
    exact Pool.Step.move (playedExports uploaded).tasks _ _ ⟨hnow, rfl, rfl⟩
  have hreach : Pool.Reaches (exportRules exportService (fun _ _ => True)) ⟨.blank, []⟩ pool :=
    Relation.ReflTransGen.trans
      (Relation.ReflTransGen.tail (reaches_playedExports uploaded) hmove)
      (Pool.reaches_schedule (allowsAll_exports _ overtaken))
  have hjob : (pool.store.job (.ofInt 4)).any (fun j => j.status == .ready &&
      !j.isLapsed pool.store.now) = true := by
    decide +kernel
  have hempty : pool.store.objects.rows.isEmpty = true := by
    decide +kernel
  rcases (Option.any_eq_true _ _).mp hjob with ⟨j, hj, hboth⟩
  rcases Bool.and_eq_true_iff.mp hboth with ⟨hready, hlapsed⟩
  rcases hall exportService pool hreach (.ofInt 4) j hj (eq_of_beq hready)
    (by simpa using hlapsed) with ⟨key, object, _, hobject, _⟩
  have hmem := (Partition.get_eq_some_iff _ _ _).mp hobject
  rw [List.isEmpty_iff.mp hempty] at hmem
  cases hmem

end ConversationService
