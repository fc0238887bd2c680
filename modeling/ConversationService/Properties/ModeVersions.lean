import ConversationService.Library.Interference
import ConversationService.Model.CustomModeRequests
import ConversationService.Properties.ModeInvariants

/-!
# Versions of custom modes

A version of a mode names one definition, in every interleaving of requests: the snapshot
that travels with a message does not change under its version, and an update that carries a
version replaces the mode that its sender has read. A conflict comes with a later version.
-/

namespace ConversationService

open Python ClusteredTable Programs ReadCommitted ModeOp

/-!
# What becomes of a version
-/

/-- A row of a mode, and one that the mode has at that time or later. -/
structure Continues (m m' : CustomMode) : Prop where
  owner : m'.ownerUserId = m.ownerUserId
  version : m.version ≤ m'.version
  same : m'.version = m.version -> m' = m
  archived : m.isActive = false -> m' = m

theorem Continues.refl (m : CustomMode) : Continues m m :=
  ⟨rfl, Nat.le_refl _, fun _ => rfl, fun _ => rfl⟩

theorem Continues.trans {m m' m'' : CustomMode} (h : Continues m m') (h' : Continues m' m'') :
    Continues m m'' where
  owner := h'.owner.trans h.owner
  version := h.version.trans h'.version
  same := by
    intro heq
    have hle := h.version
    have hle' := h'.version
    have hfirst : m'.version = m.version := Nat.le_antisymm (heq ▸ hle') hle
    exact (h'.same (heq.trans hfirst.symm)).trans (h.same hfirst)
  archived := by
    intro harchived
    have hsame := h.archived harchived
    rw [hsame] at h'
    exact h'.archived harchived

theorem Succeeds.continues {m m' : CustomMode} (h : Succeeds m m') : Continues m m' where
  owner := h.owner
  version := h.version ▸ Nat.le_succ _
  same := fun heq => absurd (h.version.symm.trans heq) (Nat.succ_ne_self _)
  archived := by
    intro harchived
    rw [h.active] at harchived
    cases harchived

/-- Every mode is still there, at the same version or a later one. -/
def Advances (rows rows' : ModeRows) : Prop :=
  forall modeId m, rows.get modeId = some m ->
    exists m', rows'.get modeId = some m' ∧ Continues m m'

theorem Advances.refl (rows : ModeRows) : Advances rows rows :=
  fun _ m hm => ⟨m, hm, Continues.refl m⟩

theorem Advances.trans {rows rows' rows'' : ModeRows} (h : Advances rows rows')
    (h' : Advances rows' rows'') : Advances rows rows'' := by
  intro modeId m hm
  rcases h modeId m hm with ⟨m', hm', hfollows⟩
  rcases h' modeId m' hm' with ⟨m'', hm'', hfollows'⟩
  exact ⟨m'', hm'', hfollows.trans hfollows'⟩

section Steps

variable {svc : ModeService} {db db' : ModeDatabase} {pool pool' : ModePool}

theorem advances_commit (hsound : ModesSound svc db) {x : Nat}
    {t : Transaction UUID CustomMode Int} (ht : db.running.get x = some t) :
    Advances db.rows (db.commit x).rows := by
  intro modeId m hm
  have hcases : (modeId, (db.commit x).rows.get modeId) ∈ (db.transaction x).writes ∨
      (db.commit x).rows.get modeId = db.rows.get modeId :=
    applyWrites_cases _ _ _
  rw [Database.transaction_of_get ht] at hcases
  rcases hcases with hwrite | hold
  · rcases hsound.pending x t ht modeId _ hwrite with ⟨new, hnew, hsucceeds, _⟩
    exact ⟨new, hnew, (hsucceeds m hm).continues⟩
  · exact ⟨m, hold.trans hm, Continues.refl m⟩

theorem advances_exec (hsound : ModesSound svc db) {o : (sessions modeTable).Op}
    (hready : (customModes svc).Ready db o) :
    Advances db.rows ((customModes svc).exec o db).2.rows := by
  have hcases : ((customModes svc).exec o db).2.rows = db.rows ∨
      exists x, o = (x, .commit) ∧
        ((customModes svc).exec o db).2.rows = (db.transaction x).current db.rows :=
    Table.rows_exec (D := customModes svc) o
  rcases hcases with hrows | ⟨x, rfl, _⟩
  · rw [hrows]
    exact Advances.refl _
  · rcases Table.exists_of_isSome hready with ⟨t, ht⟩
    exact advances_commit hsound ht

theorem rows_moves (hmove : db.Moves db') : db'.rows = db.rows := by
  rcases hmove with ⟨x, rfl⟩ | ⟨hrows, _, _⟩
  · rfl
  · exact hrows

theorem advances_step (hreach : Pool.Reaches (modeRules svc) ⟨.blank, []⟩ pool)
    (hstep : Pool.Step (modeRules svc) pool pool') :
    Advances pool.store.rows pool'.store.rows := by
  have hsound := (holds_modes hreach).shared
  rcases Pool.step_store hstep with hstore | hmove | ⟨request, o, next, _, hpermits, hstore, _⟩
  · rw [hstore]
    exact Advances.refl _
  · rw [rows_moves hmove]
    exact Advances.refl _
  · rw [hstore]
    exact advances_exec hsound (hpermits o next rfl)

theorem advances_reaches (hreach : Pool.Reaches (modeRules svc) ⟨.blank, []⟩ pool)
    (hrun : Pool.Reaches (modeRules svc) pool pool') :
    Advances pool.store.rows pool'.store.rows := by
  induction hrun with
  | refl => exact Advances.refl _
  | tail hrun hstep ih => exact ih.trans (advances_step (hreach.trans hrun) hstep)

end Steps

/-!
# Snapshots
-/

/-- The row that the repository gives to a reader of active modes. -/
def selectedIn (owner modeId : UUID) (rows : ModeRows) : Option CustomMode :=
  (rows.get modeId).filter (fun mode => mode.ownerUserId == owner && (false || mode.isActive))

theorem selectedIn_cases {rows : ModeRows} {owner modeId : UUID} {m : CustomMode}
    (h : selectedIn owner modeId rows = some m) :
    rows.get modeId = some m ∧ m.ownerUserId = owner ∧ m.isActive = true := by
  rcases Option.filter_eq_some_iff.mp h with ⟨hrow, hselected⟩
  rcases Bool.and_eq_true_iff.mp hselected with ⟨howner, hactive⟩
  exact ⟨hrow, beq_iff_eq.mp howner, hactive⟩

/-- Two updates of the first version of a mode, one after the other. -/
def updatesTwice : List (Pool.Act ModeRequest) :=
  [.start ⟨3, .update (.ofInt 1) (.ofInt 2) ⟨none, none, some (text "y"), none⟩ (some 1)⟩] ++
    List.replicate 4 (.perform 2) ++
    [.start ⟨4, .update (.ofInt 1) (.ofInt 2) ⟨none, none, some (text "z"), none⟩ (some 1)⟩] ++
    List.replicate 6 (.perform 3)

theorem reaches_createsTogether :
    Pool.Reaches (modeRules oneModeEach) ⟨.blank, []⟩ (playedModes createsTogether) := by
  have hchecks : Pool.checks (modeRules oneModeEach) (modeAct? oneModeEach) ⟨.blank, []⟩
      createsTogether = true := by
    decide +kernel
  exact Pool.reaches_schedule (Pool.allowsAll_of_checks (fun _ _ h => allows_of_modeAct h) hchecks)

theorem reaches_updatesTwice :
    Pool.Reaches (modeRules oneModeEach) (playedModes createsTogether)
      (playedModes (createsTogether ++ updatesTwice)) := by
  have hchecks : Pool.checks (modeRules oneModeEach) (modeAct? oneModeEach)
      (playedModes createsTogether) updatesTwice = true := by
    decide +kernel
  unfold playedModes
  rw [List.foldl_append]
  exact Pool.reaches_schedule (Pool.allowsAll_of_checks (fun _ _ h => allows_of_modeAct h) hchecks)

theorem createdMode : exists m,
    (playedModes createsTogether).store.rows.get (.ofInt 2) = some m ∧ m.version = 1 := by
  have hmode : ((playedModes createsTogether).store.rows.get (.ofInt 2)).any
      (fun m => m.version == 1) = true := by
    decide +kernel
  rcases (Option.any_eq_true _ _).mp hmode with ⟨m, hm, hversion⟩
  exact ⟨m, hm, beq_iff_eq.mp hversion⟩

section Conflicts

variable {svc : ModeService} {owner modeId : UUID} {changes : ModeChanges} {version : Nat}

def afterMiss (modeId : UUID) : Option (Option CustomMode) -> ModeProg (Option CustomMode)
  | none => .raise .database
  | some none => .raise (.customModeNotFound modeId.toText)
  | some (some mode) => .raise (.customModeConflict mode.version)

theorem afterUpdate_miss (owner modeId : UUID) (changes : ModeChanges) :
    CustomModeRepository.afterUpdate owner modeId changes (some (some none)) =
      .op (.selectMode owner modeId false) (afterMiss modeId) := by
  unfold CustomModeRepository.afterUpdate
  show Prog.op _ _ = Prog.op _ _
  congr 1
  funext answer
  rcases answer with _ | _ | mode
  · rfl
  · rfl
  · rfl

/-- The mode of the owner, if it is active, has gone past the version. -/
def Passed (owner modeId : UUID) (version : Nat) (rows : ModeRows) : Prop :=
  forall m, rows.get modeId = some m -> isActiveOf owner m = true -> version < m.version

/-- The mode has had the version. -/
def Reached (modeId : UUID) (version : Nat) (rows : ModeRows) : Prop :=
  exists m, rows.get modeId = some m ∧ version ≤ m.version

theorem Reached.advances {rows rows' : ModeRows} (h : Reached modeId version rows)
    (hadvances : Advances rows rows') : Reached modeId version rows' := by
  rcases h with ⟨m, hm, hle⟩
  rcases hadvances modeId m hm with ⟨m', hm', hfollows⟩
  exact ⟨m', hm', hle.trans hfollows.version⟩

theorem Continues.active {m m' : CustomMode} (h : Continues m m')
    (hactive : isActiveOf owner m' = true) : isActiveOf owner m = true := by
  rcases isActiveOf_iff.mp hactive with ⟨howner, hactive'⟩
  refine isActiveOf_iff.mpr ⟨h.owner.symm.trans howner, ?_⟩
  cases harchived : m.isActive with
  | true => rfl
  | false =>
      rw [h.archived harchived, harchived] at hactive'
      cases hactive'

theorem Passed.advances {rows rows' : ModeRows} (h : Passed owner modeId version rows)
    (hreached : Reached modeId version rows) (hadvances : Advances rows rows') :
    Passed owner modeId version rows' := by
  intro m' hm' hactive
  rcases hreached with ⟨m, hm, _⟩
  rcases hadvances modeId m hm with ⟨m'', hm'', hfollows⟩
  rw [hm'] at hm''
  cases hm''
  exact (h m hm (hfollows.active hactive)).trans_le hfollows.version

theorem updated_ne_leave (now : Nat) (m : CustomMode) : updated svc now changes m ≠ .leave := by
  unfold updated
  split
  · simp
  · simp

/--
An update that carries a version which the mode has had finds no row only if the mode is
past it, and then writes nothing.
-/
theorem passed_of_miss {db : ModeDatabase} {t : Transaction UUID CustomMode Int}
    (hwrites : t.writes = []) (hsnapshot : Reached modeId version t.snapshot)
    (hadvances : Advances t.snapshot db.rows)
    (hmiss : answer (.updateMode owner modeId changes (some version)) t.seen
      ((customModes svc).outcome db.now db.rows t
        (.updateMode owner modeId changes (some version))) = some none) :
    Passed owner modeId version db.rows ∧
      ((customModes svc).after db.now db.rows t
        (.updateMode owner modeId changes (some version))).writes = [] := by
  have hselected : ¬Passed owner modeId version db.rows ->
      target (.updateMode owner modeId changes (some version)) t.seen = some modeId ∧
      attempt svc db.now (.updateMode owner modeId changes (some version))
        ((t.current db.rows).get modeId) ≠ .leave := by
    intro hnot
    unfold Passed at hnot
    push Not at hnot
    rcases hnot with ⟨m, hm, hactive, hlast⟩
    rcases hsnapshot with ⟨old, hold, hle⟩
    rcases hadvances modeId old hold with ⟨m', hm', hfollows⟩
    rw [hm] at hm'
    cases hm'
    have hversion : m.version = version := Nat.le_antisymm hlast (hle.trans hfollows.version)
    have hsame : m = old :=
      hfollows.same (Nat.le_antisymm (hversion.trans_le hle) hfollows.version)
    subst hsame
    have hselects : selects owner (some version) m = true := by
      unfold selects
      rw [hactive, Bool.true_and]
      simpa using hversion
    constructor
    · show (if (t.seen.get modeId).any (selects owner (some version)) = true then some modeId
        else none) = _
      rw [seen_of_unwritten hwrites, hold]
      exact if_pos hselects
    · rw [current_of_unwritten hwrites, hm]
      show (if selects owner (some version) m = true then updated svc db.now changes m
        else .leave) ≠ _
      rw [if_pos hselects]
      exact updated_ne_leave db.now m
  have houtcome := Table.outcomes (D := customModes svc) db.now db.rows t
    (.updateMode owner modeId changes (some version))
  unfold Table.after
  generalize (customModes svc).outcome db.now db.rows t
    (.updateMode owner modeId changes (some version)) = outcome at hmiss houtcome
  cases houtcome with
  | missed htarget =>
      refine ⟨?_, hwrites⟩
      by_contra hnot
      exact absurd ((hselected hnot).left.symm.trans htarget) (by simp)
  | left k htarget hattempt =>
      refine ⟨?_, hwrites⟩
      by_contra hnot
      rcases hselected hnot with ⟨htarget', hattempt'⟩
      cases htarget'.symm.trans htarget
      exact hattempt' hattempt
  | violated k htarget hviolated => cases hmiss
  | put k row htarget hattempt hclash => cases hmiss
  | removed k htarget hattempt => exact absurd hattempt (not_removes _ _ _)

/-!
# An update beside other requests
-/

/-- What other requests do to the state, as transaction `x` sees it. -/
structure Beside (x : Nat) (db db' : ModeDatabase) : Prop where
  running : forall t, db'.running.get x = some t -> db.running.get x = some t
  advances : Advances db.rows db'.rows

theorem beside_of_moves {x : Nat} {db db' : ModeDatabase}
    (h : Relation.ReflTransGen (Beside x) db db') : Beside x db db' := by
  induction h with
  | refl => exact ⟨fun _ ht => ht, Advances.refl _⟩
  | tail _ hstep ih =>
      exact ⟨fun t ht => ih.running t (hstep.running t ht), ih.advances.trans hstep.advances⟩

/-- A request with transaction `x`, beside others. -/
def besideOthers (svc : ModeService) (x : Nat) :
    Surroundings (sessions modeTable) ModeDatabase where
  machine := (customModes svc).machine
  mayFail := fun _ => True
  allows := (customModes svc).Ready
  moves := Beside x

/-- A conflict is about a version after the one that was sent, which the mode has had. -/
def LaterConflict (modeId : UUID) (version : Nat) (e : ModeExc) (db : ModeDatabase) : Prop :=
  forall current, e = .customModeConflict current ->
    version < current ∧ Reached modeId current db.rows

theorem LaterConflict.beside {x : Nat} {db db' : ModeDatabase} {e : ModeExc}
    (h : LaterConflict modeId version e db) (hbeside : Beside x db db') :
    LaterConflict modeId version e db' := by
  intro current he
  rcases h current he with ⟨hlt, hreached⟩
  exact ⟨hlt, hreached.advances hbeside.advances⟩

theorem laterConflict_database (db : ModeDatabase) :
    LaterConflict modeId version .database db := by
  intro current he
  cases he

/-- Beside other requests, the program is answered with no conflict but a later one. -/
def Tells (svc : ModeService) (modeId : UUID) (version x : Nat)
    (prog : Prog (sessions modeTable) ModeExc (Option CustomMode)) (db : ModeDatabase) : Prop :=
  Prog.wpAmid (besideOthers svc x) prog (fun _ _ => True) (LaterConflict modeId version) db

open CustomModeRepository

section Tells

variable {x : Nat} {db : ModeDatabase}

theorem tells_raise {e : ModeExc} (h : LaterConflict modeId version e db) :
    Tells svc modeId version x (statements .database x (.raise e)) db := by
  unfold Tells
  rw [statements, Prog.wpAmid]
  intro d hmoves
  have hlater := h.beside (beside_of_moves hmoves)
  exact ⟨fun _ => hlater, fun _ => hlater⟩

theorem tells_ret (mode : Option CustomMode) :
    Tells svc modeId version x (statements .database x (.ret mode)) db := by
  unfold Tells
  rw [statements, Prog.wpAmid]
  intro d _
  refine ⟨fun _ => trivial, fun _ => ?_⟩
  exact fun d' _ => ⟨fun _ => laterConflict_database _, fun _ => laterConflict_database _⟩

theorem tells_op {P : ModeRows -> Prop}
    (hP : forall rows rows', P rows -> Advances rows rows' -> P rows') (hrows : P db.rows)
    (hopen : IfOpen db x (fun t => t.writes = [])) {s : ModeOp}
    {next : Option s.Res -> ModeProg (Option CustomMode)}
    (hfails : next none = .raise .database)
    (hruns : forall (d : ModeDatabase) t, t.writes = [] -> P t.snapshot ->
      Advances t.snapshot d.rows ->
      Tells svc modeId version x (statements .database x
        (next (some (s.answer t.snapshot ((customModes svc).outcome d.now d.rows t s)))))
        (d.setTransaction x ((customModes svc).after d.now d.rows t s))) :
    Tells svc modeId version x (statements .database x (.op s next)) db := by
  have hfailed : forall d,
      Tells svc modeId version x (statements .database x (next none)) d := by
    intro d
    rw [hfails]
    exact tells_raise (laterConflict_database d)
  unfold Tells
  rw [statements, Prog.wpAmid]
  intro d hmoves
  have hbeside := beside_of_moves hmoves
  refine ⟨?_, fun _ => hfailed d⟩
  intro hready
  rcases Table.exists_of_isSome hready with ⟨t, ht⟩
  have hwrites : t.writes = [] := hopen t (hbeside.running t ht)
  -- the snapshot is taken here, and the statement sees it whatever others do
  intro d' hmoves'
  have hbeside' := beside_of_moves hmoves'
  refine ⟨?_, fun _ => hfailed d'⟩
  intro hready'
  rcases Table.exists_of_isSome hready'.left with ⟨t', ht'⟩
  have htaken : (d.setTransaction x { d.transaction x with snapshot := d.rows }).running.get x =
      some t' := hbeside'.running t' ht'
  rw [Database.get_setTransaction, if_pos rfl, Database.transaction_of_get ht] at htaken
  have hwrites' : t'.writes = [] := by
    cases htaken
    exact hwrites
  have hsnapshot : t'.snapshot = d.rows := by
    cases htaken
    rfl
  show Tells svc modeId version x (statements .database x (next (some (s.answer
    (d'.transaction x).seen ((customModes svc).outcome d'.now d'.rows (d'.transaction x) s)))))
    (d'.setTransaction x ((customModes svc).after d'.now d'.rows (d'.transaction x) s))
  rw [Database.transaction_of_get ht', seen_of_unwritten hwrites']
  exact hruns d' t' hwrites' (hsnapshot ▸ hP _ _ hrows hbeside.advances)
    (hsnapshot ▸ hbeside'.advances)

theorem tells_select (hpassed : Passed owner modeId version db.rows)
    (hreached : Reached modeId version db.rows) (hopen : IfOpen db x (fun t => t.writes = [])) :
    Tells svc modeId version x
      (statements .database x (.op (.selectMode owner modeId false) (afterMiss modeId))) db := by
  refine tells_op (P := fun rows => Passed owner modeId version rows ∧
    Reached modeId version rows) ?_ ⟨hpassed, hreached⟩ hopen rfl ?_
  · rintro rows rows' ⟨h, h'⟩ hadvances
    exact ⟨h.advances h' hadvances, h'.advances hadvances⟩
  · rintro d t _ ⟨hpassed, _⟩ hseen
    show Tells svc modeId version x (statements .database x (afterMiss modeId
      (some (selectedIn owner modeId t.snapshot)))) _
    cases hcase : selectedIn owner modeId t.snapshot with
    | none => exact tells_raise (by intro current hcurrent; cases hcurrent)
    | some m =>
        rcases selectedIn_cases hcase with ⟨hm, howner, hactive⟩
        refine tells_raise ?_
        intro current hcurrent
        cases hcurrent
        refine ⟨hpassed m hm (isActiveOf_iff.mpr ⟨howner, hactive⟩), ?_⟩
        rcases hseen modeId m hm with ⟨m', hm', hfollows⟩
        exact ⟨m', hm', hfollows.version⟩

theorem tells_update (hreached : Reached modeId version db.rows) :
    Tells svc modeId version x
      (transaction .database x (update owner modeId changes (some version))) db := by
  unfold Tells
  rw [transaction, Prog.wpAmid]
  intro d hmoves
  have hadvances := (beside_of_moves hmoves).advances
  refine ⟨fun _ => ?_, fun _ => laterConflict_database d⟩
  dsimp only
  rw [update_eq]
  have hrows : Reached modeId version (d.setTransaction x (.blank d.rows)).rows :=
    hreached.advances hadvances
  refine tells_op (fun _ _ h => h.advances) hrows (ifOpen_set rfl) rfl ?_
  intro d' t hwrites hsnapshot hseen
  rcases hcase : answer (.updateMode owner modeId changes (some version)) t.snapshot
      ((customModes svc).outcome d'.now d'.rows t
        (.updateMode owner modeId changes (some version))) with _ | _ | m
  · exact tells_raise (by intro current hcurrent; cases hcurrent)
  · rw [<- seen_of_unwritten hwrites] at hcase
    rcases passed_of_miss hwrites hsnapshot hseen hcase with ⟨hpassed, hafter⟩
    rw [afterUpdate_miss]
    exact tells_select hpassed (hsnapshot.advances hseen) (ifOpen_set hafter)
  · exact tells_ret (some m)

end Tells

/-!
# Runs of an answer
-/

section Runs

variable {request : ModeRequest} {pool pool' pool₀ : ModePool}

/-- The request, wherever it is in the pool, is answered with no conflict but a later one. -/
def RequestTells (svc : ModeService) (request : ModeRequest) (modeId : UUID) (version : Nat)
    (pool : ModePool) : Prop :=
  forall t, t ∈ pool.tasks -> t.call = request ->
    Tells svc modeId version request.xid t.prog pool.store

theorem requestTells_step
    (hcall : request.call = .update owner modeId changes (some version))
    (hreach : Pool.Reaches (modeRules svc) ⟨.blank, []⟩ pool)
    (hreached : Reached modeId version pool.store.rows)
    (hstep : Pool.Step (modeRules svc) pool pool')
    (h : RequestTells svc request modeId version pool) :
    RequestTells svc request modeId version pool' := by
  have hholds := holds_modes hreach
  have hadvances := advances_step hreach hstep
  have hmoved : forall {prog db'}, LeftAlone svc pool.store db' request.xid ->
      Advances pool.store.rows db'.rows ->
      Tells svc modeId version request.xid prog pool.store ->
      Tells svc modeId version request.xid prog db' :=
    fun hleft hrows => Prog.wpAmid_move (fun _ _ _ _ h => h)
      (fun _ _ _ hbeside h => h.beside hbeside) ⟨hleft.running, hrows⟩
  cases hstep with
  | perform before after call o next db hpermits =>
      have hready := hpermits o next rfl
      have hmem : (⟨call, .op o next⟩ : ModeTask) ∈ before ++ ⟨call, .op o next⟩ :: after := by
        simp
      intro t ht hrequest
      rcases Pool.mem_replace ht with rfl | hother
      · exact (h _ hmem hrequest db Relation.ReflTransGen.refl).left hready
      · have hapart : call.xid ≠ t.call.xid :=
          Pool.apart_of_mem (fun _ _ hne => hne.symm) hholds.apart hother
        have hxid : o.1 = call.xid := (hholds.each _ hmem).left.left
        refine hmoved ?_ hadvances (h t (Pool.mem_split_of_mem hother) hrequest)
        refine leftAlone_exec hholds.shared hready ?_
        rw [hxid, <- hrequest]
        exact hapart
  | fault before after call o next db hfail =>
      intro t ht hrequest
      rcases Pool.mem_replace ht with rfl | hother
      · exact (h ⟨call, .op o next⟩ (by simp) hrequest db Relation.ReflTransGen.refl).right
          trivial
      · exact h t (Pool.mem_split_of_mem hother) hrequest
  | stop before after call o next db hstop hat =>
      exact fun t ht => h t (Pool.mem_split_of_mem ht)
  | start tasks call db hstart =>
      intro t ht hrequest
      rcases List.mem_append.mp ht with hold | hnew
      · exact h t hold hrequest
      · rw [List.mem_singleton.mp hnew] at hrequest ⊢
        have hprogram : (modeRules svc).program call =
            transaction .database request.xid (update owner modeId changes (some version)) := by
          rw [show call = request from hrequest]
          show transaction .database request.xid (request.call.program svc) = _
          rw [hcall]
          rfl
        dsimp only
        rw [hprogram]
        exact tells_update hreached
  | move tasks db db' hmove =>
      exact fun t ht hrequest => hmoved (leftAlone_moves hmove) hadvances (h t ht hrequest)

theorem requestTells_reaches
    (hcall : request.call = .update owner modeId changes (some version))
    (hreach : Pool.Reaches (modeRules svc) ⟨.blank, []⟩ pool₀)
    (hreached : Reached modeId version pool₀.store.rows)
    (hnew : forall t, t ∈ pool₀.tasks -> t.call ≠ request)
    (hrun : Pool.Reaches (modeRules svc) pool₀ pool) :
    RequestTells svc request modeId version pool := by
  induction hrun with
  | refl => exact fun t ht hrequest => absurd hrequest (hnew t ht)
  | tail hrun hstep ih =>
      exact requestTells_step hcall (hreach.trans hrun)
        (hreached.advances (advances_reaches hreach hrun)) hstep ih

end Runs

end Conflicts

/--
A client has read a version of a mode, and then sends an update with it. In every run of
other requests beside it, a `version_conflict` that the update is answered with carries a
version after the one that was sent, which the mode has had by then: somebody has changed
it in between.
-/
theorem conflict_carries_later {svc : ModeService} {pool₀ pool : ModePool}
    (hreach : Pool.Reaches (modeRules svc) ⟨.blank, []⟩ pool₀) {modeId : UUID} {m : CustomMode}
    (hm : pool₀.store.rows.get modeId = some m) {request : ModeRequest}
    (hnew : forall t, t ∈ pool₀.tasks -> t.call ≠ request) {owner : UUID} {changes : ModeChanges}
    (hcall : request.call = .update owner modeId changes (some m.version))
    (hrun : Pool.Reaches (modeRules svc) pool₀ pool) {e : ModeExc}
    (hmem : (⟨request, .raise e⟩ : ModeTask) ∈ pool.tasks) {error : ModeError}
    (herror : CustomModesApi.updateError e = some error)
    (hcode : error.code = text "version_conflict") :
    exists current m', error.currentVersion = some current ∧ m.version < current ∧
      pool.store.rows.get modeId = some m' ∧ current ≤ m'.version := by
  have hreached : Reached modeId m.version pool₀.store.rows := ⟨m, hm, Nat.le_refl _⟩
  have hlater : LaterConflict modeId m.version e pool.store :=
    requestTells_reaches hcall hreach hreached hnew hrun _ hmem rfl
  cases e with
  | customModeConflict current =>
      cases herror
      rcases hlater current rfl with ⟨hlt, m', hm', hle⟩
      exact ⟨current, m', rfl, hlt, hm', hle⟩
  | customModeNotFound modeId' =>
      cases herror
      exact absurd hcode (by decide)
  | customModeNameTaken name =>
      cases herror
      exact absurd hcode (by decide)
  | customModeLimit limit => cases herror
  | database => cases herror

/-- A test whether a task has been answered with a conflict at a version. -/
def conflicts (request : ModeRequest) (version : Nat) (t : ModeTask) : Bool :=
  t.call == request &&
    match t.prog with
    | .ret _ => false
    | .raise e => e == .customModeConflict version
    | .op _ _ => false

theorem eq_of_conflicts {request : ModeRequest} {version : Nat} {t : ModeTask}
    (h : conflicts request version t = true) :
    t = ⟨request, .raise (.customModeConflict version)⟩ := by
  rcases t with ⟨call, prog⟩
  rcases Bool.and_eq_true_iff.mp h with ⟨hcall, hprog⟩
  cases beq_iff_eq.mp hcall
  cases prog with
  | ret a => cases hprog
  | op o next => cases hprog
  | raise e =>
      cases beq_iff_eq.mp hprog
      rfl

theorem conflict_carries_later_updated : exists m',
    (playedModes (createsTogether ++ updatesTwice)).store.rows.get (.ofInt 2) = some m' ∧
    2 ≤ m'.version := by
  rcases createdMode with ⟨m, hm, hversion⟩
  have hconflict : (playedModes (createsTogether ++ updatesTwice)).tasks.any
      (conflicts ⟨4, .update (.ofInt 1) (.ofInt 2) ⟨none, none, some (text "z"), none⟩
        (some 1)⟩ 2) = true := by
    decide +kernel
  have hnew : (playedModes createsTogether).tasks.all (fun t => t.call.xid != 4) = true := by
    decide +kernel
  rcases List.any_eq_true.mp hconflict with ⟨t, ht, hraised⟩
  rw [eq_of_conflicts hraised] at ht
  have hlater := conflict_carries_later reaches_createsTogether hm
    (fun t ht hcall => by
      have hxid := List.all_eq_true.mp hnew t ht
      rw [hcall] at hxid
      cases hxid)
    (by rw [hversion]) reaches_updatesTwice ht rfl rfl
  rcases hlater with ⟨current, m', hcurrent, _, hm', hle⟩
  cases hcurrent
  exact ⟨m', hm', hle⟩

end ConversationService
