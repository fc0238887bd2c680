import ConversationService.Model.CustomModes

/-!
# Custom modes under concurrent transactions

A creation holds the lock of its owner from before its count until its transaction ends,
so that no other creation of the owner comes in between. The unique index keeps active
names apart. An update or an archiving looks at its row again once no other transaction
writes it, so that it raises the version of exactly the row that it replaces.
-/

namespace ConversationService

open Python ClusteredTable Programs ReadCommitted ModeOp

/-!
# What a transaction may commit
-/

/-- The row that an update or an archiving writes over another one. -/
structure Succeeds (m m' : CustomMode) : Prop where
  active : m.isActive = true
  owner : m'.ownerUserId = m.ownerUserId
  version : m'.version = m.version + 1

/-- No mode gets lost or another owner, and an archived mode stays what it is. -/
def Grows (rows rows' : ModeRows) : Prop :=
  forall modeId m, rows.get modeId = some m -> exists m', rows'.get modeId = some m' ∧
    m'.ownerUserId = m.ownerUserId ∧ (m.isActive = false -> m' = m)

theorem Grows.refl (rows : ModeRows) : Grows rows rows :=
  fun _ m hm => ⟨m, hm, rfl, fun _ => rfl⟩

theorem Grows.trans {rows rows' rows'' : ModeRows} (h : Grows rows rows')
    (h' : Grows rows' rows'') : Grows rows rows'' := by
  intro modeId m hm
  rcases h modeId m hm with ⟨m', hm', howner, hsame⟩
  rcases h' modeId m' hm' with ⟨m'', hm'', howner', hsame'⟩
  refine ⟨m'', hm'', howner'.trans howner, ?_⟩
  intro harchived
  have heq := hsame harchived
  rw [heq] at hsame'
  exact hsame' harchived

/-- The modes of the owner that are active in `rows` were already active in `before`. -/
def ActiveWithin (owner : UUID) (rows before : ModeRows) : Prop :=
  forall modeId m, rows.get modeId = some m -> isActiveOf owner m = true ->
    exists m', before.get modeId = some m' ∧ isActiveOf owner m' = true

theorem ActiveWithin.refl (owner : UUID) (rows : ModeRows) : ActiveWithin owner rows rows :=
  fun _ m hm hactive => ⟨m, hm, hactive⟩

theorem ActiveWithin.trans {owner : UUID} {rows rows' rows'' : ModeRows}
    (h : ActiveWithin owner rows rows') (h' : ActiveWithin owner rows' rows'') :
    ActiveWithin owner rows rows'' := by
  intro modeId m hm hactive
  rcases h modeId m hm hactive with ⟨m', hm', hactive'⟩
  exact h' modeId m' hm' hactive'

theorem activeCount_le {owner : UUID} {rows before : ModeRows}
    (h : ActiveWithin owner rows before) :
    activeCount rows owner ≤ activeCount before owner :=
  Database.committed_le h

/-- The modes of the owner that are active or may yet become so. -/
def activeUnderWay (db : ModeDatabase) (owner : UUID) : Finset UUID :=
  db.possible (fun _ mode => isActiveOf owner mode)

/-- What an open transaction has written: a successor, or a new mode under the lock. -/
def PendingSound (svc : ModeService) (rows : ModeRows) (locks : List Int) (modeId : UUID)
    (write : Option CustomMode) : Prop :=
  exists new, write = some new ∧ (forall m, rows.get modeId = some m -> Succeeds m new) ∧
    (rows.get modeId = none -> ownerLock svc new.ownerUserId ∈ locks)

structure ModesSound (svc : ModeService) (db : ModeDatabase) : Prop where
  consistent : (customModes svc).Consistent db
  snapshots : forall x t, db.running.get x = some t -> Grows t.snapshot db.rows
  pending : forall x t, db.running.get x = some t -> forall modeId write,
    (modeId, write) ∈ t.writes -> PendingSound svc db.rows t.locks modeId write
  capped : forall owner, (activeUnderWay db owner).card ≤ svc.maxPerUser

section Databases

variable {svc : ModeService} {db db' : ModeDatabase} {x : Nat}
  {t : Transaction UUID CustomMode Int}

theorem isActiveOf_iff {owner : UUID} {m : CustomMode} :
    isActiveOf owner m = true <-> m.ownerUserId = owner ∧ m.isActive = true := by
  unfold isActiveOf
  rw [Bool.and_eq_true, beq_iff_eq]

theorem get_commit_cases (ht : db.running.get x = some t) {modeId : UUID} {m : CustomMode}
    (h : (db.commit x).rows.get modeId = some m) :
    (modeId, some m) ∈ t.writes ∨ db.rows.get modeId = some m := by
  have hget : (applyWrites (db.transaction x).writes db.rows).get modeId = some m := h
  rw [Database.transaction_of_get ht] at hget
  rcases get_applyWrites_cases hget with hwrite | ⟨_, hold⟩
  · exact Or.inl hwrite
  · exact Or.inr hold

theorem grows_commit (hsound : ModesSound svc db) (ht : db.running.get x = some t) :
    Grows db.rows (db.commit x).rows := by
  intro modeId m hm
  have hcases : (modeId, (db.commit x).rows.get modeId) ∈ (db.transaction x).writes ∨
      (db.commit x).rows.get modeId = db.rows.get modeId :=
    applyWrites_cases _ _ _
  rw [Database.transaction_of_get ht] at hcases
  rcases hcases with hwrite | hold
  · rcases hsound.pending x t ht modeId _ hwrite with ⟨new, hnew, hsucceeds, _⟩
    have hafter := hsucceeds m hm
    refine ⟨new, hnew, hafter.owner, ?_⟩
    intro harchived
    rw [hafter.active] at harchived
    cases harchived
  · exact ⟨m, hold.trans hm, rfl, fun _ => rfl⟩

/-- A commit makes no mode of an owner active whose lock another transaction holds. -/
theorem activeWithin_commit (hsound : ModesSound svc db) (ht : db.running.get x = some t)
    {owner : UUID} (hlock : ownerLock svc owner ∉ t.locks) :
    ActiveWithin owner (db.commit x).rows db.rows := by
  intro modeId m hm hactive
  rcases get_commit_cases ht hm with hwrite | hold
  · rcases hsound.pending x t ht modeId _ hwrite with ⟨new, hnew, hsucceeds, hnone⟩
    cases hnew
    rcases isActiveOf_iff.mp hactive with ⟨rfl, _⟩
    cases hrow : db.rows.get modeId with
    | none => exact absurd (hnone hrow) hlock
    | some old =>
        have hold := hsucceeds old hrow
        exact ⟨old, rfl, isActiveOf_iff.mpr ⟨hold.owner.symm, hold.active⟩⟩
  · exact ⟨m, hold, hactive⟩

/-- While a transaction holds the lock of an owner, no other one adds a mode of theirs. -/
theorem underWay_le (hsound : ModesSound svc db) (ht : db.running.get x = some t)
    {owner : UUID} (hwrites : t.writes = []) (hlock : ownerLock svc owner ∈ t.locks) :
    (activeUnderWay db owner).card ≤ activeCount db.rows owner := by
  refine Database.possible_le_committed ?_
  intro modeId hmem
  rcases Database.mem_possible.mp hmem with hrow | ⟨y, u, m, hu, hwrite, hactive⟩
  · exact hrow
  · rcases hsound.pending y u hu modeId _ hwrite with ⟨new, hnew, hsucceeds, hnone⟩
    cases hnew
    rcases isActiveOf_iff.mp hactive with ⟨rfl, _⟩
    cases hrow : db.rows.get modeId with
    | some old =>
        have hold := hsucceeds old hrow
        exact ⟨old, rfl, isActiveOf_iff.mpr ⟨hold.owner.symm, hold.active⟩⟩
    | none =>
        have hheld := hnone hrow
        by_cases hxy : x = y
        · subst hxy
          rw [ht] at hu
          cases hu
          rw [hwrites] at hwrite
          cases hwrite
        · exact absurd hheld ((hsound.consistent.apart x y t u ht hu hxy).locks _ hlock)

/-- The row that a statement adds to its transaction is sound and leaves room. -/
def PutsSoundly (svc : ModeService) (db : ModeDatabase) (o : Nat × SessionOp modeTable) :
    Prop :=
  forall x s modeId new, o = (x, .run s) ->
    (customModes svc).target s (db.transaction x).seen = some modeId ->
    (customModes svc).attempt s db.now
      (((db.transaction x).current db.rows).get modeId) = .put new ->
    PendingSound svc db.rows (db.transaction x).locks modeId (some new) ∧
      forall owner, isActiveOf owner new = true ->
        modeId ∈ activeUnderWay db owner ∨ (activeUnderWay db owner).card < svc.maxPerUser

theorem PendingSound.mono {rows rows' : ModeRows} {locks locks' : List Int} {modeId : UUID}
    {write : Option CustomMode} (h : PendingSound svc rows locks modeId write)
    (hrow : rows'.get modeId = rows.get modeId) (hlocks : forall l, l ∈ locks -> l ∈ locks') :
    PendingSound svc rows' locks' modeId write := by
  rcases h with ⟨new, hwrite, hsucceeds, hnone⟩
  refine ⟨new, hwrite, ?_, ?_⟩
  · intro m hm
    exact hsucceeds m (hrow.symm.trans hm)
  · intro hnew
    exact hlocks _ (hnone (hrow.symm.trans hnew))

theorem not_removes (s : ModeOp) (now : Nat) (row : Option CustomMode) :
    s.attempt svc now row ≠ .remove := by
  cases s with
  | insertMode modeId owner mode =>
      cases row with
      | none =>
          unfold attempt inserted
          dsimp only
          split
          · simp
          · simp
      | some old => simp [attempt]
  | updateMode owner modeId changes expectedVersion =>
      cases row with
      | none => simp [attempt]
      | some old =>
          unfold attempt updated
          dsimp only
          split
          · split
            · simp
            · simp
          · simp
  | archiveMode owner modeId =>
      cases row with
      | none => simp [attempt]
      | some old =>
          unfold attempt
          dsimp only
          split
          · simp
          · simp
  | lockOwner owner => cases row <;> simp [attempt]
  | countActive owner => cases row <;> simp [attempt]
  | refreshMode modeId => cases row <;> simp [attempt]
  | selectMode owner modeId includeArchived => cases row <;> simp [attempt]

theorem modesSound_setTransaction (hsound : ModesSound svc db)
    (hconsistent : (customModes svc).Consistent (db.setTransaction x t))
    (hcapped : forall owner,
      (activeUnderWay (db.setTransaction x t) owner).card ≤ svc.maxPerUser)
    (hsnapshot : Grows t.snapshot db.rows)
    (hpending : forall modeId write, (modeId, write) ∈ t.writes ->
      PendingSound svc db.rows t.locks modeId write) :
    ModesSound svc (db.setTransaction x t) := by
  refine ⟨hconsistent, ?_, ?_, hcapped⟩
  · intro y u hu
    rw [Database.get_setTransaction] at hu
    split at hu
    · cases hu
      exact hsnapshot
    · exact hsound.snapshots y u hu
  · intro y u hu
    rw [Database.get_setTransaction] at hu
    split at hu
    · cases hu
      exact hpending
    · exact hsound.pending y u hu

theorem modesSound_exec (hsound : ModesSound svc db) {o : Nat × SessionOp modeTable}
    (hready : (customModes svc).Ready db o) (hputs : PutsSoundly svc db o) :
    ModesSound svc ((customModes svc).exec o db).2 := by
  have hconsistent := Table.consistent_exec hsound.consistent hready
  have hcapped : forall owner,
      (activeUnderWay ((customModes svc).exec o db).2 owner).card ≤ svc.maxPerUser := by
    intro owner
    have hcap := hsound.capped owner
    rcases possible_exec (D := customModes svc) (fun _ mode => isActiveOf owner mode) db o with
      hsub | ⟨x, s, modeId, new, ho, htarget, hattempt, hactive, hadds⟩
    · exact (Finset.card_le_card hsub).trans hcap
    · have hsub : activeUnderWay ((customModes svc).exec o db).2 owner ⊆
          insert modeId (activeUnderWay db owner) :=
        fun k hk => Finset.mem_insert.mpr (hadds k hk)
      rcases (hputs x s modeId new ho htarget hattempt).right owner hactive with hheld | hroom
      · refine (Finset.card_le_card hsub).trans ?_
        rw [Finset.insert_eq_of_mem hheld]
        exact hcap
      · refine (Finset.card_le_card hsub).trans ?_
        exact (Finset.card_insert_le _ _).trans hroom
  rcases o with ⟨x, o⟩
  cases o with
  | begin =>
      refine modesSound_setTransaction hsound hconsistent hcapped (Grows.refl _) ?_
      intro modeId write hwrite
      cases hwrite
  | take =>
      rcases Table.exists_of_isSome hready with ⟨t, ht⟩
      have htransaction := Database.transaction_of_get ht
      refine modesSound_setTransaction hsound hconsistent hcapped (Grows.refl _) ?_
      rw [htransaction]
      exact hsound.pending x t ht
  | run s =>
      rcases Table.exists_of_isSome hready.left with ⟨t, ht⟩
      have htransaction := Database.transaction_of_get ht
      refine modesSound_setTransaction hsound hconsistent hcapped ?_ ?_
      · rw [htransaction]
        exact hsound.snapshots x t ht
      · intro modeId write hwrite
        have hlocks : forall l, l ∈ (db.transaction x).locks ->
            l ∈ ((customModes svc).after db.now db.rows (db.transaction x) s).locks :=
          fun l hl => List.mem_append_right _ hl
        rcases List.mem_append.mp hwrite with hnew | hold
        · rcases Table.writes_cases (D := customModes svc) db.now db.rows (db.transaction x) s
            with hnone | ⟨k, row, htarget, hattempt, _, hput⟩ | ⟨k, _, hattempt, _⟩
          · rw [hnone] at hnew
            cases hnew
          · rw [hput] at hnew
            cases List.mem_singleton.mp hnew
            exact (hputs x s modeId row rfl htarget hattempt).left.mono rfl hlocks
          · exact absurd hattempt (not_removes s _ _)
        · rw [htransaction] at hold
          have hpending := hsound.pending x t ht modeId write hold
          rw [<- htransaction] at hpending
          exact hpending.mono rfl hlocks
  | commit =>
      rcases Table.exists_of_isSome hready with ⟨t, ht⟩
      have hgrows := grows_commit hsound ht
      refine ⟨hconsistent, ?_, ?_, hcapped⟩
      · intro y u hu
        have hu' : (db.commit x).running.get y = some u := hu
        rw [Database.get_commit] at hu'
        split at hu'
        · cases hu'
        · exact (hsound.snapshots y u hu').trans hgrows
      · intro y u hu modeId write hwrite
        have hu' : (db.commit x).running.get y = some u := hu
        rw [Database.get_commit] at hu'
        split at hu'
        · cases hu'
        · rename_i hne
          refine (hsound.pending y u hu' modeId write hwrite).mono ?_ (fun _ h => h)
          have hapart := (hsound.consistent.apart y x u t hu' ht hne).rows modeId
            (List.mem_map_of_mem hwrite)
          show (applyWrites (db.transaction x).writes db.rows).get modeId = _
          rw [Database.transaction_of_get ht]
          exact get_applyWrites_of_notMem hapart
  | rollback =>
      refine ⟨hconsistent, ?_, ?_, hcapped⟩
      · intro y u hu
        have hu' : (db.rollback x).running.get y = some u := hu
        rw [Database.get_rollback] at hu'
        split at hu'
        · cases hu'
        · exact hsound.snapshots y u hu'
      · intro y u hu
        have hu' : (db.rollback x).running.get y = some u := hu
        rw [Database.get_rollback] at hu'
        split at hu'
        · cases hu'
        · exact hsound.pending y u hu'

end Databases

/-!
# The stages of a request
-/

namespace CustomModeRepository

def afterFlush (modeId : UUID) (mode : NewMode) :
    Option (Checked Unit) -> ModeProg (Option CustomMode)
  | none => .raise .database
  | some none => .raise (.customModeNameTaken mode.name)
  | some (some ()) => execute (.refreshMode modeId)

def afterCount (maxPerUser : Nat) (owner modeId : UUID) (mode : NewMode) :
    Option Nat -> ModeProg (Option CustomMode)
  | none => .raise .database
  | some active =>
      if maxPerUser ≤ active then .raise (.customModeLimit maxPerUser)
      else .op (.insertMode modeId owner mode) (afterFlush modeId mode)

def afterLock (maxPerUser : Nat) (owner modeId : UUID) (mode : NewMode) :
    Option Unit -> ModeProg (Option CustomMode)
  | none => .raise .database
  | some () => .op (.countActive owner) (afterCount maxPerUser owner modeId mode)

theorem create_eq (maxPerUser : Nat) (owner modeId : UUID) (mode : NewMode) :
    create maxPerUser owner modeId mode =
      .op (.lockOwner owner) (afterLock maxPerUser owner modeId mode) := by
  unfold create
  show Prog.op _ _ = _
  congr 1
  funext locked
  rcases locked with _ | locked
  · rfl
  show Prog.op _ _ = Prog.op _ _
  congr 1
  funext answer
  rcases answer with _ | active
  · rfl
  show (if maxPerUser ≤ active then Prog.raise (ModeExc.customModeLimit maxPerUser) else _) =
    if maxPerUser ≤ active then Prog.raise (ModeExc.customModeLimit maxPerUser) else _
  split
  · rfl
  · show Prog.op _ _ = Prog.op _ _
    congr 1
    funext flushed
    rcases flushed with _ | _ | flushed
    · rfl
    · rfl
    · rfl

def afterUpdate (owner modeId : UUID) (changes : ModeChanges) :
    Option (Checked (Option CustomMode)) -> ModeProg (Option CustomMode)
  | none => .raise .database
  | some none => .raise (.customModeNameTaken (changes.name.getD []))
  | some (some (some mode)) => .ret (some mode)
  | some (some none) => get owner modeId false >>= fun current =>
      match current with
      | none => .raise (.customModeNotFound modeId.toText)
      | some mode => .raise (.customModeConflict mode.version)

theorem update_eq (owner modeId : UUID) (changes : ModeChanges)
    (expectedVersion : Option Nat) :
    update owner modeId changes expectedVersion =
      .op (.updateMode owner modeId changes expectedVersion)
        (afterUpdate owner modeId changes) := by
  unfold update
  show Prog.op _ _ = _
  congr 1
  funext answer
  rcases answer with _ | _ | _ | mode
  · rfl
  · rfl
  · rfl
  · rfl

def afterArchive (owner modeId : UUID) :
    Option (Option CustomMode) -> ModeProg (Option CustomMode)
  | none => .raise .database
  | some (some mode) => .ret (some mode)
  | some none => get owner modeId true

def afterLook (owner modeId : UUID) :
    Option (Option CustomMode) -> ModeProg (Option CustomMode)
  | none => .raise .database
  | some none => .raise (.customModeNotFound modeId.toText)
  | some (some mode) =>
      if mode.status = .archived then .ret (some mode)
      else .op (.archiveMode owner modeId) (afterArchive owner modeId)

theorem archive_eq (owner modeId : UUID) :
    archive owner modeId = .op (.selectMode owner modeId true) (afterLook owner modeId) := by
  unfold archive
  show Prog.op _ _ = _
  congr 1
  funext answer
  rcases answer with _ | _ | mode
  · rfl
  · rfl
  show (if mode.status = .archived then pure (some mode) else _) =
    if mode.status = .archived then Prog.ret (some mode) else _
  split
  · rfl
  · show Prog.op _ _ = Prog.op _ _
    congr 1
    funext answer
    rcases answer with _ | _ | mode
    · rfl
    · rfl
    · rfl

end CustomModeRepository

/-- What the commit of a transaction makes of the modes, for the call that it serves. -/
inductive EndsWell (rows : ModeRows) (t : Transaction UUID CustomMode Int) :
    ModeCall -> Prop where
  | created (owner modeId : UUID) (mode : NewMode) (new : CustomMode) :
      t.writes = [(modeId, some new)] -> rows.get modeId = none ->
      new.ownerUserId = owner -> EndsWell rows t (.create owner modeId mode)
  | updated (owner modeId : UUID) (changes : ModeChanges) (expectedVersion : Option Nat)
      (old new : CustomMode) : t.writes = [(modeId, some new)] ->
      rows.get modeId = some old -> Succeeds old new -> old.ownerUserId = owner ->
      (forall version, expectedVersion = some version -> old.version = version) ->
      EndsWell rows t (.update owner modeId changes expectedVersion)
  | archived (owner modeId : UUID) (old new : CustomMode) :
      t.writes = [(modeId, some new)] -> rows.get modeId = some old -> Succeeds old new ->
      old.ownerUserId = owner -> new.isActive = false ->
      EndsWell rows t (.archive owner modeId)
  | kept (owner modeId : UUID) (old : CustomMode) : t.writes = [] ->
      rows.get modeId = some old -> old.ownerUserId = owner -> old.isActive = false ->
      EndsWell rows t (.archive owner modeId)

/-- What is known of a transaction if it is open. -/
def IfOpen (db : ModeDatabase) (x : Nat)
    (P : Transaction UUID CustomMode Int -> Prop) : Prop :=
  forall t, db.running.get x = some t -> P t

def ModeOp.Reads : ModeOp -> Prop
  | .refreshMode _ => True
  | .selectMode _ _ _ => True
  | _ => False

/-- The operation is of the transaction `x`, and does not write. -/
def ReadsIn (x : Nat) (o : (sessions modeTable).Op) : Prop :=
  o.1 = x ∧ o.2 ≠ .begin ∧ forall s, o.2 = .run s -> s.Reads

open CustomModeRepository

/-- Where a request stands, and what its transaction has done and seen. -/
inductive ModeStage (svc : ModeService) (request : ModeRequest) (db : ModeDatabase) :
    Prog (sessions modeTable) ModeExc (Option CustomMode) -> Prop where
  | begins : ModeStage svc request db (request.program svc)
  | locks (owner modeId : UUID) (mode : NewMode) :
      request.call = .create owner modeId mode ->
      IfOpen db request.xid (fun t => t.writes = []) ->
      ModeStage svc request db (statements .database request.xid
        (.op (.lockOwner owner) (afterLock svc.maxPerUser owner modeId mode)))
  | locking (owner modeId : UUID) (mode : NewMode) :
      request.call = .create owner modeId mode ->
      IfOpen db request.xid (fun t => t.writes = []) ->
      ModeStage svc request db (.op (request.xid, .run (.lockOwner owner)) (fun answer =>
        statements .database request.xid
          (afterLock svc.maxPerUser owner modeId mode answer)))
  | counts (owner modeId : UUID) (mode : NewMode) :
      request.call = .create owner modeId mode ->
      IfOpen db request.xid (fun t => t.writes = [] ∧ ownerLock svc owner ∈ t.locks) ->
      ModeStage svc request db (statements .database request.xid
        (.op (.countActive owner) (afterCount svc.maxPerUser owner modeId mode)))
  | counting (owner modeId : UUID) (mode : NewMode) :
      request.call = .create owner modeId mode ->
      IfOpen db request.xid (fun t => t.writes = [] ∧ ownerLock svc owner ∈ t.locks ∧
        ActiveWithin owner db.rows t.snapshot) ->
      ModeStage svc request db (.op (request.xid, .run (.countActive owner)) (fun answer =>
        statements .database request.xid
          (afterCount svc.maxPerUser owner modeId mode answer)))
  | inserts (owner modeId : UUID) (mode : NewMode) :
      request.call = .create owner modeId mode ->
      IfOpen db request.xid (fun t => t.writes = [] ∧ ownerLock svc owner ∈ t.locks ∧
        activeCount db.rows owner < svc.maxPerUser) ->
      ModeStage svc request db (statements .database request.xid
        (.op (.insertMode modeId owner mode) (afterFlush modeId mode)))
  | inserting (owner modeId : UUID) (mode : NewMode) :
      request.call = .create owner modeId mode ->
      IfOpen db request.xid (fun t => t.writes = [] ∧ ownerLock svc owner ∈ t.locks ∧
        activeCount db.rows owner < svc.maxPerUser) ->
      ModeStage svc request db
        (.op (request.xid, .run (.insertMode modeId owner mode)) (fun answer =>
          statements .database request.xid (afterFlush modeId mode answer)))
  | updates (owner modeId : UUID) (changes : ModeChanges) (expectedVersion : Option Nat) :
      request.call = .update owner modeId changes expectedVersion ->
      IfOpen db request.xid (fun t => t.writes = []) ->
      ModeStage svc request db (statements .database request.xid
        (.op (.updateMode owner modeId changes expectedVersion)
          (afterUpdate owner modeId changes)))
  | updating (owner modeId : UUID) (changes : ModeChanges) (expectedVersion : Option Nat) :
      request.call = .update owner modeId changes expectedVersion ->
      IfOpen db request.xid (fun t => t.writes = []) ->
      ModeStage svc request db
        (.op (request.xid, .run (.updateMode owner modeId changes expectedVersion))
          (fun answer =>
            statements .database request.xid (afterUpdate owner modeId changes answer)))
  | looks (owner modeId : UUID) : request.call = .archive owner modeId ->
      IfOpen db request.xid (fun t => t.writes = []) ->
      ModeStage svc request db (statements .database request.xid
        (.op (.selectMode owner modeId true) (afterLook owner modeId)))
  | looking (owner modeId : UUID) : request.call = .archive owner modeId ->
      IfOpen db request.xid (fun t => t.writes = []) ->
      ModeStage svc request db
        (.op (request.xid, .run (.selectMode owner modeId true)) (fun answer =>
          statements .database request.xid (afterLook owner modeId answer)))
  | archives (owner modeId : UUID) : request.call = .archive owner modeId ->
      IfOpen db request.xid (fun t => t.writes = [] ∧
        exists old, db.rows.get modeId = some old ∧ old.ownerUserId = owner) ->
      ModeStage svc request db (statements .database request.xid
        (.op (.archiveMode owner modeId) (afterArchive owner modeId)))
  | archiving (owner modeId : UUID) : request.call = .archive owner modeId ->
      IfOpen db request.xid (fun t => t.writes = [] ∧
        exists old, t.snapshot.get modeId = some old ∧ old.ownerUserId = owner) ->
      ModeStage svc request db
        (.op (request.xid, .run (.archiveMode owner modeId)) (fun answer =>
          statements .database request.xid (afterArchive owner modeId answer)))
  | settled (prog : Prog (sessions modeTable) ModeExc (Option CustomMode)) :
      Prog.AllOps (ReadsIn request.xid) prog ->
      IfOpen db request.xid (fun t => EndsWell db.rows t request.call) ->
      ModeStage svc request db prog
  | fails (prog : Prog (sessions modeTable) ModeExc (Option CustomMode)) :
      Prog.AllOps (fun o => ReadsIn request.xid o ∧ o.2 ≠ .commit) prog ->
      ModeStage svc request db prog

/-!
# The step of a request
-/

section Stages

variable {svc : ModeService} {request : ModeRequest} {db db' : ModeDatabase} {x : Nat}
  {t : Transaction UUID CustomMode Int}

theorem ifOpen_set {P : Transaction UUID CustomMode Int -> Prop} (h : P t) :
    IfOpen (db.setTransaction x t) x P := by
  intro u hu
  rw [Database.get_setTransaction, if_pos rfl] at hu
  cases hu
  exact h

theorem seen_of_unwritten (h : t.writes = []) : t.seen = t.snapshot := by
  unfold Transaction.seen
  rw [h]
  rfl

theorem current_of_unwritten (h : t.writes = []) (rows : ModeRows) : t.current rows = rows := by
  unfold Transaction.current
  rw [h]
  rfl

theorem reads_other {o : SessionOp modeTable} (hbegin : o ≠ .begin)
    (hrun : forall s, o ≠ .run s) : ReadsIn x (x, o) :=
  ⟨rfl, hbegin, fun s hs => absurd hs (hrun s)⟩

theorem reading_statements {p : ModeProg (Option CustomMode)}
    (hp : Prog.AllOps ModeOp.Reads p) :
    Prog.AllOps (ReadsIn x) (statements .database x p) := by
  induction p with
  | ret a =>
      refine ⟨reads_other (by simp) (by simp), ?_⟩
      rintro (_ | done)
      · exact ⟨reads_other (by simp) (by simp), fun _ => trivial⟩
      · trivial
  | raise e => exact ⟨reads_other (by simp) (by simp), fun _ => trivial⟩
  | op o next ih =>
      rw [statements]
      refine ⟨reads_other (by simp) (by simp), ?_⟩
      rintro (_ | taken)
      · exact ih none (hp.right none)
      · refine ⟨⟨rfl, by simp, ?_⟩, fun answer => ih answer (hp.right answer)⟩
        intro s hs
        cases hs
        exact hp.left

theorem failing_statements {p : ModeProg (Option CustomMode)}
    (hp : Prog.AllOps ModeOp.Reads p) (hfails : p.Returns (fun _ => False)) :
    Prog.AllOps (fun o => ReadsIn x o ∧ o.2 ≠ .commit) (statements .database x p) := by
  induction p with
  | ret a => exact hfails.elim
  | raise e => exact ⟨⟨reads_other (by simp) (by simp), by simp⟩, fun _ => trivial⟩
  | op o next ih =>
      rw [statements]
      refine ⟨⟨reads_other (by simp) (by simp), by simp⟩, ?_⟩
      rintro (_ | taken)
      · exact ih none (hp.right none) (hfails none)
      · refine ⟨⟨⟨rfl, by simp, ?_⟩, by simp⟩,
          fun answer => ih answer (hp.right answer) (hfails answer)⟩
        intro s hs
        cases hs
        exact hp.left

theorem modeStage_raises (e : ModeExc) :
    ModeStage svc request db (statements .database request.xid (.raise e)) :=
  ModeStage.fails _ (failing_statements trivial trivial)

theorem putsSoundly_of_reads {o : Nat × SessionOp modeTable}
    (h : forall s, o.2 = .run s -> forall seen, (customModes svc).target s seen = none) :
    PutsSoundly svc db o := by
  intro y s modeId new ho htarget
  subst ho
  rw [h s rfl] at htarget
  cases htarget

theorem target_of_reads {s : ModeOp} (h : s.Reads) (seen : ModeRows) :
    (customModes svc).target s seen = none := by
  cases s with
  | refreshMode modeId => rfl
  | selectMode owner modeId includeArchived => rfl
  | _ => exact h.elim

theorem after_of_reads {s : ModeOp} (h : s.Reads) :
    (customModes svc).after db.now db.rows t s = t := by
  have houtcome : (customModes svc).outcome db.now db.rows t s = .nothing := by
    unfold Table.outcome
    rw [target_of_reads h]
  unfold Table.after
  rw [houtcome]
  cases s with
  | refreshMode modeId => rfl
  | selectMode owner modeId includeArchived => rfl
  | _ => exact h.elim

theorem selects_iff {owner : UUID} {expectedVersion : Option Nat} {m : CustomMode} :
    selects owner expectedVersion m = true <-> m.ownerUserId = owner ∧ m.isActive = true ∧
      forall version, expectedVersion = some version -> m.version = version := by
  unfold selects
  rw [Bool.and_eq_true, isActiveOf_iff, Option.all_eq_true, and_assoc]
  refine and_congr_right fun _ => and_congr_right fun _ => ?_
  constructor
  · intro h version hversion
    exact eq_of_beq (h version hversion)
  · intro h version hversion
    exact beq_iff_eq.mpr (h version hversion)

theorem put_insert {now : Nat} {modeId owner : UUID} {mode : NewMode} {row : Option CustomMode}
    {new : CustomMode} (h : (ModeOp.insertMode modeId owner mode).attempt svc now row = .put new) :
    row = none ∧ new.ownerUserId = owner ∧ new.isActive = true := by
  cases row with
  | some old => cases h
  | none =>
      unfold attempt inserted at h
      dsimp only at h
      split at h
      · cases h
        exact ⟨rfl, rfl, rfl⟩
      · cases h

theorem put_update {now : Nat} {owner modeId : UUID} {changes : ModeChanges}
    {expectedVersion : Option Nat} {row : Option CustomMode} {new : CustomMode}
    (h : (ModeOp.updateMode owner modeId changes expectedVersion).attempt svc now row =
      .put new) :
    exists old, row = some old ∧ Succeeds old new ∧ old.ownerUserId = owner ∧
      new.isActive = true ∧
      forall version, expectedVersion = some version -> old.version = version := by
  cases row with
  | none => cases h
  | some old =>
      unfold attempt updated at h
      dsimp only at h
      split at h
      · rename_i hselects
        rcases selects_iff.mp hselects with ⟨howner, hactive, hversion⟩
        split at h
        · cases h
          exact ⟨old, rfl, ⟨hactive, rfl, rfl⟩, howner, hactive, hversion⟩
        · cases h
      · cases h

theorem put_archive {now : Nat} {owner modeId : UUID} {row : Option CustomMode}
    {new : CustomMode}
    (h : (ModeOp.archiveMode owner modeId).attempt svc now row = .put new) :
    exists old, row = some old ∧ Succeeds old new ∧ old.ownerUserId = owner ∧
      new.isActive = false := by
  cases row with
  | none => cases h
  | some old =>
      unfold attempt at h
      dsimp only at h
      split at h
      · rename_i hselects
        rcases selects_iff.mp hselects with ⟨howner, hactive, _⟩
        cases h
        exact ⟨old, rfl, ⟨hactive, rfl, rfl⟩, howner, rfl⟩
      · cases h

theorem step_inserting (hsound : ModesSound svc db) {owner modeId : UUID} {mode : NewMode}
    (hcall : request.call = .create owner modeId mode)
    (hopen : IfOpen db request.xid (fun t => t.writes = [] ∧ ownerLock svc owner ∈ t.locks ∧
      activeCount db.rows owner < svc.maxPerUser))
    (ht : db.running.get request.xid = some t) :
    PutsSoundly svc db (request.xid, .run (.insertMode modeId owner mode)) ∧
      ModeStage svc request
        (db.setTransaction request.xid ((customModes svc).after db.now db.rows t
          (.insertMode modeId owner mode)))
        (statements .database request.xid (afterFlush modeId mode
          (some (ModeOp.answer (.insertMode modeId owner mode) t.seen
            ((customModes svc).outcome db.now db.rows t (.insertMode modeId owner mode)))))) := by
  rcases hopen t ht with ⟨hwrites, hlock, hcount⟩
  have htransaction := Database.transaction_of_get ht
  refine ⟨?_, ?_⟩
  · intro y s k new ho htarget hattempt
    cases ho
    rw [htransaction] at hattempt ⊢
    rw [current_of_unwritten hwrites] at hattempt
    have hk : modeId = k := Option.some.inj htarget
    subst hk
    rcases put_insert hattempt with ⟨hnone, howner, _⟩
    refine ⟨⟨new, rfl, ?_, ?_⟩, ?_⟩
    · intro m hm
      rw [hnone] at hm
      cases hm
    · intro _
      rw [howner]
      exact hlock
    · intro owner' hactive
      rcases isActiveOf_iff.mp hactive with ⟨rfl, _⟩
      rw [howner]
      exact Or.inr (Nat.lt_of_le_of_lt (underWay_le hsound ht hwrites hlock) hcount)
  · have houtcome := Table.outcomes (D := customModes svc) db.now db.rows t
      (.insertMode modeId owner mode)
    unfold Table.after
    generalize (customModes svc).outcome db.now db.rows t (.insertMode modeId owner mode) =
      outcome at houtcome
    cases houtcome with
    | put k row htarget hattempt _ =>
        have hk : modeId = k := Option.some.inj htarget
        subst hk
        rw [current_of_unwritten hwrites] at hattempt
        rcases put_insert hattempt with ⟨hnone, howner, _⟩
        refine ModeStage.settled _
          (reading_statements ((Prog.allOps_perform (S := modeTable) _ _).mpr trivial))
          (ifOpen_set ?_)
        rw [hcall, hwrites]
        exact EndsWell.created owner modeId mode row rfl hnone howner
    | missed _ => exact modeStage_raises _
    | left _ _ _ => exact modeStage_raises _
    | violated _ _ _ => exact modeStage_raises _
    | removed _ _ _ => exact modeStage_raises _

theorem step_updating (svc : ModeService) {owner modeId : UUID} {changes : ModeChanges}
    {expectedVersion : Option Nat}
    (hcall : request.call = .update owner modeId changes expectedVersion)
    (hopen : IfOpen db request.xid (fun t => t.writes = []))
    (ht : db.running.get request.xid = some t) :
    PutsSoundly svc db
        (request.xid, .run (.updateMode owner modeId changes expectedVersion)) ∧
      ModeStage svc request
        (db.setTransaction request.xid ((customModes svc).after db.now db.rows t
          (.updateMode owner modeId changes expectedVersion)))
        (statements .database request.xid (afterUpdate owner modeId changes
          (some (ModeOp.answer (.updateMode owner modeId changes expectedVersion) t.seen
            ((customModes svc).outcome db.now db.rows t
              (.updateMode owner modeId changes expectedVersion)))))) := by
  have hwrites := hopen t ht
  have htransaction := Database.transaction_of_get ht
  have htarget_eq : forall {seen : ModeRows} {k : UUID}, (customModes svc).target
      (.updateMode owner modeId changes expectedVersion) seen = some k -> k = modeId := by
    intro seen k h
    change (if (seen.get modeId).any (selects owner expectedVersion) then some modeId
      else none) = some k at h
    split at h
    · exact (Option.some.inj h).symm
    · cases h
  refine ⟨?_, ?_⟩
  · intro y s k new ho htarget hattempt
    cases ho
    rw [htransaction] at hattempt ⊢
    rw [current_of_unwritten hwrites] at hattempt
    have hk := htarget_eq htarget
    subst hk
    rcases put_update hattempt with ⟨old, hold, hsucceeds, _, _, _⟩
    refine ⟨⟨new, rfl, ?_, ?_⟩, ?_⟩
    · intro m hm
      rw [hold] at hm
      cases hm
      exact hsucceeds
    · intro hnone
      rw [hold] at hnone
      cases hnone
    · intro owner' hactive
      rcases isActiveOf_iff.mp hactive with ⟨rfl, _⟩
      exact Or.inl (Database.mem_possible.mpr (Or.inl ⟨old, hold,
        isActiveOf_iff.mpr ⟨hsucceeds.owner.symm, hsucceeds.active⟩⟩))
  · have houtcome := Table.outcomes (D := customModes svc) db.now db.rows t
      (.updateMode owner modeId changes expectedVersion)
    have hnone : forall {db'}, ModeStage svc request db' (statements .database request.xid
        (afterUpdate owner modeId changes (some (some none)))) := by
      intro db'
      refine ModeStage.fails _ (failing_statements ?_ ?_)
      · refine ⟨trivial, ?_⟩
        rintro (_ | _ | current)
        · trivial
        · trivial
        · trivial
      · rintro (_ | _ | current)
        · trivial
        · trivial
        · trivial
    unfold Table.after
    generalize (customModes svc).outcome db.now db.rows t
      (.updateMode owner modeId changes expectedVersion) = outcome at houtcome
    cases houtcome with
    | put k row htarget hattempt _ =>
        have hk := htarget_eq htarget
        subst hk
        rw [current_of_unwritten hwrites] at hattempt
        rcases put_update hattempt with ⟨old, hold, hsucceeds, howner, _, hversion⟩
        refine ModeStage.settled _ (reading_statements trivial) (ifOpen_set ?_)
        rw [hcall, hwrites, htarget]
        exact EndsWell.updated owner k changes expectedVersion old row rfl hold hsucceeds
          howner hversion
    | missed _ => exact hnone
    | left _ _ _ => exact hnone
    | violated _ _ _ => exact modeStage_raises _
    | removed _ _ _ => exact hnone

theorem step_archiving (hsound : ModesSound svc db) {owner modeId : UUID}
    (hcall : request.call = .archive owner modeId)
    (hopen : IfOpen db request.xid (fun t => t.writes = [] ∧
      exists old, t.snapshot.get modeId = some old ∧ old.ownerUserId = owner))
    (ht : db.running.get request.xid = some t) :
    PutsSoundly svc db (request.xid, .run (.archiveMode owner modeId)) ∧
      ModeStage svc request
        (db.setTransaction request.xid ((customModes svc).after db.now db.rows t
          (.archiveMode owner modeId)))
        (statements .database request.xid (afterArchive owner modeId
          (some (ModeOp.answer (.archiveMode owner modeId) t.seen
            ((customModes svc).outcome db.now db.rows t (.archiveMode owner modeId)))))) := by
  rcases hopen t ht with ⟨hwrites, seen, hseen, hseenOwner⟩
  have htransaction := Database.transaction_of_get ht
  rcases hsound.snapshots request.xid t ht modeId seen hseen with
    ⟨current, hcurrent, hcurrentOwner, hsame⟩
  -- a mode that the statement does not archive is archived already
  have hkept : current.isActive = false -> ModeStage svc request
      (db.setTransaction request.xid t) (statements .database request.xid
        (afterArchive owner modeId (some none))) := by
    intro harchived
    refine ModeStage.settled _
      (reading_statements ((Prog.allOps_perform (S := modeTable) _ _).mpr trivial))
      (ifOpen_set ?_)
    rw [hcall]
    exact EndsWell.kept owner modeId current hwrites hcurrent
      (hcurrentOwner.trans hseenOwner) harchived
  have htarget_eq : forall {k : UUID}, (customModes svc).target
      (.archiveMode owner modeId) t.seen = some k -> k = modeId := by
    intro k h
    change (if (t.seen.get modeId).any (selects owner none) then some modeId
      else none) = some k at h
    split at h
    · exact (Option.some.inj h).symm
    · cases h
  refine ⟨?_, ?_⟩
  · intro y s k new ho htarget hattempt
    cases ho
    rw [htransaction] at htarget hattempt ⊢
    rw [current_of_unwritten hwrites] at hattempt
    have hk := htarget_eq htarget
    subst hk
    rcases put_archive hattempt with ⟨old, hold, hsucceeds, _, harchived⟩
    refine ⟨⟨new, rfl, ?_, ?_⟩, ?_⟩
    · intro m hm
      rw [hold] at hm
      cases hm
      exact hsucceeds
    · intro hnone
      rw [hold] at hnone
      cases hnone
    · intro owner' hactive
      rw [(isActiveOf_iff.mp hactive).right] at harchived
      cases harchived
  · have houtcome := Table.outcomes (D := customModes svc) db.now db.rows t
      (.archiveMode owner modeId)
    have hselects : forall m : CustomMode, m.ownerUserId = owner ->
        selects owner none m = false -> m.isActive = false := by
      intro m howner hnot
      cases hactive : m.isActive with
      | false => rfl
      | true =>
          rw [selects_iff.mpr ⟨howner, hactive, by simp⟩] at hnot
          cases hnot
    have hunchanged : forall outcome : Outcome CustomMode,
        outcome.writes ((customModes svc).target (.archiveMode owner modeId) t.seen) = [] ->
        ({ t with
          writes := outcome.writes
            ((customModes svc).target (.archiveMode owner modeId) t.seen) ++ t.writes
          locks := ((customModes svc).lock (.archiveMode owner modeId)).toList ++ t.locks } :
          Transaction UUID CustomMode Int) = t := by
      intro outcome hnone
      rw [hnone]
      rfl
    unfold Table.after
    generalize (customModes svc).outcome db.now db.rows t (.archiveMode owner modeId) =
      outcome at houtcome
    cases houtcome with
    | put k row htarget hattempt _ =>
        have hk := htarget_eq htarget
        subst hk
        rw [current_of_unwritten hwrites] at hattempt
        rcases put_archive hattempt with ⟨old, hold, hsucceeds, howner, harchived⟩
        refine ModeStage.settled _ (reading_statements trivial) (ifOpen_set ?_)
        rw [hcall, hwrites, htarget]
        exact EndsWell.archived owner k old row rfl hold hsucceeds howner harchived
    | missed htarget =>
        rw [hunchanged _ rfl]
        refine hkept ?_
        change (if (t.seen.get modeId).any (selects owner none) then some modeId
          else none) = none at htarget
        rw [seen_of_unwritten hwrites, hseen] at htarget
        have hnot : selects owner none seen = false := by
          cases hselects : selects owner none seen with
          | false => rfl
          | true =>
              rw [Option.any_some, hselects] at htarget
              cases htarget
        have harchived := hselects seen hseenOwner hnot
        rw [hsame harchived]
        exact harchived
    | left k htarget hattempt =>
        rw [hunchanged _ rfl]
        refine hkept ?_
        have hk := htarget_eq htarget
        subst hk
        rw [current_of_unwritten hwrites, hcurrent] at hattempt
        refine hselects current (hcurrentOwner.trans hseenOwner) ?_
        cases hselects : selects owner none current with
        | false => rfl
        | true =>
            change (if selects owner none current then
              Attempt.put (archived db.now current) else .leave) = .leave at hattempt
            rw [hselects] at hattempt
            cases hattempt
    | violated k htarget hviolated =>
        -- an archived mode is not in the index
        rcases hviolated with hrefuse | ⟨row, hattempt, hclash⟩
        · cases hrow : (t.current db.rows).get k with
          | none =>
              rw [hrow] at hrefuse
              cases hrefuse
          | some old =>
              rw [hrow] at hrefuse
              change (if selects owner none old then Attempt.put (archived db.now old)
                else .leave) = .refuse at hrefuse
              split at hrefuse
              · cases hrefuse
              · cases hrefuse
        · rcases put_archive hattempt with ⟨_, _, _, _, harchived⟩
          have hindex : (customModes svc).index row = none := by
            show row.activeName = none
            unfold CustomMode.activeName
            rw [harchived]
            rfl
          unfold Table.clashes at hclash
          rw [hindex] at hclash
          cases hclash
    | removed k _ hattempt => exact absurd hattempt (not_removes _ _ _)

theorem putsSoundly_other {o : SessionOp modeTable} (h : forall s, o ≠ .run s) :
    PutsSoundly svc db (x, o) := by
  intro y s k new ho
  cases ho
  exact absurd rfl (h s)

theorem writes_of_missed {s : ModeOp} (h : (customModes svc).target s t.seen = none) :
    ((customModes svc).after db.now db.rows t s).writes = t.writes := by
  have houtcome : (customModes svc).outcome db.now db.rows t s = .nothing := by
    unfold Table.outcome
    rw [h]
  unfold Table.after
  rw [houtcome]
  rfl

theorem modeStage_exec (hsound : ModesSound svc db) {o : (sessions modeTable).Op}
    {next : Option ((sessions modeTable).Res o) ->
      Prog (sessions modeTable) ModeExc (Option CustomMode)}
    (hstage : ModeStage svc request db (.op o next)) (hready : (customModes svc).Ready db o) :
    PutsSoundly svc db o ∧ ModeStage svc request ((customModes svc).exec o db).2
      (next (some ((customModes svc).exec o db).1)) := by
  generalize hprog : Prog.op o next = prog at hstage
  cases hstage with
  | begins =>
      unfold ModeRequest.program transaction at hprog
      cases hprog
      refine ⟨putsSoundly_other (by simp), ?_⟩
      have hblank : IfOpen (db.setTransaction request.xid (.blank db.rows)) request.xid
          (fun t => t.writes = []) := ifOpen_set rfl
      show ModeStage svc request (db.setTransaction request.xid (.blank db.rows))
        (statements .database request.xid (request.call.program svc))
      cases hcall : request.call with
      | create owner modeId mode =>
          show ModeStage svc request _ (statements .database request.xid
            (CustomModeRepository.create svc.maxPerUser owner modeId mode))
          rw [create_eq]
          exact ModeStage.locks owner modeId mode hcall hblank
      | update owner modeId changes expectedVersion =>
          show ModeStage svc request _ (statements .database request.xid
            (CustomModeRepository.update owner modeId changes expectedVersion))
          rw [update_eq]
          exact ModeStage.updates owner modeId changes expectedVersion hcall hblank
      | archive owner modeId =>
          show ModeStage svc request _ (statements .database request.xid
            (CustomModeRepository.archive owner modeId))
          rw [archive_eq]
          exact ModeStage.looks owner modeId hcall hblank
  | locks owner modeId mode hcall hopen =>
      rw [statements] at hprog
      cases hprog
      rcases Table.exists_of_isSome hready with ⟨t, ht⟩
      refine ⟨putsSoundly_other (by simp), ModeStage.locking owner modeId mode hcall ?_⟩
      refine ifOpen_set ?_
      rw [Database.transaction_of_get ht]
      exact hopen t ht
  | locking owner modeId mode hcall hopen =>
      cases hprog
      rcases Table.exists_of_isSome hready.left with ⟨t, ht⟩
      refine ⟨putsSoundly_of_reads ?_, ModeStage.counts owner modeId mode hcall ?_⟩
      · intro s hs seen
        cases hs
        rfl
      · refine ifOpen_set ⟨?_, List.mem_append_left _ (List.mem_singleton_self _)⟩
        rw [writes_of_missed rfl, Database.transaction_of_get ht]
        exact hopen t ht
  | counts owner modeId mode hcall hopen =>
      rw [statements] at hprog
      cases hprog
      rcases Table.exists_of_isSome hready with ⟨t, ht⟩
      refine ⟨putsSoundly_other (by simp), ModeStage.counting owner modeId mode hcall ?_⟩
      refine ifOpen_set ?_
      rw [Database.transaction_of_get ht]
      rcases hopen t ht with ⟨hwrites, hlock⟩
      exact ⟨hwrites, hlock, ActiveWithin.refl _ _⟩
  | counting owner modeId mode hcall hopen =>
      cases hprog
      rcases Table.exists_of_isSome hready.left with ⟨t, ht⟩
      have htransaction := Database.transaction_of_get ht
      rcases hopen t ht with ⟨hwrites, hlock, hwithin⟩
      refine ⟨putsSoundly_of_reads ?_, ?_⟩
      · intro s hs seen
        cases hs
        rfl
      · show ModeStage svc request _ (statements .database request.xid
          (if svc.maxPerUser ≤ activeCount (db.transaction request.xid).seen owner then
            .raise (.customModeLimit svc.maxPerUser)
          else .op (.insertMode modeId owner mode) (afterFlush modeId mode)))
        split
        · exact modeStage_raises _
        · rename_i hroom
          refine ModeStage.inserts owner modeId mode hcall (ifOpen_set ⟨?_, ?_, ?_⟩)
          · rw [writes_of_missed rfl, htransaction]
            exact hwrites
          · refine List.mem_append_right _ ?_
            rw [htransaction]
            exact hlock
          · rw [htransaction, seen_of_unwritten hwrites] at hroom
            exact Nat.lt_of_le_of_lt (activeCount_le hwithin) (Nat.lt_of_not_le hroom)
  | inserts owner modeId mode hcall hopen =>
      rw [statements] at hprog
      cases hprog
      rcases Table.exists_of_isSome hready with ⟨t, ht⟩
      refine ⟨putsSoundly_other (by simp), ModeStage.inserting owner modeId mode hcall ?_⟩
      refine ifOpen_set ?_
      rw [Database.transaction_of_get ht]
      exact hopen t ht
  | inserting owner modeId mode hcall hopen =>
      cases hprog
      rcases Table.exists_of_isSome hready.left with ⟨t, ht⟩
      have hstep := step_inserting hsound hcall hopen ht
      rw [<- Database.transaction_of_get ht] at hstep
      exact hstep
  | updates owner modeId changes expectedVersion hcall hopen =>
      rw [statements] at hprog
      cases hprog
      rcases Table.exists_of_isSome hready with ⟨t, ht⟩
      refine ⟨putsSoundly_other (by simp),
        ModeStage.updating owner modeId changes expectedVersion hcall ?_⟩
      refine ifOpen_set ?_
      rw [Database.transaction_of_get ht]
      exact hopen t ht
  | updating owner modeId changes expectedVersion hcall hopen =>
      cases hprog
      rcases Table.exists_of_isSome hready.left with ⟨t, ht⟩
      have hstep := step_updating svc hcall hopen ht
      rw [<- Database.transaction_of_get ht] at hstep
      exact hstep
  | looks owner modeId hcall hopen =>
      rw [statements] at hprog
      cases hprog
      rcases Table.exists_of_isSome hready with ⟨t, ht⟩
      refine ⟨putsSoundly_other (by simp), ModeStage.looking owner modeId hcall ?_⟩
      refine ifOpen_set ?_
      rw [Database.transaction_of_get ht]
      exact hopen t ht
  | looking owner modeId hcall hopen =>
      cases hprog
      rcases Table.exists_of_isSome hready.left with ⟨t, ht⟩
      have htransaction := Database.transaction_of_get ht
      have hwrites := hopen t ht
      refine ⟨putsSoundly_of_reads ?_, ?_⟩
      · intro s hs seen
        cases hs
        rfl
      · show ModeStage svc request (db.setTransaction request.xid ((customModes svc).after db.now
            db.rows (db.transaction request.xid) (.selectMode owner modeId true)))
          (statements .database request.xid (afterLook owner modeId
            (some (ModeOp.answer (.selectMode owner modeId true)
              (db.transaction request.xid).seen ((customModes svc).outcome db.now db.rows
                (db.transaction request.xid) (.selectMode owner modeId true))))))
        rw [htransaction, after_of_reads (s := .selectMode owner modeId true) trivial]
        have hanswer : forall outcome, ModeOp.answer (.selectMode owner modeId true) t.seen
            outcome = (t.snapshot.get modeId).filter (fun mode => mode.ownerUserId == owner) := by
          intro outcome
          show ((t.seen.get modeId).filter _) = _
          rw [seen_of_unwritten hwrites]
          congr 1
          funext mode
          simp
        rw [hanswer]
        cases hfound : (t.snapshot.get modeId).filter
            (fun mode => mode.ownerUserId == owner) with
        | none => exact modeStage_raises _
        | some mode =>
            rcases Option.filter_eq_some_iff.mp hfound with ⟨hmode, howner⟩
            have howner := eq_of_beq howner
            rcases hsound.snapshots request.xid t ht modeId mode hmode with
              ⟨current, hcurrent, hcurrentOwner, hsame⟩
            show ModeStage svc request _ (statements .database request.xid
              (if mode.status = .archived then .ret (some mode)
              else .op (.archiveMode owner modeId) (afterArchive owner modeId)))
            split
            · rename_i harchived
              have hinactive : mode.isActive = false := by
                unfold CustomMode.isActive
                rw [harchived]
                rfl
              refine ModeStage.settled _ (reading_statements trivial) (ifOpen_set ?_)
              rw [hcall]
              refine EndsWell.kept owner modeId current hwrites hcurrent
                (hcurrentOwner.trans howner) ?_
              rw [hsame hinactive]
              exact hinactive
            · exact ModeStage.archives owner modeId hcall (ifOpen_set
                ⟨hwrites, current, hcurrent, hcurrentOwner.trans howner⟩)
  | archives owner modeId hcall hopen =>
      rw [statements] at hprog
      cases hprog
      rcases Table.exists_of_isSome hready with ⟨t, ht⟩
      refine ⟨putsSoundly_other (by simp), ModeStage.archiving owner modeId hcall ?_⟩
      refine ifOpen_set ?_
      rw [Database.transaction_of_get ht]
      exact hopen t ht
  | archiving owner modeId hcall hopen =>
      cases hprog
      rcases Table.exists_of_isSome hready.left with ⟨t, ht⟩
      have hstep := step_archiving hsound hcall hopen ht
      rw [<- Database.transaction_of_get ht] at hstep
      exact hstep
  | settled prog hreads hopen =>
      subst hprog
      rcases o with ⟨y, o⟩
      have hy : y = request.xid := hreads.left.left
      subst hy
      cases o with
      | begin => exact absurd rfl hreads.left.right.left
      | take =>
          rcases Table.exists_of_isSome hready with ⟨t, ht⟩
          refine ⟨putsSoundly_other (by simp), ModeStage.settled _ (hreads.right _) ?_⟩
          refine ifOpen_set ?_
          rw [Database.transaction_of_get ht]
          have hends := hopen t ht
          generalize request.call = call at hends
          cases hends with
          | created owner modeId mode new hwrites hnone howner =>
              exact EndsWell.created owner modeId mode new hwrites hnone howner
          | updated owner modeId changes expectedVersion old new hwrites hold hnew howner hv =>
              exact EndsWell.updated owner modeId changes expectedVersion old new hwrites hold
                hnew howner hv
          | archived owner modeId old new hwrites hold hnew howner harchived =>
              exact EndsWell.archived owner modeId old new hwrites hold hnew howner harchived
          | kept owner modeId old hwrites hold howner harchived =>
              exact EndsWell.kept owner modeId old hwrites hold howner harchived
      | run s =>
          have hs := hreads.left.right.right s rfl
          rcases Table.exists_of_isSome hready.left with ⟨t, ht⟩
          refine ⟨putsSoundly_of_reads ?_, ModeStage.settled _ (hreads.right _) ?_⟩
          · intro s' hs' seen
            cases hs'
            exact target_of_reads hs seen
          · refine ifOpen_set ?_
            rw [after_of_reads hs, Database.transaction_of_get ht]
            exact hopen t ht
      | commit =>
          refine ⟨putsSoundly_other (by simp), ModeStage.settled _ (hreads.right _) ?_⟩
          intro u hu
          have hu' : (db.commit request.xid).running.get request.xid = some u := hu
          rw [Database.get_commit, if_pos rfl] at hu'
          cases hu'
      | rollback =>
          refine ⟨putsSoundly_other (by simp), ModeStage.settled _ (hreads.right _) ?_⟩
          intro u hu
          have hu' : (db.rollback request.xid).running.get request.xid = some u := hu
          rw [Database.get_rollback, if_pos rfl] at hu'
          cases hu'
  | fails prog hreads =>
      subst hprog
      refine ⟨putsSoundly_of_reads ?_, ModeStage.fails _ (hreads.right _)⟩
      intro s hs seen
      exact target_of_reads (hreads.left.left.right.right s hs) seen

theorem modeStage_fault {o : (sessions modeTable).Op}
    {next : Option ((sessions modeTable).Res o) ->
      Prog (sessions modeTable) ModeExc (Option CustomMode)}
    (hstage : ModeStage svc request db (.op o next)) :
    ModeStage svc request db (next none) := by
  generalize hprog : Prog.op o next = prog at hstage
  cases hstage with
  | begins =>
      unfold ModeRequest.program transaction at hprog
      cases hprog
      exact ModeStage.fails _ trivial
  | settled prog hreads hopen =>
      subst hprog
      exact ModeStage.settled _ (hreads.right none) hopen
  | fails prog hreads =>
      subst hprog
      exact ModeStage.fails _ (hreads.right none)
  | locks _ _ _ _ _ =>
      rw [statements] at hprog
      cases hprog
      exact modeStage_raises _
  | counts _ _ _ _ _ =>
      rw [statements] at hprog
      cases hprog
      exact modeStage_raises _
  | inserts _ _ _ _ _ =>
      rw [statements] at hprog
      cases hprog
      exact modeStage_raises _
  | updates _ _ _ _ _ _ =>
      rw [statements] at hprog
      cases hprog
      exact modeStage_raises _
  | looks _ _ _ _ =>
      rw [statements] at hprog
      cases hprog
      exact modeStage_raises _
  | archives _ _ _ _ =>
      rw [statements] at hprog
      cases hprog
      exact modeStage_raises _
  | locking _ _ _ _ _ =>
      cases hprog
      exact modeStage_raises _
  | counting _ _ _ _ _ =>
      cases hprog
      exact modeStage_raises _
  | inserting _ _ _ _ _ =>
      cases hprog
      exact modeStage_raises _
  | updating _ _ _ _ _ _ =>
      cases hprog
      exact modeStage_raises _
  | looking _ _ _ _ =>
      cases hprog
      exact modeStage_raises _
  | archiving _ _ _ _ =>
      cases hprog
      exact modeStage_raises _

theorem EndsWell.stable {rows rows' : ModeRows} {call : ModeCall} (h : EndsWell rows t call)
    (hgrows : Grows rows rows')
    (hrows : forall modeId, modeId ∈ t.writes.map Prod.fst ->
      rows'.get modeId = rows.get modeId) : EndsWell rows' t call := by
  have hwritten : forall {modeId : UUID} {new : CustomMode}, t.writes = [(modeId, some new)] ->
      rows'.get modeId = rows.get modeId := by
    intro modeId new hwrites
    refine hrows modeId ?_
    rw [hwrites]
    exact List.mem_singleton_self _
  cases h with
  | created owner modeId mode new hwrites hnone howner =>
      exact EndsWell.created owner modeId mode new hwrites ((hwritten hwrites).trans hnone) howner
  | updated owner modeId changes expectedVersion old new hwrites hold hnew howner hversion =>
      exact EndsWell.updated owner modeId changes expectedVersion old new hwrites
        ((hwritten hwrites).trans hold) hnew howner hversion
  | archived owner modeId old new hwrites hold hnew howner harchived =>
      exact EndsWell.archived owner modeId old new hwrites ((hwritten hwrites).trans hold) hnew
        howner harchived
  | kept owner modeId old hwrites hold howner harchived =>
      rcases hgrows modeId old hold with ⟨new, hnew, _, hsame⟩
      rw [hsame harchived] at hnew
      exact EndsWell.kept owner modeId old hwrites hnew howner harchived

/-- What the steps of others, and of the server, leave to a transaction that stays open. -/
structure LeftAlone (svc : ModeService) (db db' : ModeDatabase) (x : Nat) : Prop where
  running : forall t, db'.running.get x = some t -> db.running.get x = some t
  grows : Grows db.rows db'.rows
  rows : IfOpen db x (fun t => forall modeId, modeId ∈ t.writes.map Prod.fst ->
    db'.rows.get modeId = db.rows.get modeId)
  within : IfOpen db x (fun t => forall owner, ownerLock svc owner ∈ t.locks ->
    ActiveWithin owner db'.rows db.rows)

theorem LeftAlone.ifOpen {P Q : Transaction UUID CustomMode Int -> Prop}
    (h : LeftAlone svc db db' x) (hopen : IfOpen db x P)
    (himp : forall t, db.running.get x = some t -> P t -> Q t) : IfOpen db' x Q := by
  intro t ht
  have ht' := h.running t ht
  exact himp t ht' (hopen t ht')

theorem modeStage_stable {prog : Prog (sessions modeTable) ModeExc (Option CustomMode)}
    (h : LeftAlone svc db db' request.xid) (hstage : ModeStage svc request db prog) :
    ModeStage svc request db' prog := by
  cases hstage with
  | begins => exact ModeStage.begins
  | locks owner modeId mode hcall hopen =>
      exact ModeStage.locks owner modeId mode hcall (h.ifOpen hopen (fun _ _ hw => hw))
  | locking owner modeId mode hcall hopen =>
      exact ModeStage.locking owner modeId mode hcall (h.ifOpen hopen (fun _ _ hw => hw))
  | counts owner modeId mode hcall hopen =>
      exact ModeStage.counts owner modeId mode hcall (h.ifOpen hopen (fun _ _ hw => hw))
  | counting owner modeId mode hcall hopen =>
      refine ModeStage.counting owner modeId mode hcall (h.ifOpen hopen ?_)
      rintro t ht ⟨hwrites, hlock, hwithin⟩
      exact ⟨hwrites, hlock, (h.within t ht owner hlock).trans hwithin⟩
  | inserts owner modeId mode hcall hopen =>
      refine ModeStage.inserts owner modeId mode hcall (h.ifOpen hopen ?_)
      rintro t ht ⟨hwrites, hlock, hcount⟩
      exact ⟨hwrites, hlock,
        Nat.lt_of_le_of_lt (activeCount_le (h.within t ht owner hlock)) hcount⟩
  | inserting owner modeId mode hcall hopen =>
      refine ModeStage.inserting owner modeId mode hcall (h.ifOpen hopen ?_)
      rintro t ht ⟨hwrites, hlock, hcount⟩
      exact ⟨hwrites, hlock,
        Nat.lt_of_le_of_lt (activeCount_le (h.within t ht owner hlock)) hcount⟩
  | updates owner modeId changes expectedVersion hcall hopen =>
      exact ModeStage.updates owner modeId changes expectedVersion hcall
        (h.ifOpen hopen (fun _ _ hw => hw))
  | updating owner modeId changes expectedVersion hcall hopen =>
      exact ModeStage.updating owner modeId changes expectedVersion hcall
        (h.ifOpen hopen (fun _ _ hw => hw))
  | looks owner modeId hcall hopen =>
      exact ModeStage.looks owner modeId hcall (h.ifOpen hopen (fun _ _ hw => hw))
  | looking owner modeId hcall hopen =>
      exact ModeStage.looking owner modeId hcall (h.ifOpen hopen (fun _ _ hw => hw))
  | archives owner modeId hcall hopen =>
      refine ModeStage.archives owner modeId hcall (h.ifOpen hopen ?_)
      rintro t _ ⟨hwrites, old, hold, howner⟩
      rcases h.grows modeId old hold with ⟨new, hnew, hkept, _⟩
      exact ⟨hwrites, new, hnew, hkept.trans howner⟩
  | archiving owner modeId hcall hopen =>
      exact ModeStage.archiving owner modeId hcall (h.ifOpen hopen (fun _ _ hw => hw))
  | settled prog hreads hopen =>
      refine ModeStage.settled prog hreads (h.ifOpen hopen ?_)
      intro t ht hends
      exact hends.stable h.grows (h.rows t ht)
  | fails prog hreads => exact ModeStage.fails prog hreads

theorem leftAlone_of_rows_eq (hrunning : forall t, db'.running.get x = some t ->
      db.running.get x = some t) (hrows : db'.rows = db.rows) :
    LeftAlone svc db db' x := by
  refine ⟨hrunning, ?_, ?_, ?_⟩
  · rw [hrows]
    exact Grows.refl _
  · intro t _ modeId _
    rw [hrows]
  · intro t _ owner _
    rw [hrows]
    exact ActiveWithin.refl _ _

theorem leftAlone_exec (hsound : ModesSound svc db) {o : (sessions modeTable).Op}
    (hready : (customModes svc).Ready db o) (hne : o.1 ≠ x) :
    LeftAlone svc db ((customModes svc).exec o db).2 x := by
  have hrunning : forall t, ((customModes svc).exec o db).2.running.get x = some t ->
      db.running.get x = some t := by
    intro t ht
    rw [Table.running_exec_ne (D := customModes svc) (o := o) hne.symm] at ht
    exact ht
  have hcases : ((customModes svc).exec o db).2.rows = db.rows ∨
      exists y, o = (y, .commit) ∧
        ((customModes svc).exec o db).2.rows = (db.transaction y).current db.rows :=
    Table.rows_exec (D := customModes svc) o
  rcases hcases with hrows | ⟨y, rfl, _⟩
  · exact leftAlone_of_rows_eq hrunning hrows
  · rcases Table.exists_of_isSome hready with ⟨u, hu⟩
    refine ⟨hrunning, grows_commit hsound hu, ?_, ?_⟩
    · intro t ht modeId hwritten
      have hapart := (hsound.consistent.apart x y t u ht hu hne.symm).rows modeId hwritten
      show (applyWrites (db.transaction y).writes db.rows).get modeId = _
      rw [Database.transaction_of_get hu]
      exact get_applyWrites_of_notMem hapart
    · intro t ht owner hlock
      have hapart := (hsound.consistent.apart x y t u ht hu hne.symm).locks _ hlock
      exact activeWithin_commit hsound hu hapart

theorem leftAlone_moves (hmove : db.Moves db') : LeftAlone svc db db' x := by
  rcases hmove with ⟨y, rfl⟩ | ⟨hrows, hrunning, _⟩
  · refine leftAlone_of_rows_eq ?_ rfl
    intro t ht
    rw [Database.get_rollback] at ht
    split at ht
    · cases ht
    · exact ht
  · refine leftAlone_of_rows_eq ?_ hrows
    intro t ht
    rw [hrunning] at ht
    exact ht

theorem modesSound_moves (hsound : ModesSound svc db) (hmove : db.Moves db') :
    ModesSound svc db' := by
  have hrows : db'.rows = db.rows := by
    rcases hmove with ⟨y, rfl⟩ | ⟨hrows, _, _⟩
    · rfl
    · exact hrows
  have hrunning : forall y t, db'.running.get y = some t -> db.running.get y = some t := by
    intro y
    have hleft : LeftAlone svc db db' y := leftAlone_moves hmove
    exact hleft.running
  refine ⟨Table.consistent_moves hsound.consistent hmove, ?_, ?_, ?_⟩
  · intro y t ht
    rw [hrows]
    exact hsound.snapshots y t (hrunning y t ht)
  · intro y t ht
    rw [hrows]
    exact hsound.pending y t (hrunning y t ht)
  · intro owner
    exact (Finset.card_le_card (Database.possible_moves hmove)).trans (hsound.capped owner)

theorem modesSound_blank (svc : ModeService) : ModesSound svc .blank where
  consistent := Table.consistent_blank
  snapshots := by
    intro x t ht
    cases ht
  pending := by
    intro x t ht
    cases ht
  capped := fun _ => Nat.zero_le _

end Stages

/-!
# Runs
-/

/-- A request does nothing outside its own transaction. -/
def OfRequest (request : ModeRequest)
    (prog : Prog (sessions modeTable) ModeExc (Option CustomMode)) : Prop :=
  Prog.AllOps (fun (o : (sessions modeTable).Op) => o.1 = request.xid) prog

theorem ofRequest_program (svc : ModeService) (request : ModeRequest) :
    OfRequest request (request.program svc) :=
  allOps_transaction (P := fun _ => True) (fun _ _ => rfl) (fun _ _ => rfl) _
    (Prog.allOps_of_forall (fun _ => trivial) _)

def StandsIn (svc : ModeService) (db : ModeDatabase) (t : ModeTask) : Prop :=
  OfRequest t.call t.prog ∧ ModeStage svc t.call db t.prog

theorem localProof_modes (svc : ModeService) :
    Pool.LocalProof (modeRules svc) (fun pool => ModesSound svc pool.store) (StandsIn svc)
      (fun p q => p.call.xid ≠ q.call.xid) where
  symm := fun _ _ h => h.symm
  own := by
    intro before after request o next db hholds hallowed
    have htask := hholds.each _ (List.mem_append_right _ List.mem_cons_self)
    have hready := hallowed o next rfl
    have hexec := modeStage_exec hholds.shared htask.right hready
    exact ⟨modesSound_exec hholds.shared hready hexec.left, htask.left.right _, hexec.right⟩
  ownFault := by
    intro before after request o next db hholds _
    have htask := hholds.each _ (List.mem_append_right _ List.mem_cons_self)
    exact ⟨hholds.shared, htask.left.right none, modeStage_fault htask.right⟩
  stable := by
    intro pool request o next q hholds hmem hallowed hq happart
    have hxid : o.1 = request.xid := (hholds.each _ hmem).left.left
    have htask := hholds.each q hq
    refine ⟨htask.left, modeStage_stable ?_ htask.right⟩
    refine leftAlone_exec hholds.shared (hallowed o next rfl) ?_
    rw [hxid]
    exact happart
  apartNext := fun _ _ _ _ _ _ _ _ _ h => h
  apartFault := fun _ _ _ _ _ _ _ _ _ h => h
  stopped := fun _ _ _ _ _ _ hholds _ _ => hholds.shared
  started := by
    intro pool request hholds hstart
    exact ⟨hholds.shared, ⟨ofRequest_program svc request, ModeStage.begins⟩, hstart⟩
  moved := by
    intro tasks db db' hholds hmove
    refine ⟨modesSound_moves hholds.shared hmove, ?_⟩
    intro q hq
    have htask := hholds.each q hq
    exact ⟨htask.left, modeStage_stable (leftAlone_moves hmove) htask.right⟩

theorem holds_modes {svc : ModeService} {pool : ModePool}
    (hreach : Pool.Reaches (modeRules svc) ⟨.blank, []⟩ pool) :
    Pool.Holds (fun pool => ModesSound svc pool.store) (StandsIn svc)
      (fun p q => p.call.xid ≠ q.call.xid) pool :=
  Pool.holds_reaches (localProof_modes svc) hreach
    ⟨modesSound_blank svc, (fun _ h => by cases h), List.Pairwise.nil⟩

/-!
# Results
-/

def ModeCall.owner : ModeCall -> UUID
  | .create owner _ _ => owner
  | .update owner _ _ _ => owner
  | .archive owner _ => owner

def ModeCall.modeId : ModeCall -> UUID
  | .create _ modeId _ => modeId
  | .update _ modeId _ _ => modeId
  | .archive _ modeId => modeId

/-- What a call makes of its mode. -/
def ModeCall.Makes : ModeCall -> Option CustomMode -> Option CustomMode -> Prop
  | .create _ _ _, before, after => before = none ∧ after.isSome = true
  | .update _ _ _ expectedVersion, before, after =>
      exists m m', before = some m ∧ after = some m' ∧ m'.version = m.version + 1 ∧
        forall version, expectedVersion = some version -> m.version = version
  | .archive _ _, before, after =>
      exists m m', before = some m ∧ after = some m' ∧ m'.isActive = false ∧
        (m.isActive = true ∧ m'.version = m.version + 1 ∨ m.isActive = false ∧ m' = m)

/-- What a commit for a call does to the modes. -/
structure CommitsSoundly (call : ModeCall) (rows rows' : ModeRows) : Prop where
  makes : call.Makes (rows.get call.modeId) (rows'.get call.modeId)
  others : forall modeId, modeId ≠ call.modeId -> rows'.get modeId = rows.get modeId
  archived : forall modeId m, rows.get modeId = some m -> m.isActive = false ->
    rows'.get modeId = some m
  foreign : forall modeId m, m.ownerUserId ≠ call.owner ->
    (rows'.get modeId = some m <-> rows.get modeId = some m)

section Results

variable {svc : ModeService} {pool pool' : ModePool} {rows : ModeRows}
  {t : Transaction UUID CustomMode Int} {call : ModeCall} {old new : CustomMode}

theorem get_wrote {modeId : UUID} (hwrites : t.writes = [(modeId, some new)]) :
    (t.current rows).get modeId = some new := by
  unfold Transaction.current
  rw [hwrites]
  exact Partition.get_upsert_self rows modeId (fun _ => new)

theorem get_wrote_ne {modeId modeId' : UUID} (hwrites : t.writes = [(modeId, some new)])
    (hne : modeId' ≠ modeId) : (t.current rows).get modeId' = rows.get modeId' := by
  unfold Transaction.current
  rw [hwrites]
  exact Partition.get_upsert_ne rows (fun _ => new) hne

theorem commitsSoundly_of_wrote (hwrites : t.writes = [(call.modeId, some new)])
    (hmakes : call.Makes (rows.get call.modeId) (some new))
    (hold : forall m, rows.get call.modeId = some m ->
      m.isActive = true ∧ m.ownerUserId = call.owner)
    (hnew : new.ownerUserId = call.owner) : CommitsSoundly call rows (t.current rows) where
  makes := by
    rw [get_wrote hwrites]
    exact hmakes
  others := fun modeId hne => get_wrote_ne hwrites hne
  archived := by
    intro modeId m hm harchived
    by_cases heq : modeId = call.modeId
    · rw [heq] at hm
      rw [(hold m hm).left] at harchived
      cases harchived
    · rw [get_wrote_ne hwrites heq]
      exact hm
  foreign := by
    intro modeId m hforeign
    by_cases heq : modeId = call.modeId
    · rw [heq, get_wrote hwrites]
      constructor
      · intro hm
        cases hm
        exact absurd hnew hforeign
      · intro hm
        exact absurd (hold m hm).right hforeign
    · rw [get_wrote_ne hwrites heq]

theorem commitsSoundly_of_endsWell (h : EndsWell rows t call) :
    CommitsSoundly call rows (t.current rows) := by
  cases h with
  | created owner modeId mode new hwrites hnone howner =>
      refine commitsSoundly_of_wrote hwrites ⟨hnone, rfl⟩ ?_ howner
      intro m hm
      have hm' : rows.get modeId = some m := hm
      rw [hnone] at hm'
      cases hm'
  | updated owner modeId changes expectedVersion old new hwrites hold hnew howner hversion =>
      refine commitsSoundly_of_wrote hwrites ⟨old, new, hold, rfl, hnew.version, hversion⟩ ?_
        (hnew.owner.trans howner)
      intro m hm
      have hm' : rows.get modeId = some m := hm
      rw [hold] at hm'
      cases hm'
      exact ⟨hnew.active, howner⟩
  | archived owner modeId old new hwrites hold hnew howner harchived =>
      refine commitsSoundly_of_wrote hwrites ⟨old, new, hold, rfl, harchived,
        Or.inl ⟨hnew.active, hnew.version⟩⟩ ?_ (hnew.owner.trans howner)
      intro m hm
      have hm' : rows.get modeId = some m := hm
      rw [hold] at hm'
      cases hm'
      exact ⟨hnew.active, howner⟩
  | kept owner modeId old hwrites hold howner harchived =>
      rw [current_of_unwritten hwrites]
      exact ⟨⟨old, old, hold, hold, harchived, Or.inr ⟨harchived, rfl⟩⟩, fun _ _ => rfl,
        fun _ _ hm _ => hm, fun _ _ _ => Iff.rfl⟩

/-- A program about to commit has done what its call is for. -/
theorem endsWell_of_commits {request : ModeRequest} {db : ModeDatabase} {x : Nat}
    {next : Option Unit -> Prog (sessions modeTable) ModeExc (Option CustomMode)}
    (hstage : ModeStage svc request db (.op (x, .commit) next)) :
    IfOpen db request.xid (fun t => EndsWell db.rows t request.call) := by
  generalize hprog : (Prog.op (S := sessions modeTable) (x, .commit) next) = prog at hstage
  cases hstage with
  | settled prog _ hopen => exact hopen
  | fails prog hreads =>
      subst hprog
      exact absurd rfl hreads.left.right
  | begins =>
      unfold ModeRequest.program transaction at hprog
      cases hprog
  | locks _ _ _ _ _ =>
      rw [statements] at hprog
      cases hprog
  | counts _ _ _ _ _ =>
      rw [statements] at hprog
      cases hprog
  | inserts _ _ _ _ _ =>
      rw [statements] at hprog
      cases hprog
  | updates _ _ _ _ _ _ =>
      rw [statements] at hprog
      cases hprog
  | looks _ _ _ _ =>
      rw [statements] at hprog
      cases hprog
  | archives _ _ _ _ =>
      rw [statements] at hprog
      cases hprog
  | locking _ _ _ _ _ => cases hprog
  | counting _ _ _ _ _ => cases hprog
  | inserting _ _ _ _ _ => cases hprog
  | updating _ _ _ _ _ _ => cases hprog
  | looking _ _ _ _ => cases hprog
  | archiving _ _ _ _ => cases hprog

/-- Every commit of an open transaction is sound. -/
theorem sound_commit (hreach : Pool.Reaches (modeRules svc) ⟨.blank, []⟩ pool)
    {request : ModeRequest} {x : Nat}
    {next : Option Unit -> Prog (sessions modeTable) ModeExc (Option CustomMode)}
    (hmem : (⟨request, .op (x, .commit) next⟩ : ModeTask) ∈ pool.tasks)
    (hopen : (pool.store.running.get x).isSome = true) :
    CommitsSoundly request.call pool.store.rows
      ((customModes svc).exec (x, .commit) pool.store).2.rows := by
  have htask := (holds_modes hreach).each _ hmem
  have hx : x = request.xid := htask.left.left
  subst hx
  rcases Table.exists_of_isSome hopen with ⟨t, ht⟩
  show CommitsSoundly request.call pool.store.rows
    ((pool.store.transaction request.xid).current pool.store.rows)
  rw [Database.transaction_of_get ht]
  exact commitsSoundly_of_endsWell (endsWell_of_commits htask.right t ht)

/-- The rows change only when a request commits. -/
theorem commits_step (hreach : Pool.Reaches (modeRules svc) ⟨.blank, []⟩ pool)
    (hstep : Pool.Step (modeRules svc) pool pool') :
    pool'.store.rows = pool.store.rows ∨
      exists request next, (⟨request, .op (request.xid, .commit) next⟩ : ModeTask) ∈ pool.tasks ∧
        CommitsSoundly request.call pool.store.rows pool'.store.rows := by
  have hholds := holds_modes hreach
  cases hstep with
  | fault before after request o next db hfail => exact Or.inl rfl
  | stop before after request o next db hstop hat => exact Or.inl rfl
  | start tasks request db hstart => exact Or.inl rfl
  | move tasks db db' hmove =>
      rcases hmove with ⟨x, rfl⟩ | ⟨hrows, _, _⟩
      · exact Or.inl rfl
      · exact Or.inl hrows
  | perform before after request o next db hallowed =>
      have htask := hholds.each _ (List.mem_append_right _ List.mem_cons_self)
      have hcases : ((customModes svc).exec o db).2.rows = db.rows ∨
          exists x, o = (x, .commit) ∧
            ((customModes svc).exec o db).2.rows = (db.transaction x).current db.rows :=
        Table.rows_exec (D := customModes svc) o
      rcases hcases with hrows | ⟨x, rfl, _⟩
      · exact Or.inl hrows
      · right
        have hx : x = request.xid := htask.left.left
        subst hx
        exact ⟨request, next, List.mem_append_right _ List.mem_cons_self,
          sound_commit hreach (List.mem_append_right _ List.mem_cons_self)
            (hallowed _ next rfl)⟩

theorem commitsFirst_reaches (hreach : Pool.Reaches (modeRules svc) ⟨.blank, []⟩ pool)
    {task : ModeTask} (hmem : task ∈ pool.tasks) : CommitsFirst task.prog := by
  have hproof : Pool.TaskProof (modeRules svc) (fun _ => True)
      (fun task : ModeTask => CommitsFirst task.prog) :=
    { done := fun _ _ _ _ _ hfirst _ => ⟨trivial, hfirst.right _⟩
      failed := fun _ _ _ hfirst _ => hfirst.right none
      started := fun _ request _ _ => commitsFirst_transaction _ request.xid _
      moved := fun _ _ _ _ => trivial }
  exact (Pool.keeps_reaches hproof hreach ⟨trivial, fun _ h => by cases h⟩).tasks task hmem

theorem archived_reaches (hreach : Pool.Reaches (modeRules svc) ⟨.blank, []⟩ pool)
    (hrun : Pool.Reaches (modeRules svc) pool pool') {modeId : UUID} {m : CustomMode}
    (hm : pool.store.rows.get modeId = some m) (harchived : m.isActive = false) :
    pool'.store.rows.get modeId = some m := by
  induction hrun with
  | refl => exact hm
  | tail hrun hstep ih =>
      rcases commits_step (hreach.trans hrun) hstep with hrows | ⟨request, next, _, hcommits⟩
      · rw [hrows]
        exact ih
      · exact hcommits.archived modeId m ih harchived

theorem active_names (hreach : Pool.Reaches (modeRules svc) ⟨.blank, []⟩ pool)
    {modeId modeId' : UUID} {m m' : CustomMode} (hm : pool.store.rows.get modeId = some m)
    (hm' : pool.store.rows.get modeId' = some m') (hactive : m.isActive = true)
    (hactive' : m'.isActive = true) (howner : m.ownerUserId = m'.ownerUserId)
    (hname : m.nameNormalized = m'.nameNormalized) : modeId = modeId' := by
  have hindex : m.activeName = some (m.ownerUserId, m.nameNormalized) := if_pos hactive
  have hindex' : m'.activeName = some (m.ownerUserId, m.nameNormalized) := by
    rw [howner, hname]
    exact if_pos hactive'
  exact (holds_modes hreach).shared.consistent.unique modeId modeId' m m' _ hm hm' hindex hindex'

/--
In every reachable state the owners are within their limits and names, archived modes stay as
they are, the rows change only by sound commits, and a request returns only by its commit,
which is sound whether or not it changes a row.
-/
theorem custom_modes_kept (hreach : Pool.Reaches (modeRules svc) ⟨.blank, []⟩ pool) :
    (forall owner, activeCount pool.store.rows owner ≤ svc.maxPerUser) ∧
    (forall modeId modeId' m m', pool.store.rows.get modeId = some m ->
      pool.store.rows.get modeId' = some m' -> m.isActive = true -> m'.isActive = true ->
      m.ownerUserId = m'.ownerUserId -> m.nameNormalized = m'.nameNormalized ->
      modeId = modeId') ∧
    (forall pool', Pool.Reaches (modeRules svc) pool pool' ->
      forall modeId m, pool.store.rows.get modeId = some m -> m.isActive = false ->
      pool'.store.rows.get modeId = some m) ∧
    (forall pool', Pool.Step (modeRules svc) pool pool' ->
      pool'.store.rows = pool.store.rows ∨
      exists request next, (⟨request, .op (request.xid, .commit) next⟩ : ModeTask) ∈ pool.tasks ∧
        CommitsSoundly request.call pool.store.rows pool'.store.rows) ∧
    forall request o next, (⟨request, .op o next⟩ : ModeTask) ∈ pool.tasks ->
      (customModes svc).Ready pool.store o ->
      (o.2 = .commit -> CommitsSoundly request.call pool.store.rows
        ((customModes svc).exec o pool.store).2.rows) ∧
      forall answer mode, next answer = .ret mode -> o.2 = .commit := by
  refine ⟨?_, ?_, ?_, ?_, ?_⟩
  · intro owner
    exact (Database.committed_le_possible _ _).trans ((holds_modes hreach).shared.capped owner)
  · intro modeId modeId' m m' hm hm' hactive hactive' howner hname
    exact active_names hreach hm hm' hactive hactive' howner hname
  · intro pool' hrun modeId m hm harchived
    exact archived_reaches hreach hrun hm harchived
  · intro pool' hstep
    exact commits_step hreach hstep
  · rintro request ⟨x, o⟩ next hmem hready
    refine ⟨?_, (commitsFirst_reaches hreach hmem).left⟩
    rintro rfl
    exact sound_commit hreach hmem hready

end Results

/-!
# Two creations at a time
-/

/-- A service with room for one mode of each owner. -/
def oneModeEach : ModeService where
  normalizeName name := name
  hash key := key.length
  maxPerUser := 1

def newMode (name : String) : NewMode where
  name := text name
  description := []
  instructions := text "x"
  executionStyle := .direct

/-- The second request waits for the lock, and then finds a mode. -/
def createsTogether : List (Pool.Act ModeRequest) :=
  [.start ⟨1, .create (.ofInt 1) (.ofInt 2) (newMode "a")⟩,
    .start ⟨2, .create (.ofInt 1) (.ofInt 3) (newMode "b")⟩] ++
    [.perform 0, .perform 1, .perform 1] ++ List.replicate 9 (.perform 0) ++
    List.replicate 4 (.perform 1)

/-- An update of the first version, and an archiving. -/
def changesInTurn : List (Pool.Act ModeRequest) :=
  [.start ⟨3, .update (.ofInt 1) (.ofInt 2) ⟨none, none, some (text "y"), none⟩ (some 1)⟩] ++
    List.replicate 4 (.perform 2) ++
    [.start ⟨4, .archive (.ofInt 1) (.ofInt 2)⟩] ++ List.replicate 6 (.perform 3)

/-- An act that the server goes along with. -/
def modeAct? (svc : ModeService) (pool : ModePool) : Pool.Act ModeRequest -> Bool
  | .start request => pool.tasks.all (fun t => t.call.xid != request.xid)
  | .perform i =>
      pool.tasks[i]?.all (fun t =>
        match t.prog with
        | .op o _ => (customModes svc).ready? pool.store o
        | _ => true)
  | _ => false

theorem allows_of_modeAct {svc : ModeService} {pool : ModePool} {act : Pool.Act ModeRequest}
    (h : modeAct? svc pool act = true) : Pool.Allows (modeRules svc) pool act := by
  cases act with
  | start request =>
      intro t ht
      exact bne_iff_ne.mp (List.all_eq_true.mp h t ht)
  | perform i =>
      intro t ht o next hprog
      have hperform : (pool.tasks[i]?).all _ = true := h
      rw [ht] at hperform
      have hready : (match t.prog with
        | .op o _ => (customModes svc).ready? pool.store o
        | _ => true) = true := hperform
      rw [hprog] at hready
      exact (customModes svc).ready_of_check hready
  | fault i => cases h
  | stop i => cases h

def playedModes (acts : List (Pool.Act ModeRequest)) : ModePool :=
  acts.foldl (Pool.play (modeRules oneModeEach)) ⟨.blank, []⟩

theorem custom_modes_kept_archived :
    ((playedModes (createsTogether ++ changesInTurn)).store.rows.get (.ofInt 2)).any
      (fun m => !m.isActive && m.version == 3) = true ∧
    (forall owner,
      activeCount (playedModes (createsTogether ++ changesInTurn)).store.rows owner ≤ 1) ∧
    forall pool', Pool.Reaches (modeRules oneModeEach)
      (playedModes (createsTogether ++ changesInTurn)) pool' ->
      (pool'.store.rows.get (.ofInt 2)).any (fun m => !m.isActive && m.version == 3) = true := by
  have hchecks : Pool.checks (modeRules oneModeEach) (modeAct? oneModeEach) ⟨.blank, []⟩
      (createsTogether ++ changesInTurn) = true := by
    decide +kernel
  have hreach : Pool.Reaches (modeRules oneModeEach) ⟨.blank, []⟩
      (playedModes (createsTogether ++ changesInTurn)) :=
    Pool.reaches_schedule (Pool.allowsAll_of_checks (fun _ _ h => allows_of_modeAct h) hchecks)
  have hkept := custom_modes_kept hreach
  have hmode : ((playedModes (createsTogether ++ changesInTurn)).store.rows.get (.ofInt 2)).any
      (fun m => !m.isActive && m.version == 3) = true := by
    decide +kernel
  refine ⟨hmode, hkept.left, ?_⟩
  intro pool' hrun
  rcases (Option.any_eq_true _ _).mp hmode with ⟨m, hm, hversion⟩
  have hactive : m.isActive = false := by
    rcases Bool.and_eq_true_iff.mp hversion with ⟨hinactive, _⟩
    simpa using hinactive
  have hlater := hkept.right.right.left pool' hrun (.ofInt 2) m hm hactive
  rw [hlater]
  exact hversion

end ConversationService
