import ConversationService.Model.CustomModeRequests
import ConversationService.Properties.ModeInvariants

/-!
# Accepted bodies of custom modes

The text that a validator leaves is more than blanks. An accepted mode passes the checks of
the table, so that the database refuses it only for its name.
-/

namespace ConversationService

open Python ClusteredTable Programs ReadCommitted ModeOp

namespace CustomModes

/-!
# Cleaning
-/

section Cleaning

variable {printable : CodePoint -> Bool} {limits : ModeLimits}

theorem cleanName_cases {v name : Text} (h : cleanName printable limits v = .ok name) :
    name = joinedWords (cleanText printable v false) ∧ name ≠ [] := by
  unfold cleanName at h
  dsimp only at h
  split at h
  · cases h
  · rename_i hne
    split at h
    · cases h
    · cases h
      exact ⟨rfl, hne⟩

theorem cleanInstructions_cases {v instructions : Text}
    (h : cleanInstructions printable limits v = .ok instructions) :
    instructions = cleanText printable v true ∧ instructions ≠ [] := by
  unfold cleanInstructions at h
  dsimp only at h
  split at h
  · cases h
  · rename_i hne
    split at h
    · cases h
    · cases h
      exact ⟨rfl, hne⟩

theorem notBlank_of_solid {s : Text} {c : CodePoint} (hc : c ∈ s) (hsolid : isSpace c = false) :
    notBlank s = true := by
  refine List.any_eq_true.mpr ⟨c, hc, ?_⟩
  rw [bne_iff_ne]
  rintro rfl
  exact absurd hsolid (by decide)

theorem notBlank_name {v name : Text} (h : cleanName printable limits v = .ok name) :
    notBlank name = true := by
  rcases cleanName_cases h with ⟨rfl, hne⟩
  rcases Words.unwords_ne_nil (fun _ hw => Words.isWord_of_mem_words hw) hne with ⟨c, hc, hsolid⟩
  exact notBlank_of_solid hc hsolid

theorem notBlank_instructions {v instructions : Text}
    (h : cleanInstructions printable limits v = .ok instructions) :
    notBlank instructions = true := by
  rcases cleanInstructions_cases h with ⟨rfl, hne⟩
  cases htext : cleanText printable v true with
  | nil => exact absurd htext hne
  | cons c rest =>
      refine notBlank_of_solid List.mem_cons_self
        (head_prefix_strip (s := v.filter (isKept printable true)) (t := c :: rest) ?_ rfl)
      show c :: rest <+: cleanText printable v true
      rw [htext]

theorem create_cases {body : CreateBody} {mode : NewMode}
    (h : body.validate printable limits = .ok mode) :
    cleanName printable limits body.name = .ok mode.name ∧
    cleanInstructions printable limits body.instructions = .ok mode.instructions := by
  unfold CreateBody.validate at h
  split at h
  · rename_i name description instructions hname _ hinstructions
    cases h
    exact ⟨hname, hinstructions⟩
  · cases h

end Cleaning

/-- A test by which the printable characters are those of ASCII. -/
def printableAscii (c : CodePoint) : Bool :=
  0x20 ≤ c.val && c.val < 0x7F

/-- A name with a tab, two blanks and a blank at its end. -/
def untidyBody : CreateBody :=
  ⟨text "A \t b  c ", none, text "Be\nbrief.", none⟩

end CustomModes

/-!
# Refused names
-/

section Refused

variable {svc : ModeService} {pool : ModePool} {request : ModeRequest}

/-- Another mode of the owner is active under the name. -/
def NameTaken (svc : ModeService) (rows : ModeRows) (owner modeId : UUID) (name : Text) : Prop :=
  exists other m, other ≠ modeId ∧ rows.get other = some m ∧ m.isActive = true ∧
    m.ownerUserId = owner ∧ m.nameNormalized = svc.normalizeName name

theorem unwritten_of_run {db : ModeDatabase} {s : ModeOp}
    {next : Option s.Res -> Prog (sessions modeTable) ModeExc (Option CustomMode)}
    (hstage : ModeStage svc request db
      (Prog.op (S := sessions modeTable) (request.xid, .run s) next))
    (hreads : ¬s.Reads) : IfOpen db request.xid (fun t => t.writes = []) := by
  generalize hprog :
    (Prog.op (S := sessions modeTable) (request.xid, .run s) next) = prog at hstage
  cases hstage with
  | begins =>
      unfold ModeRequest.program transaction at hprog
      cases hprog
  | locks | counts | inserts | updates | looks | archives =>
      rw [statements] at hprog
      cases hprog
  | locking _ _ _ _ hopen => exact hopen
  | counting _ _ _ _ hopen => exact fun t ht => (hopen t ht).left
  | inserting _ _ _ _ hopen => exact fun t ht => (hopen t ht).left
  | updating _ _ _ _ _ hopen => exact hopen
  | looking _ _ _ hopen => exact hopen
  | archiving _ _ _ hopen => exact fun t ht => (hopen t ht).left
  | settled prog hall _ =>
      subst hprog
      exact absurd (hall.left.right.right s rfl) hreads
  | fails prog hall =>
      subst hprog
      exact absurd (hall.left.left.right.right s rfl) hreads

theorem activeName_cases {m : CustomMode} {owner : UUID} {name : Text}
    (h : m.activeName = some (owner, name)) :
    m.isActive = true ∧ m.ownerUserId = owner ∧ m.nameNormalized = name := by
  unfold CustomMode.activeName at h
  split at h
  · rename_i hactive
    cases h
    exact ⟨hactive, rfl, rfl⟩
  · cases h

theorem clashes_active {rows : ModeRows} {modeId : UUID} {new : CustomMode}
    (hactive : new.isActive = true) :
    (customModes svc).clashes rows modeId new = true <->
      exists other m, other ≠ modeId ∧ rows.get other = some m ∧ m.isActive = true ∧
        m.ownerUserId = new.ownerUserId ∧ m.nameNormalized = new.nameNormalized := by
  have hindex : new.activeName = some (new.ownerUserId, new.nameNormalized) := if_pos hactive
  rw [Table.clashes_iff (D := customModes svc)]
  constructor
  · rintro ⟨i, other, m, hi, hne, hm, hname⟩
    cases hindex.symm.trans hi
    rcases activeName_cases hname with ⟨hm', howner, hname'⟩
    exact ⟨other, m, hne, hm, hm', howner, hname'⟩
  · rintro ⟨other, m, hne, hm, hm', howner, hname⟩
    refine ⟨_, other, m, hindex, hne, hm, ?_⟩
    rw [<- howner, <- hname]
    exact if_pos hm'

theorem outcome_unwritten {db : ModeDatabase} {x : Nat} {s : ModeOp}
    {t : Transaction UUID CustomMode Int} (ht : db.running.get x = some t)
    (hwrites : t.writes = []) :
    ((customModes svc).exec (x, .run s) db).1 =
      s.answer t.snapshot ((customModes svc).outcome db.now db.rows t s) := by
  show s.answer (db.transaction x).seen
    ((customModes svc).outcome db.now db.rows (db.transaction x) s) = _
  rw [Database.transaction_of_get ht, seen_of_unwritten hwrites]

/--
In every reachable state, the row of a mode whose body has been accepted is refused exactly
if another mode of the owner is active under its name, or its id is taken.
-/
theorem insert_refused_iff (hreach : Pool.Reaches (modeRules svc) ⟨.blank, []⟩ pool)
    {printable : CodePoint -> Bool} {limits : ModeLimits} {body : CustomModes.CreateBody}
    {mode : NewMode} (hvalid : body.validate printable limits = .ok mode) {owner modeId : UUID}
    {next : Option (Checked Unit) -> Prog (sessions modeTable) ModeExc (Option CustomMode)}
    (hmem : (⟨request, .op (request.xid, .run (.insertMode modeId owner mode)) next⟩ : ModeTask) ∈
      pool.tasks)
    (hready : (customModes svc).Ready pool.store
      (request.xid, .run (.insertMode modeId owner mode))) :
    ((customModes svc).exec (request.xid, .run (.insertMode modeId owner mode)) pool.store).1 =
        none <->
      (pool.store.rows.get modeId).isSome = true ∨
        NameTaken svc pool.store.rows owner modeId mode.name := by
  rcases CustomModes.create_cases hvalid with ⟨hname, hinstructions⟩
  rcases Table.exists_of_isSome hready.left with ⟨t, ht⟩
  have hwrites : t.writes = [] :=
    unwritten_of_run ((holds_modes hreach).each _ hmem).right (fun hreads => hreads) t ht
  have hput : exists new, inserted svc pool.store.now owner mode = .put new ∧
      new.isActive = true ∧ new.ownerUserId = owner ∧
      new.nameNormalized = svc.normalizeName mode.name := by
    unfold inserted
    rw [dif_pos ⟨CustomModes.notBlank_name hname,
      CustomModes.notBlank_instructions hinstructions⟩]
    exact ⟨_, rfl, rfl, rfl, rfl⟩
  rcases hput with ⟨new, hnew, hactive, howner, hnormalized⟩
  have houtcome : (customModes svc).outcome pool.store.now pool.store.rows t
      (.insertMode modeId owner mode) = (customModes svc).result pool.store.rows modeId
        (attempt svc pool.store.now (.insertMode modeId owner mode)
          (pool.store.rows.get modeId)) := by
    show (customModes svc).result (t.current pool.store.rows) modeId _ = _
    rw [current_of_unwritten hwrites]
  rw [outcome_unwritten ht hwrites, houtcome]
  cases hrow : pool.store.rows.get modeId with
  | some old => exact ⟨fun _ => Or.inl rfl, fun _ => rfl⟩
  | none =>
      rw [show attempt svc pool.store.now (.insertMode modeId owner mode) none = .put new
        from hnew]
      unfold Table.result NameTaken
      dsimp only
      rw [<- howner, <- hnormalized, <- clashes_active hactive]
      by_cases hclash : (customModes svc).clashes pool.store.rows modeId new = true
      · rw [if_pos hclash]
        exact ⟨fun _ => Or.inr hclash, fun _ => rfl⟩
      · rw [if_neg hclash]
        constructor
        · intro h
          cases h
        · rintro (h | h)
          · cases h
          · exact absurd h hclash

end Refused

def twoModesEach : ModeService :=
  { oneModeEach with maxPerUser := 2 }

/-- The mode that `untidyBody` is accepted as. -/
def tidyMode : NewMode :=
  ⟨text "A b c", [], text "Be\nbrief.", .direct⟩

/-- The second request has counted the mode of the first. -/
def createsAgain : List (Pool.Act ModeRequest) :=
  [.start ⟨1, .create (.ofInt 1) (.ofInt 2) tidyMode⟩] ++ List.replicate 10 (.perform 0) ++
    [.start ⟨2, .create (.ofInt 1) (.ofInt 3) tidyMode⟩] ++ List.replicate 6 (.perform 1)

def playedAgain : ModePool :=
  createsAgain.foldl (Pool.play (modeRules twoModesEach)) ⟨.blank, []⟩

def inserts (request : ModeRequest) (owner modeId : UUID) (mode : NewMode) (t : ModeTask) :
    Bool :=
  match t.prog with
  | .op (x, .run (.insertMode k o new)) _ =>
      (t.call, x, k, o, new) == (request, request.xid, modeId, owner, mode)
  | _ => false

theorem eq_of_inserts {request : ModeRequest} {owner modeId : UUID} {mode : NewMode}
    {t : ModeTask} (h : inserts request owner modeId mode t = true) :
    exists next, t = ⟨request, .op (request.xid, .run (.insertMode modeId owner mode)) next⟩ := by
  rcases t with ⟨call, prog⟩
  unfold inserts at h
  dsimp only at h
  split at h
  · rename_i x k o new next
    cases beq_iff_eq.mp h
    exact ⟨next, rfl⟩
  · cases h

theorem insert_refused_iff_again :
    ((customModes twoModesEach).exec (2, .run (.insertMode (.ofInt 3) (.ofInt 1) tidyMode))
      playedAgain.store).1 = none := by
  have hchecks : Pool.checks (modeRules twoModesEach) (modeAct? twoModesEach) ⟨.blank, []⟩
      createsAgain = true := by
    decide +kernel
  have hinserts : playedAgain.tasks.any
      (inserts ⟨2, .create (.ofInt 1) (.ofInt 3) tidyMode⟩ (.ofInt 1) (.ofInt 3) tidyMode) =
        true := by
    decide +kernel
  have hready : (customModes twoModesEach).ready? playedAgain.store
      (2, .run (.insertMode (.ofInt 3) (.ofInt 1) tidyMode)) = true := by
    decide +kernel
  have htaken : (playedAgain.store.rows.get (.ofInt 2)).any (fun m =>
      m.isActive && (m.ownerUserId == .ofInt 1 &&
        m.nameNormalized == twoModesEach.normalizeName tidyMode.name)) = true := by
    decide +kernel
  rcases List.any_eq_true.mp hinserts with ⟨t, ht, hinserting⟩
  rcases eq_of_inserts hinserting with ⟨next, rfl⟩
  rcases (Option.any_eq_true _ _).mp htaken with ⟨m, hm, hname⟩
  rcases Bool.and_eq_true_iff.mp hname with ⟨hactive, hname⟩
  rcases Bool.and_eq_true_iff.mp hname with ⟨howner, hname⟩
  refine (insert_refused_iff (Pool.reaches_schedule
    (Pool.allowsAll_of_checks (fun _ _ h => allows_of_modeAct h) hchecks))
    (show CustomModes.untidyBody.validate CustomModes.printableAscii .default = .ok tidyMode
      from rfl) ht ((customModes twoModesEach).ready_of_check hready)).mpr (Or.inr ?_)
  exact ⟨.ofInt 2, m, by decide, hm, hactive, beq_iff_eq.mp howner, beq_iff_eq.mp hname⟩

end ConversationService
