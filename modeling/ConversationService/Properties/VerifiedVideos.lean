import ConversationService.Properties.RenderLeases

/-!
# Ready animations and their videos

The video of an artifact has a name that only depends on the artifact, so that a late worker
may replace or remove the bytes of the one that has made the artifact ready. The stored
video is the verified one as long as no put or delete changes the bytes that a ready row
refers to or that another worker has verified and not yet recorded.
-/

namespace ConversationService

open Python ClusteredTable Programs

/-- Every ready animation has its file, and it is the one of which the row speaks. -/
def VideosVerified (cfg : ArtifactSettings) (s : ArtifactStore) : Prop :=
  forall id row, s.row id = some row -> row.status = .ready -> row.artifactType = .manim ->
    exists key object, row.objectKey = some key ∧ s.objects.get key = some object ∧
      (Media.validateMp4 object.bytes cfg.maxVideoBytes).isSome = true ∧
      row.sizeBytes = some object.bytes.length ∧
      row.checksumSha256 = some (sha256Hex object.bytes)

/-- What a worker knows of a video that it has verified. -/
structure VideoFact where
  key : Text
  size : Nat
  checksum : Text
deriving DecidableEq, Repr

def ArtifactStore.HasVideo (cfg : ArtifactSettings) (s : ArtifactStore) (fact : VideoFact) :
    Prop :=
  exists object, s.objects.get fact.key = some object ∧
    (Media.validateMp4 object.bytes cfg.maxVideoBytes).isSome = true ∧
    fact.size = object.bytes.length ∧ fact.checksum = sha256Hex object.bytes

namespace ArtifactOp

/-- The operation records the video as that of a ready artifact. -/
def RecordsVideo : ArtifactOp -> VideoFact -> Prop
  | .cas _ _ (.ready key _ size checksum), fact => fact = ⟨key, size, checksum⟩
  | _, _ => False

/-- The operation stands between the verification of a video and its record. -/
def UsesVideo : ArtifactOp -> VideoFact -> Prop
  | .statObject key, fact => fact.key = key ∨
      exists id, key = Fingerprint.thumbnailObjectKey id ∧ fact.key = Fingerprint.videoObjectKey id
  | .downloadThumbnail id _, fact => fact.key = Fingerprint.videoObjectKey id
  | .putObject key _ _ _, fact =>
      exists id, key = Fingerprint.thumbnailObjectKey id ∧ fact.key = Fingerprint.videoObjectKey id
  | .cas _ _ (.ready key _ _ _), fact => fact.key = key
  | _, _ => False

/-- The bytes pass the verification. -/
def Verifies (cfg : ArtifactSettings) (key : Text) (bytes : Bytes) (fact : VideoFact) : Prop :=
  exists info, Media.validateMp4 bytes cfg.maxVideoBytes = some info ∧
    fact = ⟨key, info.size, info.sha256⟩

def ShowsVideo (cfg : ArtifactSettings) : (o : ArtifactOp) -> o.Res -> VideoFact -> Prop
  | .getObject key, some bytes, fact => Verifies cfg key bytes fact
  | .putObject key bytes _ _, _, fact => Verifies cfg key bytes fact
  | _, _, _ => False

/-- The operation removes the object or writes other bytes. -/
def Spoils (o : ArtifactOp) (s : ArtifactStore) (key : Text) : Prop :=
  match o with
  | .putObject key' bytes _ _ =>
      key' = key ∧ (s.objects.get key).map StoredObject.bytes ≠ some bytes
  | .deleteObject key' => key' = key
  | _ => False

end ArtifactOp

/-- The task may record the video without verifying it again. -/
def IsVerified (t : ArtifactTask) (key : Text) : Prop :=
  exists fact : VideoFact, fact.key = key ∧ Prog.Relies (S := artifactStorage)
    ArtifactOp.RecordsVideo ArtifactOp.UsesVideo fact t.prog

/--
The bytes that the task replaces or removes next are not those of a ready artifact, and no
worker has verified them and not yet recorded that.
-/
def SparesVideos (pool : ArtifactPool) (t : ArtifactTask) : Prop :=
  forall o next key, t.prog = .op o next -> o.Spoils pool.store key ->
    (forall id row, pool.store.row id = some row -> row.status = .ready ->
      row.objectKey ≠ some key) ∧
    forall t', t' ∈ pool.tasks -> ¬IsVerified t' key

/--
Only this code changes objects, and only a missing object is reported. Anything may raise
and any process may stop.
-/
def videoRules (svc : ArtifactService) (permits : ArtifactPool -> ArtifactTask -> Prop) :
    Rules ArtifactCall artifactStorage ArtifactExc ArtifactAnswer ArtifactStore :=
  { artifactRules svc permits False with
    mayStart := fun pool call => forall id, call = .markObjectMissing id ->
      pool.store.objects.get (Fingerprint.videoObjectKey id) = none }

/-!
# One operation
-/

section Statements

variable {cfg : ArtifactSettings} {s : ArtifactStore} {o : ArtifactOp} {fact : VideoFact}

theorem video_ne_thumbnail (id id' : UUID) :
    Fingerprint.videoObjectKey id ≠ Fingerprint.thumbnailObjectKey id' := by
  intro heq
  have hvideo : (Fingerprint.videoObjectKey id).getLast? = (text "/video.mp4").getLast? := by
    unfold Fingerprint.videoObjectKey
    rw [List.getLast?_append]
    rfl
  have hthumb : (Fingerprint.thumbnailObjectKey id').getLast? =
      (text "/thumb.png").getLast? := by
    unfold Fingerprint.thumbnailObjectKey
    rw [List.getLast?_append]
    rfl
  have hdiffer : (text "/video.mp4").getLast? ≠ (text "/thumb.png").getLast? := by decide
  exact hdiffer (hvideo.symm.trans ((congrArg List.getLast? heq).trans hthumb))

theorem objects_updateRow (id : UUID) (select : ArtifactRow -> Bool)
    (change : ArtifactRow -> ArtifactRow) (events : List ArtifactEvent) :
    (s.updateRow id select change events).2.objects = s.objects := by
  unfold ArtifactStore.updateRow
  cases s.row id with
  | none => rfl
  | some row =>
      dsimp only
      split
      · rfl
      · rfl

theorem bytes_artifactOp {key : Text} {object : StoredObject} (h : ¬o.Spoils s key)
    (hobject : s.objects.get key = some object) :
    exists object', (o.exec s).2.objects.get key = some object' ∧
      object'.bytes = object.bytes := by
  have hsame : (o.exec s).2.objects.get key = s.objects.get key ->
      exists object', (o.exec s).2.objects.get key = some object' ∧
        object'.bytes = object.bytes :=
    fun heq => ⟨object, heq.trans hobject, rfl⟩
  cases o with
  | putObject key' bytes contentType metadata =>
      by_cases hkey : key' = key
      · subst hkey
        have hbytes : (s.objects.get key').map StoredObject.bytes = some bytes :=
          not_not.mp (fun hne => h ⟨rfl, hne⟩)
        rw [hobject] at hbytes
        exact ⟨_, Partition.get_upsert_self _ _ _, (Option.some.inj hbytes).symm⟩
      · exact hsame (Partition.get_upsert_ne _ _ (fun heq => hkey heq.symm))
  | deleteObject key' =>
      apply hsame
      show (s.objects.erase key').get key = s.objects.get key
      rw [Partition.get_erase, if_neg (fun heq => h heq.symm)]
  | register id new ref =>
      apply hsame
      unfold ArtifactOp.exec
      dsimp only
      split
      · rfl
      · split
        · rfl
        · rfl
  | claim id worker period =>
      exact hsame (congrArg (Partition.get · key) (objects_updateRow _ _ _ _))
  | cas id allowedFrom change =>
      exact hsame (congrArg (Partition.get · key) (objects_updateRow _ _ _ _))
  | release id => exact hsame (congrArg (Partition.get · key) (objects_updateRow _ _ _ _))
  | backoff id delay => exact hsame (congrArg (Partition.get · key) (objects_updateRow _ _ _ _))
  | submit id row =>
      apply hsame
      unfold ArtifactOp.exec
      dsimp only
      cases s.backend.submit with
      | ok job => rfl
      | error code => rfl
  | _ => exact hsame rfl

theorem hasVideo_exec (h : s.HasVideo cfg fact) (hspoils : ¬o.Spoils s fact.key) :
    (o.exec s).2.HasVideo cfg fact := by
  rcases h with ⟨object, hobject, hvalid, hsize, hchecksum⟩
  rcases bytes_artifactOp hspoils hobject with ⟨object', hobject', hbytes⟩
  exact ⟨object', hobject', by rw [hbytes]; exact hvalid, by rw [hbytes]; exact hsize,
    by rw [hbytes]; exact hchecksum⟩

theorem info_of_verifies {key : Text} {bytes : Bytes}
    (h : ArtifactOp.Verifies cfg key bytes fact) :
    fact.key = key ∧ (Media.validateMp4 bytes cfg.maxVideoBytes).isSome = true ∧
      fact.size = bytes.length ∧ fact.checksum = sha256Hex bytes := by
  rcases h with ⟨info, hvalid, rfl⟩
  refine ⟨rfl, by rw [hvalid]; rfl, (Media.size_of_validateMp4 hvalid).left, ?_⟩
  exact Media.sha256_of_validateMp4 hvalid

theorem hasVideo_shown (h : o.ShowsVideo cfg (o.exec s).1 fact) :
    (o.exec s).2.HasVideo cfg fact := by
  cases o with
  | getObject key =>
      cases hobject : s.objects.get key with
      | none =>
          have hanswer : (ArtifactOp.exec (.getObject key) s).1 = none := by
            show (s.objects.get key).map _ = none
            rw [hobject]
            rfl
          rw [hanswer] at h
          exact h.elim
      | some object =>
          have hanswer : (ArtifactOp.exec (.getObject key) s).1 = some object.bytes := by
            show (s.objects.get key).map _ = some object.bytes
            rw [hobject]
            rfl
          rw [hanswer] at h
          rcases info_of_verifies h with ⟨hkey, hrest⟩
          exact ⟨object, by rw [hkey]; exact hobject, hrest⟩
  | putObject key bytes contentType metadata =>
      rcases info_of_verifies h with ⟨hkey, hrest⟩
      refine ⟨⟨bytes, contentType, metadata, s.now⟩, ?_, hrest⟩
      rw [hkey]
      exact Partition.get_upsert_self _ _ _
  | _ => exact h.elim

/-- Between the verification and the record nothing spoils the video. -/
theorem not_spoils_of_uses (h : o.UsesVideo fact) : ¬o.Spoils s fact.key := by
  intro hspoils
  cases o with
  | putObject key bytes contentType metadata =>
      rcases h with ⟨id, hkey, hvideo⟩
      exact video_ne_thumbnail id id (hvideo.symm.trans (hspoils.left.symm.trans hkey))
  | deleteObject key => exact h
  | _ => exact hspoils

theorem uses_of_records (h : o.RecordsVideo fact) : o.UsesVideo fact := by
  cases o with
  | cas id allowedFrom change =>
      cases change with
      | ready key thumbnailKey size checksum =>
          rw [show fact = ⟨key, size, checksum⟩ from h]
          rfl
      | _ => exact h.elim
  | _ => exact h.elim

end Statements

/-!
# What the programs know
-/

section Programs

variable {svc : ArtifactService} {call : ArtifactCall} {id : UUID}

/-- The program records no video that it has not verified. -/
abbrev RecordsKnown {alpha : Type} (svc : ArtifactService) (known : VideoFact -> Prop)
    (p : ArtifactProg alpha) : Prop :=
  Prog.Informed (S := artifactStorage) ArtifactOp.RecordsVideo (fun o _ => o.UsesVideo)
    (ArtifactOp.ShowsVideo svc.cfg) known p (fun _ _ => True)

theorem recordsKnown_anyway {alpha : Type} {known : VideoFact -> Prop} {p : ArtifactProg alpha}
    (h : RecordsKnown svc (fun _ => False) p) : RecordsKnown svc known p :=
  Prog.informed_mono h (fun _ hfalse => hfalse.elim) (fun _ _ _ _ _ => trivial)

theorem recordsKnown_of_allOps {alpha : Type} {P : ArtifactOp -> Prop}
    {known : VideoFact -> Prop} {p : ArtifactProg alpha} (h : Prog.AllOps P p)
    (hP : forall o fact, P o -> ¬o.RecordsVideo fact) : RecordsKnown svc known p :=
  Prog.informed_of_allOps (Prog.allOps_mono h (fun o ho fact => hP o fact ho))

theorem recordsKnown_adopt {known : VideoFact -> Prop} {info : MediaInfo}
    (hknown : known ⟨Fingerprint.videoObjectKey id, info.size, info.sha256⟩) :
    RecordsKnown svc known (ArtifactService.adopt id info) := by
  refine ⟨fun _ h => h.elim, fun thumb => ?_, trivial⟩
  refine ⟨fun fact hfact => ?_, fun _ => trivial, trivial⟩
  rw [show fact = ⟨Fingerprint.videoObjectKey id, info.size, info.sha256⟩ from hfact]
  exact Or.inr ⟨hknown, Or.inr ⟨id, rfl, rfl⟩⟩

theorem recordsKnown_adoptExisting :
    RecordsKnown svc (fun _ => False) (svc.adoptExistingObject id) := by
  refine ⟨fun _ h => h.elim, fun stored => ?_, trivial⟩
  cases stored with
  | none => trivial
  | some stored =>
      refine ⟨fun _ h => h.elim, fun file => ?_, trivial⟩
      cases file with
      | none => trivial
      | some file =>
          dsimp only [Prog.bind]
          cases hvalid : Media.validateMp4 file svc.cfg.maxVideoBytes with
          | none => exact ⟨fun _ h => h.elim, fun _ => trivial, trivial⟩
          | some info => exact recordsKnown_adopt (Or.inl ⟨info, hvalid, rfl⟩)

theorem keeps_storeThumbnail (row : ArtifactRow) {fact : VideoFact}
    (hfact : fact.key = Fingerprint.videoObjectKey id) :
    Prog.Informed (S := artifactStorage) ArtifactOp.RecordsVideo (fun o _ => o.UsesVideo)
      (ArtifactOp.ShowsVideo svc.cfg) (fun fact' => fact' = fact)
      (ArtifactService.storeThumbnail id row) (fun k _ => k fact) := by
  have huses : Prog.AllOps (fun o : ArtifactOp => (forall fact', ¬o.RecordsVideo fact') ∧
      forall fact', fact' = fact -> Option o.Res -> o.UsesVideo fact')
      (ArtifactService.storeThumbnail id row) := by
    refine Prog.allOps_tryCatch ?_ (fun _ => trivial)
    refine Prog.allOps_bind (allOps_artifactCall ⟨fun _ h => h, fun _ heq _ => heq ▸ hfact⟩) ?_
    intro data
    cases data with
    | none => trivial
    | some data =>
        dsimp only
        split
        · trivial
        · refine Prog.allOps_bind (allOps_artifactCall ⟨fun _ h => h, ?_⟩) (fun _ => trivial)
          intro fact' heq _
          rw [heq]
          exact ⟨id, rfl, hfact⟩
  exact Prog.informed_mono (Prog.informed_kept huses) (fun _ h => h)
    (fun _ _ _ hmore hk => hmore fact (hk fact rfl))

theorem recordsKnown_storeVideo (row : ArtifactRow) {file : Bytes} {info : MediaInfo}
    (hvalid : Media.validateMp4 file svc.cfg.maxVideoBytes = some info) :
    RecordsKnown svc (fun _ => False) (ArtifactService.storeVideo id row file info) := by
  refine ⟨fun _ h => h.elim, fun _ => ?_, trivial⟩
  refine ⟨fun _ h => h.elim, fun stored => ?_, trivial⟩
  show RecordsKnown svc _ (if stored.any (fun object => object.size = info.size) then _
    else Prog.raise .osError)
  split
  · have hvideo : (VideoFact.mk (Fingerprint.videoObjectKey id) info.size info.sha256).key =
        Fingerprint.videoObjectKey id := rfl
    refine Prog.informed_bind (Prog.informed_mono (keeps_storeThumbnail row hvideo) ?_ ?_)
    · intro fact hfact
      rw [hfact]
      -- what the upload has shown is still known behind `stat`
      exact Or.inr ⟨Or.inl ⟨info, hvalid, rfl⟩, Or.inl rfl⟩
    · intro k k' thumb hmore hk
      refine ⟨fun fact hfact => ?_, fun _ => trivial, trivial⟩
      rw [show fact = ⟨Fingerprint.videoObjectKey id, info.size, info.sha256⟩ from hfact]
      exact hmore _ hk
  · trivial

theorem not_records_of_plain (o : ArtifactOp) (fact : VideoFact) (h : o.Plain svc.cfg call) :
    ¬o.RecordsVideo fact := by
  intro hrecords
  apply h.ordinary
  cases o with
  | cas id allowedFrom change =>
      cases change with
      | ready key thumbnailKey size checksum => trivial
      | _ => exact hrecords.elim
  | _ => exact hrecords.elim

theorem not_records_of_ending (o : ArtifactOp) (fact : VideoFact)
    (h : o.Ending svc.cfg call) : ¬o.RecordsVideo fact := by
  intro hrecords
  have hsets := h.sets
  cases o with
  | cas id allowedFrom change => exact hsets
  | _ => exact hrecords

theorem kind_recordsKnown :
    ArtifactKind svc call (fun p => RecordsKnown svc (fun _ => False) p) where
  plain h := recordsKnown_of_allOps h not_records_of_plain
  adopt _ _ := recordsKnown_adoptExisting
  store _ row _ _ _ hvalid := recordsKnown_storeVideo row hvalid
  submit id row _ _ := by
    refine ⟨fun _ h => h.elim, fun answer => ?_, trivial⟩
    cases answer with
    | ok job => exact ⟨fun _ h => h.elim, fun _ => trivial, trivial⟩
    | error code => exact ⟨fun _ h => h.elim, fun _ => trivial, trivial⟩
  bind hp hf := Prog.informed_bind (Prog.informed_mono hp (fun _ h => h)
    (fun _ _ a _ _ => recordsKnown_anyway (hf a)))
  ending h := recordsKnown_of_allOps h not_records_of_ending
  tryCatch hp hhandler :=
    Prog.informed_tryCatch hp (fun _ e => recordsKnown_anyway (hhandler e))

end Programs

/-!
# Runs
-/

section Runs

variable {svc : ArtifactService} {s : ArtifactStore} {call : ArtifactCall} {o : ArtifactOp}
  {next : Option o.Res -> ArtifactProg ArtifactAnswer}

/-- What a task relies on is in the store. -/
structure VideoKnown (svc : ArtifactService) (s : ArtifactStore) (t : ArtifactTask) : Prop where
  sent : Prog.AllOps (ArtifactOp.SentBy svc.cfg t.call) t.prog
  informed : exists known, RecordsKnown svc known t.prog ∧ forall fact, known fact ->
    Prog.Relies (S := artifactStorage) ArtifactOp.RecordsVideo ArtifactOp.UsesVideo fact
      t.prog -> s.HasVideo svc.cfg fact

theorem verified_kept {id : UUID} {row row' : ArtifactRow}
    (hverified : VideosVerified svc.cfg s)
    (hspares : forall key, o.Spoils s key -> forall id row, s.row id = some row ->
      row.status = .ready -> row.objectKey ≠ some key)
    (hrow : s.row id = some row) (hready : row.status = .ready)
    (hmanim : row.artifactType = .manim) (hkey : row'.objectKey = row.objectKey)
    (hsize : row'.sizeBytes = row.sizeBytes)
    (hchecksum : row'.checksumSha256 = row.checksumSha256) :
    exists key object, row'.objectKey = some key ∧
      (o.exec s).2.objects.get key = some object ∧
      (Media.validateMp4 object.bytes svc.cfg.maxVideoBytes).isSome = true ∧
      row'.sizeBytes = some object.bytes.length ∧
      row'.checksumSha256 = some (sha256Hex object.bytes) := by
  rcases hverified id row hrow hready hmanim with
    ⟨key, object, hobjectKey, hobject, hvalid, hobjectSize, hobjectSum⟩
  have hspoils : ¬o.Spoils s key :=
    fun hspoils => hspares key hspoils id row hrow hready hobjectKey
  rcases bytes_artifactOp hspoils hobject with ⟨object', hobject', hbytes⟩
  refine ⟨key, object', hkey.trans hobjectKey, hobject', ?_, ?_, ?_⟩
  · rw [hbytes]
    exact hvalid
  · rw [hbytes, hsize]
    exact hobjectSize
  · rw [hbytes, hchecksum]
    exact hobjectSum

theorem verified_exec {pool : ArtifactPool} (hverified : VideosVerified svc.cfg pool.store)
    (hknown : VideoKnown svc pool.store ⟨call, .op o next⟩)
    (hpermits : SparesVideos pool ⟨call, .op o next⟩) :
    VideosVerified svc.cfg (o.exec pool.store).2 := by
  have hsent : o.SentBy svc.cfg call := hknown.sent.left
  have hspares : forall key, o.Spoils pool.store key -> forall id row,
      pool.store.row id = some row -> row.status = .ready -> row.objectKey ≠ some key :=
    fun key hspoils => (hpermits o next key rfl hspoils).left
  intro id row hrow hready hmanim
  cases artifactStep_exec pool.store id o with
  | same hsame hevents =>
      exact verified_kept hverified hspares (hsame.symm.trans hrow) hready hmanim rfl rfl rfl
  | submitted row' job ho hanswer hsame hevents =>
      exact verified_kept hverified hspares (hsame.symm.trans hrow) hready hmanim rfl rfl rfl
  | registered new ref ho hnone hcontent hput hevents =>
      rw [hput] at hrow
      cases hrow
      subst ho
      rcases hsent.right.status with hpending | ⟨_, hmermaid⟩
      · cases hpending.symm.trans hready
      · cases hmermaid.symm.trans hmanim
  | claimed worker period old ho hold hactive hfree hput hevents =>
      rw [hput] at hrow
      cases hrow
      exact verified_kept hverified hspares hold hready hmanim rfl rfl rfl
  | changed allowedFrom change old ho hold hallowed hput hevents =>
      rw [hput] at hrow
      cases hrow
      subst ho
      cases change with
      | ready key thumbnailKey size checksum =>
          rcases hknown.informed with ⟨known, hinformed, hvideos⟩
          have hvideo : pool.store.HasVideo svc.cfg ⟨key, size, checksum⟩ :=
            hvideos _ (hinformed.left _ rfl) (Or.inl rfl)
          rcases hasVideo_exec (o := .cas id allowedFrom (.ready key thumbnailKey size checksum))
            hvideo (fun h => h) with ⟨object, hobject, hvalid, hsize, hchecksum⟩
          exact ⟨key, object, rfl, hobject, hvalid, congrArg some hsize,
            congrArg some hchecksum⟩
      | moveTo status =>
          have hstatus := hsent.right.right
          rw [show status = .ready from hready] at hstatus
          simp at hstatus
      | _ => cases hready
  | leased lease old ho hlease hold hput hevents =>
      rw [hput] at hrow
      cases hrow
      exact verified_kept hverified hspares hold hready hmanim rfl rfl rfl

theorem videoKnown_next (h : VideoKnown svc s ⟨call, .op o next⟩) :
    VideoKnown svc (o.exec s).2 ⟨call, next (some (o.exec s).1)⟩ := by
  rcases h.informed with ⟨known, hinformed, hvideos⟩
  refine ⟨h.sent.right _, _, hinformed.right.left (o.exec s).1, ?_⟩
  intro fact hfact hrelies
  rcases hfact with hshown | ⟨hold, huses⟩
  · exact hasVideo_shown hshown
  · have hbefore := hvideos fact hold (Or.inr ⟨huses, _, hrelies⟩)
    exact hasVideo_exec hbefore (not_spoils_of_uses huses)

theorem videoKnown_fault (h : VideoKnown svc s ⟨call, .op o next⟩) :
    VideoKnown svc s ⟨call, next none⟩ := by
  rcases h.informed with ⟨known, hinformed, hvideos⟩
  refine ⟨h.sent.right none, _, hinformed.right.right, ?_⟩
  intro fact hfact hrelies
  exact hvideos fact hfact.left (Or.inr ⟨hfact.right, none, hrelies⟩)

theorem localProof_videos :
    Pool.LocalProof (videoRules svc SparesVideos)
      (fun pool => VideosVerified svc.cfg pool.store) (VideoKnown svc) (fun _ _ => True) where
  symm _ _ _ := trivial
  own before after call o next s h hpermits := by
    have hknown := h.each ⟨call, .op o next⟩ (by simp)
    exact ⟨verified_exec h.shared hknown hpermits, videoKnown_next hknown⟩
  ownFault before after call o next s h _ :=
    ⟨h.shared, videoKnown_fault (h.each ⟨call, .op o next⟩ (by simp))⟩
  stable pool call o next q h hmem hpermits hq _ := by
    have hknown := h.each q hq
    rcases hknown.informed with ⟨known, hinformed, hvideos⟩
    refine ⟨hknown.sent, known, hinformed, ?_⟩
    intro fact hfact hrelies
    refine hasVideo_exec (hvideos fact hfact hrelies) ?_
    intro hspoils
    exact (hpermits o next fact.key rfl hspoils).right q hq ⟨fact, rfl, hrelies⟩
  apartNext _ _ _ _ _ _ _ _ _ _ := trivial
  apartFault _ _ _ _ _ _ _ _ _ _ := trivial
  stopped before after call o next s h _ _ := h.shared
  started pool call h _ :=
    ⟨h.shared, ⟨kind_program kind_sent, fun _ => False, kind_program kind_recordsKnown,
      fun _ hfalse => hfalse.elim⟩, fun _ _ => trivial⟩
  moved tasks s t h hmove := by
    have hobjects : t.objects = s.objects := by
      rcases hmove.objects with hfalse | hsame
      · exact hfalse.elim
      · exact hsame
    constructor
    · intro id row hrow hready hmanim
      have hold : s.row id = some row := by
        show s.artifacts.get id = some row
        rw [← hmove.artifacts]
        exact hrow
      rcases h.shared id row hold hready hmanim with ⟨key, object, hkey, hobject, hrest⟩
      refine ⟨key, object, hkey, ?_, hrest⟩
      show t.objects.get key = some object
      rw [hobjects]
      exact hobject
    · intro q hq
      have hknown := h.each q hq
      rcases hknown.informed with ⟨known, hinformed, hvideos⟩
      refine ⟨hknown.sent, known, hinformed, ?_⟩
      intro fact hfact hrelies
      rcases hvideos fact hfact hrelies with ⟨object, hobject, hrest⟩
      exact ⟨object, by rw [hobjects]; exact hobject, hrest⟩

/--
In every run whose puts and deletes spare the videos of ready artifacts and those that a
worker has verified, a ready animation has its verified file.
-/
theorem ready_videos_verified {pool : ArtifactPool}
    (hreach : Pool.Reaches (videoRules svc SparesVideos) ⟨.blank, []⟩ pool) :
    VideosVerified svc.cfg pool.store := by
  have hempty : Pool.Holds (fun pool => VideosVerified svc.cfg pool.store) (VideoKnown svc)
      (fun _ _ => True) ⟨.blank, []⟩ :=
    ⟨fun _ _ h => (by cases h), fun _ h => (by cases h), List.Pairwise.nil⟩
  exact (Pool.holds_reaches localProof_videos hreach hempty).shared

end Runs

/-!
# A video that a late worker replaces
-/

def boxOf (type : Bytes) (size : Nat) : Bytes :=
  [0, 0, UInt8.ofNat (size / 256), UInt8.ofNat (size % 256)] ++ type ++
    List.replicate (size - 8) 0

def videoOf (size : Nat) : Bytes :=
  boxOf Media.ftyp 8 ++ boxOf Media.moov 8 ++ boxOf Media.mdat (size - 16)

def ArtifactStore.rendered (download : Download) : ArtifactStore :=
  { ArtifactStore.blank with
    backend :=
      { rendererVersion := []
        submit := .ok ⟨text "j", text "ready", none⟩
        status := some ⟨text "j", text "ready", none⟩
        download := download
        thumbnail := none } }

/-- The first worker has its video rendered and downloads it. -/
def downloaded : List (Pool.Act ArtifactCall) :=
  [.start (.register animation), .perform 0, .perform 0, .start (.advance animationId 1)] ++
    List.replicate 9 (.perform 1)

/-- The second one finds no file and has the video rendered again. -/
def renderedAgain : List (Pool.Act ArtifactCall) :=
  [.start (.advance animationId 2)] ++ List.replicate 11 (.perform 2)

/-- It stores the new file, and then the first one stores its own. -/
def storedTwice : List (Pool.Act ArtifactCall) :=
  List.replicate 6 (.perform 2) ++ [.perform 1]

def freeVideoRules :
    Rules ArtifactCall artifactStorage ArtifactExc ArtifactAnswer ArtifactStore :=
  videoRules artifactService (fun _ _ => True)

def ArtifactStore.later (s : ArtifactStore) (now : Nat) (download : Download) : ArtifactStore :=
  { s with now := now, backend := { s.backend with download := download } }

def downloadedPool : ArtifactPool :=
  downloaded.foldl (Pool.play freeVideoRules) ⟨.rendered (.file (videoOf 1024)), []⟩

/-- Behind the lease of the first worker its file is gone. -/
def renderedPool : ArtifactPool :=
  renderedAgain.foldl (Pool.play freeVideoRules)
    ⟨downloadedPool.store.later (61 * second) .gone, downloadedPool.tasks⟩

def replacedPool : ArtifactPool :=
  storedTwice.foldl (Pool.play freeVideoRules)
    ⟨renderedPool.store.later (62 * second) (.file (videoOf 1025)), renderedPool.tasks⟩

theorem step_download {pool : ArtifactPool} {now : Nat} (download : Download)
    (h : pool.store.now ≤ now) :
    Pool.Step freeVideoRules pool ⟨pool.store.later now download, pool.tasks⟩ :=
  Pool.Step.move pool.tasks pool.store _ ⟨h, rfl, rfl, Or.inr rfl⟩

def reportsNothing : Pool.Act ArtifactCall -> Bool
  | .start (.markObjectMissing _) => false
  | _ => true

theorem reaches_videos {pool : ArtifactPool} {acts : List (Pool.Act ArtifactCall)}
    (h : acts.all reportsNothing = true) :
    Pool.Reaches freeVideoRules pool (acts.foldl (Pool.play freeVideoRules) pool) := by
  apply Pool.reaches_schedule
  apply Pool.allowsAll_of_forall
  intro act hact pool'
  have hreports := List.all_eq_true.mp h act hact
  cases act with
  | start call =>
      intro id hcall
      rw [hcall] at hreports
      cases hreports
  | perform i => exact fun _ _ => trivial
  | fault i => exact fun _ _ _ _ => trivial
  | stop i => exact fun _ _ => ⟨trivial, trivial⟩

theorem reaches_replacedPool : Pool.Reaches freeVideoRules ⟨.blank, []⟩ replacedPool := by
  have hbackend : Pool.Reaches freeVideoRules ⟨.blank, []⟩
      ⟨.rendered (.file (videoOf 1024)), []⟩ :=
    Relation.ReflTransGen.single (Pool.Step.move [] _ _ ⟨Nat.le_refl _, rfl, rfl, Or.inr rfl⟩)
  have hfirst : downloadedPool.store.now ≤ 61 * second := by
    decide +kernel
  have hsecond : renderedPool.store.now ≤ 62 * second := by
    decide +kernel
  have hdownloaded : Pool.Reaches freeVideoRules _ downloadedPool := reaches_videos rfl
  have hrendered : Pool.Reaches freeVideoRules _ renderedPool := reaches_videos rfl
  have hreplaced : Pool.Reaches freeVideoRules _ replacedPool := reaches_videos rfl
  exact (hbackend.trans (hdownloaded.tail (step_download .gone hfirst))).trans
    ((hrendered.tail (step_download _ hsecond)).trans hreplaced)

/-- The row speaks of the file of the second worker, and the first one's is stored. -/
theorem ready_video_replaced :
    exists pool, Pool.Reaches (videoRules artifactService (fun _ _ => True)) ⟨.blank, []⟩ pool ∧
      ¬VideosVerified artifactService.cfg pool.store := by
  have hfacts : (replacedPool.store.row animationId).any (fun row =>
        row.status == .ready && row.artifactType == .manim && row.sizeBytes == some 1025 &&
          row.objectKey == some (Fingerprint.videoObjectKey animationId)) = true ∧
      (replacedPool.store.objects.get (Fingerprint.videoObjectKey animationId)).map
        (fun object => object.bytes.length) = some 1024 := by
    decide +kernel
  rcases hfacts with ⟨hany, hobject⟩
  refine ⟨replacedPool, reaches_replacedPool, ?_⟩
  intro hverified
  rcases (Option.any_eq_true _ _).mp hany with ⟨row, hrow, hfields⟩
  simp only [Bool.and_eq_true, beq_iff_eq] at hfields
  rcases hfields with ⟨⟨⟨hready, hmanim⟩, hsize⟩, hkey⟩
  rcases hverified animationId row hrow hready hmanim with
    ⟨key, object, hkey', hstored, _, hsize', _⟩
  rw [hkey] at hkey'
  rw [← Option.some.inj hkey'] at hstored
  rw [hstored] at hobject
  rw [hsize] at hsize'
  have hlength : (1025 : Nat) = 1024 :=
    (Option.some.inj hsize').trans (Option.some.inj hobject)
  omega

/-!
# A video that one worker stores
-/

/-- The animation is rendered and stored. -/
def storedOnce : List (Pool.Act ArtifactCall) :=
  [.start (.register animation), .perform 0, .perform 0, .start (.advance animationId 1)] ++
    List.replicate 14 (.perform 1)

def storedPool : ArtifactPool :=
  storedOnce.foldl (Pool.play (videoRules artifactService SparesVideos))
    ⟨.rendered (.file (videoOf 1024)), []⟩

/-- No other task runs, and nothing is written or deleted when an artifact is ready. -/
def storesAlone (pool : ArtifactPool) (act : Pool.Act ArtifactCall) : Bool :=
  isAlone pool act && reportsNothing act &&
    match act with
    | .perform i =>
        (pool.tasks[i]?).all (fun t =>
          match t.prog with
          | .op (.putObject _ _ _ _) _ =>
              pool.store.artifacts.rows.all (fun e => e.2.status != .ready)
          | .op (.deleteObject _) _ => false
          | _ => true)
    | _ => true

theorem sparesVideos_of_storesAlone {pool : ArtifactPool} {i : Nat} {t : ArtifactTask}
    (h : storesAlone pool (.perform i) = true) (ht : pool.tasks[i]? = some t) :
    SparesVideos pool t := by
  rcases Bool.and_eq_true_iff.mp h with ⟨hleft, hready⟩
  have halone := (Bool.and_eq_true_iff.mp hleft).left
  dsimp only at hready
  rw [ht] at hready
  intro o next key hprog hspoils
  constructor
  · intro id row hrow hstatus _
    change (match t.prog with
      | .op (.putObject _ _ _ _) _ =>
          pool.store.artifacts.rows.all (fun e => e.2.status != .ready)
      | .op (.deleteObject _) _ => false
      | _ => true) = true at hready
    rw [hprog] at hready
    cases o with
    | putObject key' bytes contentType metadata =>
        have hmem : (id, row) ∈ pool.store.artifacts.rows :=
          (Partition.get_eq_some_iff pool.store.artifacts id row).mp hrow
        have hnot := List.all_eq_true.mp hready (id, row) hmem
        rw [show (id, row).2.status = .ready from hstatus] at hnot
        cases hnot
    | deleteObject key' => cases hready
    | _ => exact hspoils
  · rintro t' ht' ⟨fact, hkey, hrelies⟩
    have hrunning : t'.prog.Running := by
      cases hprog' : t'.prog with
      | op o' next' => trivial
      | ret a =>
          rw [hprog'] at hrelies
          exact hrelies
      | raise e =>
          rw [hprog'] at hrelies
          exact hrelies
    rw [eq_of_isAlone halone ht ht' hrunning, hprog] at hrelies
    have huses : o.UsesVideo fact := by
      rcases hrelies with hrecords | ⟨huses, _⟩
      · exact uses_of_records hrecords
      · exact huses
    exact not_spoils_of_uses huses (hkey ▸ hspoils)

theorem allows_of_storesAlone (pool : ArtifactPool) (act : Pool.Act ArtifactCall)
    (h : storesAlone pool act = true) :
    Pool.Allows (videoRules artifactService SparesVideos) pool act := by
  have hleft := (Bool.and_eq_true_iff.mp h).left
  have hreports := (Bool.and_eq_true_iff.mp hleft).right
  cases act with
  | start call =>
      intro id hcall
      rw [hcall] at hreports
      cases hreports
  | perform i => exact fun _ ht => sparesVideos_of_storesAlone h ht
  | fault i => exact fun _ _ _ _ => trivial
  | stop i => exact fun _ _ => ⟨trivial, trivial⟩

theorem ready_videos_verified_once :
    (storedPool.store.row animationId).map ArtifactRow.status = some .ready ∧
      VideosVerified artifactService.cfg storedPool.store := by
  have hready : (storedPool.store.row animationId).map ArtifactRow.status = some .ready := by
    decide +kernel
  have hchecks : Pool.checks (videoRules artifactService SparesVideos) storesAlone
      ⟨.rendered (.file (videoOf 1024)), []⟩ storedOnce = true := by
    decide +kernel
  have hbackend : Pool.Reaches (videoRules artifactService SparesVideos) ⟨.blank, []⟩
      ⟨.rendered (.file (videoOf 1024)), []⟩ :=
    Relation.ReflTransGen.single (Pool.Step.move [] _ _ ⟨Nat.le_refl _, rfl, rfl, Or.inr rfl⟩)
  exact ⟨hready, ready_videos_verified (hbackend.trans
    (Pool.reaches_schedule (Pool.allowsAll_of_checks allows_of_storesAlone hchecks)))⟩

end ConversationService
