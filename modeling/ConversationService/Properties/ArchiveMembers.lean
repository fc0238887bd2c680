import ConversationService.Properties.ArchivePaths

/-!
# Members of archives

Whatever is asked of an archive and whatever the object store answers, its members are some
of the files that may be in it, in their order. They are all accepted as long as no directory
of a conversation has got a name that is too long.
-/

namespace ConversationService
namespace ExportArchive

open Python Naming ParentLinks Programs ExportCollector

/-- No path is refused, whatever is asked for and comes back, and each is used once. -/
structure AddsAll (nfkd : Text -> Text) (bundle : CollectedBundle) : Prop where
  conversations : forall e, e ∈ planPaths nfkd bundle.conversations ->
    isSafeArchivePath e.2 = true
  media : forall id, isSafeArchivePath (videoPath id) = true ∧
    isSafeArchivePath (thumbnailPath id) = true
  accepted : forall request files,
    buildHierarchyZip nfkd bundle request files ≠ .error .unsafeArchivePath
  once : forall request files archive,
    buildHierarchyZip nfkd bundle request files = .ok archive -> archive.members.Nodup

structure IsFaithful (nfkd : Text -> Text) (h : Hierarchy) (bundle : CollectedBundle) : Prop where
  tree : MirrorsTree nfkd h bundle
  members : AddsAll nfkd bundle

/-!
# What is added
-/

/-- The members that come behind those of an archive are some of these paths, in their order. -/
def Adds (paths : List Text) (archive archive' : Archive) : Prop :=
  exists added, added.Sublist paths ∧ archive'.members = archive.members ++ added

/-- A part of the work ends with some of the paths added, or with something else than a refusal. -/
def Goes (paths : List Text) (archive : Archive) : Except ArchiveExc Archive -> Prop
  | .ok archive' => Adds paths archive archive'
  | .error e => e ≠ .unsafeArchivePath

theorem adds_of_members (paths : List Text) {archive archive' : Archive}
    (h : archive'.members = archive.members) : Adds paths archive archive' :=
  ⟨[], List.nil_sublist paths, by rw [h, List.append_nil]⟩

theorem adds_trans {first second : List Text} {a b c : Archive} (h : Adds first a b)
    (h' : Adds second b c) : Adds (first ++ second) a c := by
  rcases h with ⟨added, hsub, hmembers⟩
  rcases h' with ⟨more, hsub', hmembers'⟩
  exact ⟨added ++ more, hsub.append hsub', by rw [hmembers', hmembers, List.append_assoc]⟩

theorem goes_bind {first second : List Text} {archive : Archive}
    {result : Except ArchiveExc Archive} {next : Archive -> Except ArchiveExc Archive}
    (h : Goes first archive result) (h' : forall b, Goes second b (next b)) :
    Goes (first ++ second) archive (result.bind next) := by
  cases result with
  | error e => exact h
  | ok b =>
      have hnext := h' b
      show Goes _ _ (next b)
      generalize next b = last at hnext
      cases last with
      | error e => exact hnext
      | ok c => exact adds_trans h hnext

theorem add_of_safe (archive : Archive) {path : Text} (hsafe : isSafeArchivePath path = true)
    (size : Nat) :
    exists archive', archive.add path size = .ok archive' ∧
      archive'.members = archive.members ++ [path] := by
  unfold Archive.add
  rw [if_pos hsafe]
  exact ⟨_, rfl, rfl⟩

theorem goes_addBytes {path : Text} (hsafe : isSafeArchivePath path = true)
    (size : Archive -> Except PyExc Nat) (archive : Archive) :
    Goes [path] archive (addBytes path size archive) := by
  unfold addBytes
  split
  · rename_i n _
    rcases add_of_safe archive hsafe n with ⟨archive', hadd, hmembers⟩
    rw [hadd]
    exact ⟨[path], List.Sublist.refl _, hmembers⟩
  · exact fun h => by cases h

/-!
# Media
-/

theorem length_toText (id : UUID) : id.toText.length = 36 := by
  have hdash : (text "-").length = 1 := rfl
  rw [UUID.toText_eq]
  simp only [List.length_append, List.length_take, List.length_drop, UUID.length_hex, hdash]
  rfl

theorem isSafePart_file (id : UUID) {ending : Text} (hlength : ending.length = 4)
    (hending : forall c, c ∈ ending -> isSafe c = true) :
    (forall c, c ∈ id.toText ++ ending -> isSafe c = true) ∧
      isSafePart (id.toText ++ ending) = true := by
  have hsafe : forall c, c ∈ id.toText ++ ending -> isSafe c = true := by
    intro c hc
    rcases List.mem_append.mp hc with h | h
    · rcases mem_toText h with hdigit | rfl
      · exact (isSafe_smallDigit hdigit).left
      · rfl
    · exact hending c h
  have hlong : (id.toText ++ ending).length = 40 := by
    rw [List.length_append, length_toText, hlength]
  refine ⟨hsafe, (isSafePart_iff hsafe ?_).mpr ?_⟩
  · omega
  · omega

theorem safe_videoPath (id : UUID) : isSafeArchivePath (videoPath id) = true := by
  rcases @isSafePart_file id (text ".mp4") rfl (List.all_eq_true.mp (by decide)) with
    ⟨hsafe, hpart⟩
  have hjoin : videoPath id = inDir (text "assets/videos") (id.toText ++ text ".mp4") :=
    List.append_assoc _ _ _
  rw [hjoin, isSafeArchivePath_inDir _ hsafe]
  exact ⟨by decide, hpart⟩

theorem safe_thumbnailPath (id : UUID) : isSafeArchivePath (thumbnailPath id) = true := by
  rcases @isSafePart_file id (text ".png") rfl (List.all_eq_true.mp (by decide)) with
    ⟨hsafe, hpart⟩
  have hjoin : thumbnailPath id = inDir (text "assets/thumbnails") (id.toText ++ text ".png") :=
    List.append_assoc _ _ _
  rw [hjoin, isSafeArchivePath_inDir _ hsafe]
  exact ⟨by decide, hpart⟩

theorem adds_addThumbnail (request : ArchiveRequest) (artifact : UUID × ArtifactRow)
    (archive : Archive) :
    Adds [thumbnailPath artifact.1] archive (addThumbnail request artifact archive) := by
  unfold addThumbnail
  split
  · split
    · exact adds_of_members _ rfl
    · rename_i file _
      rcases add_of_safe archive (safe_thumbnailPath artifact.1) file.size with
        ⟨archive', hadd, hmembers⟩
      rw [hadd]
      exact ⟨_, List.Sublist.refl _, hmembers⟩
  · exact adds_of_members _ rfl

theorem goes_addArtifact (request : ArchiveRequest) (artifact : UUID × ArtifactRow)
    (archive : Archive) :
    Goes [videoPath artifact.1, thumbnailPath artifact.1] archive
      (addArtifact request artifact archive) := by
  unfold addArtifact
  split
  · exact adds_of_members _ rfl
  · split
    · exact adds_of_members _ rfl
    · split
      · exact adds_of_members _ rfl
      · rename_i file _
        split
        · exact adds_of_members _ rfl
        · rcases add_of_safe archive (safe_videoPath artifact.1) file.size with
            ⟨archive', hadd, hmembers⟩
          rw [hadd]
          have hvideo : Adds [videoPath artifact.1] archive
              { archive' with
                bundledVideo := archive'.bundledVideo ++ [(artifact.1, videoPath artifact.1)] } :=
            ⟨_, List.Sublist.refl _, hmembers⟩
          exact adds_trans hvideo (adds_addThumbnail request artifact _)

def mediaPaths (artifacts : List (UUID × ArtifactRow)) : List Text :=
  artifacts.flatMap (fun artifact => [videoPath artifact.1, thumbnailPath artifact.1])

theorem goes_addMedia (request : ArchiveRequest) (artifacts : List (UUID × ArtifactRow))
    (archive : Archive) :
    Goes (mediaPaths artifacts) archive (addMedia request artifacts archive) := by
  induction artifacts generalizing archive with
  | nil => exact adds_of_members _ rfl
  | cons artifact rest ih =>
      unfold addMedia mediaPaths
      rw [List.flatMap_cons]
      exact goes_bind (goes_addArtifact request artifact archive) ih

/-!
# Conversations
-/

theorem goes_addConversations (files : Files) {paths : List (UUID × Text)}
    (hsafe : forall e, e ∈ paths -> isSafeArchivePath e.2 = true)
    (conversations : List ExportConversation) (archive : Archive) :
    Goes ((nodes conversations).filterMap (fun id => paths.lookup id)) archive
      (addConversations files paths conversations archive) := by
  induction conversations generalizing archive with
  | nil => exact adds_of_members _ rfl
  | cons ec rest ih =>
      unfold addConversations nodes
      rw [List.map_cons]
      cases hpath : paths.lookup ec.conversation.conversationId with
      | none => exact fun h => by cases h
      | some path =>
          have hmem : (ec.conversation.conversationId, path) ∈ paths := by
            rcases List.lookup_eq_some_iff.mp hpath with ⟨before, after, hpaths, _⟩
            rw [hpaths]
            exact List.mem_append_right _ List.mem_cons_self
          rw [List.filterMap_cons_some (f := fun id => paths.lookup id) hpath]
          exact goes_bind (goes_addBytes (hsafe _ hmem) _ archive) ih

theorem addBytes_eq {path : Text} {size : Archive -> Except PyExc Nat} {archive : Archive}
    {n : Nat} (hsize : size archive = .ok n) : addBytes path size archive = archive.add path n := by
  unfold addBytes
  rw [hsize]

theorem addConversations_refused {files : Files} {paths : List (UUID × Text)}
    (hfiles : forall archive ec, exists n, files.conversation archive ec = .ok n)
    {conversations : List ExportConversation} (archive : Archive)
    (hpaths : forall id, id ∈ nodes conversations -> (paths.lookup id).isSome = true)
    {id : UUID} (hid : id ∈ nodes conversations) {path : Text}
    (hpath : paths.lookup id = some path) (hrefuses : isSafeArchivePath path = false) :
    addConversations files paths conversations archive = .error .unsafeArchivePath := by
  induction conversations generalizing archive with
  | nil => cases hid
  | cons first rest ih =>
      rcases Option.isSome_iff_exists.mp (hpaths _ List.mem_cons_self) with ⟨path', hpath'⟩
      rcases hfiles archive first with ⟨n, hn⟩
      unfold addConversations
      rw [hpath']
      dsimp only
      rw [@addBytes_eq _ (fun archive => files.conversation archive first) _ _ hn]
      unfold Archive.add
      by_cases hsafe : isSafeArchivePath path' = true
      · rw [if_pos hsafe]
        rcases List.mem_cons.mp hid with rfl | hrest
        · rw [hpath] at hpath'
          cases hpath'
          exact absurd hsafe (by rw [hrefuses]; exact Bool.false_ne_true)
        · exact ih _ (fun id hid => hpaths id (List.mem_cons_of_mem _ hid)) hrest
      · rw [if_neg hsafe]
        rfl

/-!
# All members
-/

section Members

variable {nfkd : Text -> Text} {h : Hierarchy} {bundle : CollectedBundle}
  {placed : List (UUID × Option UUID)}

/-- What an archive may have in it. -/
def memberPaths (nfkd : Text -> Text) (bundle : CollectedBundle) : List Text :=
  mediaPaths (referenced bundle.artifacts) ++
    ((nodes bundle.conversations).map (pathOf nfkd bundle.conversations) ++
      ([text "manifest.json"] ++ [text "README.md"]))

theorem lookup_planPaths (hplan : IsPlan nfkd h bundle placed) {id : UUID}
    (hid : id ∈ nodes bundle.conversations) :
    (planPaths nfkd bundle.conversations).lookup id =
      some (pathOf nfkd bundle.conversations id) := by
  rw [planPaths_eq hplan]
  apply List.lookup_graph
  exact List.mem_reverse.mpr ((hplan.tree.members id).mpr hid)

theorem goes_buildHierarchyZip (hplan : IsPlan nfkd h bundle placed)
    (hsafe : forall e, e ∈ planPaths nfkd bundle.conversations -> isSafeArchivePath e.2 = true)
    (request : ArchiveRequest) (files : Files) :
    Goes (memberPaths nfkd bundle) .empty (buildHierarchyZip nfkd bundle request files) := by
  unfold buildHierarchyZip
  dsimp only
  split
  · exact fun h => by cases h
  · apply goes_bind
    · split
      · exact goes_addMedia request _ _
      · exact adds_of_members _ rfl
    · intro media
      have hpaths : (nodes bundle.conversations).filterMap
          (fun id => (planPaths nfkd bundle.conversations).lookup id) =
            (nodes bundle.conversations).map (pathOf nfkd bundle.conversations) := by
        rw [← List.filterMap_eq_map]
        exact List.filterMap_congr (fun id hid => lookup_planPaths hplan hid)
      rw [← hpaths]
      apply goes_bind (goes_addConversations files hsafe bundle.conversations media)
      intro archive
      apply goes_bind (goes_addBytes (by decide) files.manifest archive)
      exact fun archive => goes_addBytes (by decide) files.readme archive

theorem nodup_referenced (artifacts : List (Text × UUID × ArtifactRow)) :
    ((referenced artifacts).map Prod.fst).Nodup := by
  induction artifacts with
  | nil => exact List.nodup_nil
  | cons e rest ih =>
      unfold referenced
      rw [List.map_cons, List.nodup_cons]
      constructor
      · intro hmem
        rcases List.mem_map.mp hmem with ⟨other, hother, heq⟩
        exact of_decide_eq_true (List.mem_filter.mp hother).right heq
      · exact (List.filter_sublist.map Prod.fst).nodup ih

theorem take_videoPath (id : UUID) : (videoPath id).take 8 = text "assets/v" := rfl

theorem take_thumbnailPath (id : UUID) : (thumbnailPath id).take 8 = text "assets/t" := rfl

theorem video_ne_thumbnail (id id' : UUID) : videoPath id ≠ thumbnailPath id' := by
  intro heq
  have htake : text "assets/v" = text "assets/t" := by
    rw [← take_videoPath id, ← take_thumbnailPath id', heq]
  exact absurd htake (by decide)

theorem nodup_mediaPaths {artifacts : List (UUID × ArtifactRow)}
    (hnodup : (artifacts.map Prod.fst).Nodup) : (mediaPaths artifacts).Nodup := by
  unfold mediaPaths
  rw [List.nodup_flatMap]
  constructor
  · intro artifact _
    simpa using video_ne_thumbnail artifact.1 artifact.1
  · rw [List.Nodup, List.pairwise_map] at hnodup
    refine hnodup.imp ?_
    intro a b hne path ha hb
    simp only [List.mem_cons, List.not_mem_nil, or_false] at ha hb
    rcases ha with rfl | rfl
    · rcases hb with heq | heq
      · exact hne (UUID.toText_injective (List.append_cancel_left (List.append_cancel_right heq)))
      · exact video_ne_thumbnail _ _ heq
    · rcases hb with heq | heq
      · exact video_ne_thumbnail _ _ heq.symm
      · exact hne (UUID.toText_injective (List.append_cancel_left (List.append_cancel_right heq)))

theorem head_mediaPaths {artifacts : List (UUID × ArtifactRow)} {path : Text}
    (hpath : path ∈ mediaPaths artifacts) : path.head? = some 0x61 := by
  rcases List.mem_flatMap.mp hpath with ⟨artifact, _, hmem⟩
  simp only [List.mem_cons, List.not_mem_nil, or_false] at hmem
  rcases hmem with rfl | rfl
  · rfl
  · rfl

theorem head_dir {conversations : List ExportConversation} {plan : Plan}
    (hplanned : Planned nfkd conversations placed plan) {a : UUID}
    (ha : a ∈ placed.map Prod.fst) : (plan.dir a).head? = some 0x63 := by
  rcases exists_place ha with ⟨q, before, after, hplaced⟩
  rw [hplanned.path before a q after hplaced]
  cases q with
  | none => rfl
  | some p =>
      have hlt := dir_shorter hplanned hplaced
      have hp : p ∈ placed.map Prod.fst := by
        rw [hplaced, List.map_append]
        exact List.mem_append_left _ (hplanned.closed before a p after hplaced)
      have hhead := head_dir hplanned hp
      rcases List.head?_eq_some_iff.mp hhead with ⟨rest, hrest⟩
      show (plan.dir p ++ text "/branches" ++ text "/" ++ _).head? = some 0x63
      rw [hrest]
      rfl
termination_by (plan.dir a).length

theorem nodup_memberPaths (hplan : IsPlan nfkd h bundle placed) :
    (memberPaths nfkd bundle).Nodup := by
  have hhead : forall path, path ∈ (nodes bundle.conversations).map
      (pathOf nfkd bundle.conversations) -> path.head? = some 0x63 := by
    intro path hpath
    rcases List.mem_map.mp hpath with ⟨id, hid, rfl⟩
    have hdir := head_dir hplan.planned ((hplan.tree.members id).mpr hid)
    rcases List.head?_eq_some_iff.mp hdir with ⟨rest, hrest⟩
    unfold pathOf
    rw [hrest]
    rfl
  unfold memberPaths
  rw [List.nodup_append, List.nodup_append]
  refine ⟨nodup_mediaPaths (nodup_referenced _), ⟨?_, by decide, ?_⟩, ?_⟩
  · apply List.Nodup.map_on _ hplan.nodup
    intro a ha b hb heq
    exact pathOf_injective hplan ((hplan.tree.members a).mpr ha) ((hplan.tree.members b).mpr hb)
      heq
  · rintro path hpath other hother rfl
    have hc := hhead path hpath
    rcases List.mem_cons.mp hother with rfl | hother
    · exact absurd hc (by decide)
    · rw [List.mem_singleton.mp hother] at hc
      exact absurd hc (by decide)
  · rintro path hpath other hother rfl
    have hmedia := head_mediaPaths hpath
    rcases List.mem_append.mp hother with hconv | hlast
    · rw [hhead path hconv] at hmedia
      exact absurd hmedia (by decide)
    · rcases List.mem_cons.mp hlast with rfl | hlast
      · exact absurd hmedia (by decide)
      · rw [List.mem_singleton.mp hlast] at hmedia
        exact absurd hmedia (by decide)

theorem safe_paths_iff (hplan : IsPlan nfkd h bundle placed) :
    (forall e, e ∈ planPaths nfkd bundle.conversations -> isSafeArchivePath e.2 = true) <->
      ¬IsCrowded nfkd h bundle := by
  rw [isCrowded_iff hplan]
  constructor
  · rintro hsafe ⟨before, a, q, after, hplaced, hlong⟩
    have hnode : a ∈ nodes bundle.conversations := by
      rw [← hplan.tree.members a, hplaced, List.map_append, List.map_cons]
      exact List.mem_append_right _ List.mem_cons_self
    have hpath := hsafe _ (mem_planPaths hplan hnode)
    unfold pathOf at hpath
    rw [isSafeArchivePath_conversation, safe_dir_iff hplan.planned hplaced] at hpath
    omega
  · intro hshort e he
    rw [planPaths_eq hplan] at he
    rcases List.mem_map.mp he with ⟨id, hid, rfl⟩
    show isSafeArchivePath (pathOf nfkd bundle.conversations id) = true
    unfold pathOf
    rw [isSafeArchivePath_conversation]
    apply safe_dirs hplan.planned ?_ (List.mem_reverse.mp hid)
    intro before a q after hplaced
    by_contra hlong
    exact hshort ⟨before, a, q, after, hplaced, Nat.lt_of_not_le hlong⟩

theorem addsAll (hplan : IsPlan nfkd h bundle placed) (hshort : ¬IsCrowded nfkd h bundle) :
    AddsAll nfkd bundle := by
  have hsafe := (safe_paths_iff hplan).mpr hshort
  refine ⟨hsafe, fun id => ⟨safe_videoPath id, safe_thumbnailPath id⟩, ?_, ?_⟩
  · intro request files herror
    have hgoes := goes_buildHierarchyZip hplan hsafe request files
    rw [herror] at hgoes
    exact hgoes rfl
  · intro request files archive hok
    have hgoes := goes_buildHierarchyZip hplan hsafe request files
    rw [hok] at hgoes
    rcases hgoes with ⟨added, hsub, hmembers⟩
    have hadded : archive.members = added := hmembers
    rw [hadded]
    exact hsub.nodup (nodup_memberPaths hplan)

/-- A crowded bundle has no archive, not even one without media. -/
theorem refused_of_crowded (hplan : IsPlan nfkd h bundle placed)
    (hcrowded : IsCrowded nfkd h bundle) {request : ArchiveRequest}
    (hmedia : request.includeMedia = false) {files : Files}
    (hfiles : forall archive ec, exists n, files.conversation archive ec = .ok n) :
    buildHierarchyZip nfkd bundle request files = .error .unsafeArchivePath := by
  have hrefuses : exists e, e ∈ planPaths nfkd bundle.conversations ∧
      isSafeArchivePath e.2 = false := by
    by_contra hnone
    apply (safe_paths_iff hplan).mp ?_ hcrowded
    intro e he
    by_contra hnot
    exact hnone ⟨e, he, Bool.eq_false_of_not_eq_true hnot⟩
  rcases hrefuses with ⟨e, he, hrefuses⟩
  rw [planPaths_eq hplan] at he
  rcases List.mem_map.mp he with ⟨id, hid, rfl⟩
  have hnode := (hplan.tree.members id).mp (List.mem_reverse.mp hid)
  have hsome : bundle.conversations.isEmpty = false := by
    rw [List.isEmpty_eq_false_iff]
    intro hnil
    rw [hnil] at hnode
    cases hnode
  have hrefused := addConversations_refused hfiles .empty
    (fun id hid => by rw [lookup_planPaths hplan hid]; rfl) hnode (lookup_planPaths hplan hnode)
    hrefuses
  unfold buildHierarchyZip
  rw [hsome, hmedia]
  show (addConversations files (planPaths nfkd bundle.conversations) bundle.conversations
    .empty).bind _ = _
  rw [hrefused]
  rfl

end Members

/-!
# Bundles without messages
-/

def rowOf (c : Conversation) : ConversationRow :=
  { userId := c.userId
    title := c.title
    createdAt := c.createdAt
    updatedAt := c.updatedAt
    status := some c.status
    parentConversationId := c.parentConversationId
    branchMessageId := c.branchMessageId }

def quietConversations (h : Hierarchy) (rootId : UUID) (inScope ids : List UUID) :
    List ExportConversation :=
  ids.filterMap (fun id => (h.node? id).map (fun node =>
    exportConversation h rootId inScope id node (some node) []))

def quietService : ExportService := { cfg := .default, cache := none }

theorem canReturn_quiet {loads : Text -> Except PyExc Json} {nfc : Text -> Text}
    {owner rootId : UUID} {h : Hierarchy} {inScope : List UUID}
    (howner : forall c, c ∈ h.conversations -> c.userId = some owner) {ids : List UUID}
    (hids : forall id, id ∈ ids -> h.has id = true) (convs : List ExportConversation) :
    Prog.CanReturn KeyedAnswer
      (collectWanted loads nfc quietService owner h rootId inScope [] (fun _ _ => pure ()) ids
        convs [])
      (convs ++ quietConversations h rootId inScope ids, []) := by
  induction ids generalizing convs with
  | nil => exact congrArg (fun convs => (convs, [])) (List.append_nil convs).symm
  | cons id rest ih =>
      rcases Option.isSome_iff_exists.mp (hids id List.mem_cons_self) with ⟨node, hnode⟩
      have hnext := ih (fun id hid => hids id (List.mem_cons_of_mem _ hid))
        (convs ++ [exportConversation h rootId inScope id node (some node) []])
      have hmem := List.mem_reverse.mp (List.mem_of_find?_eq_some hnode)
      have hid : node.conversationId = id := by
        unfold Hierarchy.node? at hnode
        simpa using List.find?_some hnode
      have hconvs : convs ++ [exportConversation h rootId inScope id node (some node) []] ++
          quietConversations h rootId inScope rest =
            convs ++ quietConversations h rootId inScope (id :: rest) := by
        unfold quietConversations
        rw [List.filterMap_cons, hnode, List.append_assoc]
        rfl
      rw [hconvs] at hnext
      have hread : ConversationRepository.conversationOfRow? id (rowOf node) = some node := by
        rw [← hid]
        rfl
      have hfound : Prog.CanReturn KeyedAnswer
          (fromExports (fromSources (ConversationReads.get none id))) (some node) := by
        refine ⟨some (some (rowOf node)), trivial, ?_⟩
        show Prog.CanReturn KeyedAnswer (Prog.mapOps _ _ (Prog.mapExc _ (Prog.mapOps _ _
          (((ConversationRepository.conversationOfRow? id (rowOf node)).elim
            (Prog.raise .valueError) (fun conv => pure (some conv))) >>=
              fun stored => pure stored)))) _
        rw [hread]
        rfl
      have hmessages : Prog.CanReturn KeyedAnswer
          (fromExports (messages ExportSettings.default.maxMessagesPerConversation id
            ((marker [] id).getD []))) [] :=
        ⟨some [], trivial, rfl⟩
      have hkeep : ¬(some node).any (fun conv => conv.userId ≠ some owner) = true := by
        simp [howner node hmem]
      unfold collectWanted
      apply Prog.canReturn_of_bind hfound
      rw [if_neg hkeep]
      apply Prog.canReturn_of_bind hmessages
      have hprogress : Prog.CanReturn KeyedAnswer (fromExports (pure ())) () := rfl
      apply Prog.canReturn_of_bind hprogress
      rw [hnode]
      exact hnext

/-- The bundle of the whole tree of a conversation without messages. -/
def quietBundle (h : Hierarchy) (selected : UUID) : CollectedBundle :=
  { selectedId := selected
    rootId := (h.rootOf selected).1
    conversations := quietConversations h (h.rootOf selected).1
      (h.subtree (h.rootOf selected).1) (h.subtree (h.rootOf selected).1)
    artifacts := [] }

theorem isBuilt_quiet {conversations : List Conversation} {h : Hierarchy}
    (hbuild : buildHierarchy conversations = some h) (hparents : SameParents conversations)
    {owner : UUID} (howner : forall c, c ∈ conversations -> c.userId = some owner)
    {selected : UUID} (hselected : h.has selected = true) :
    IsBuilt conversations h (quietBundle h selected) := by
  have hconversations := (Hierarchy.built hbuild).left
  have hhas : forall id, id ∈ h.subtree (h.rootOf selected).1 -> h.has id = true := by
    have hlisted : Listed conversations selected := by
      rw [← hconversations, ← Hierarchy.has_iff]
      exact hselected
    intro id hid
    have hmember := ((isFamily_subtree hbuild hparents hlisted).members id).mp hid
    rw [Hierarchy.has_iff, hconversations]
    exact hmember.left
  have hscope : ((h.subtree (h.rootOf selected).1).filter (fun _ => true)).filter h.has =
      h.subtree (h.rootOf selected).1 := by
    rw [List.filter_true, List.filter_eq_self]
    exact hhas
  refine ⟨hbuild, hparents, fun _ => .error .valueError, id, quietService, owner, selected,
    fun _ => true, [], [], [], fun _ _ => pure (), ?_⟩
  unfold collectBundle
  rw [if_pos hselected, hscope]
  apply Prog.canReturn_of_bind (canReturn_quiet (hconversations ▸ howner) hhas [])
  exact Prog.canReturn_of_bind (a := []) rfl rfl

/-!
# The archive
-/

/--
The paths of a bundle are a faithful image of its tree, and all members can be added, exactly
as long as the bundle is not crowded.
-/
theorem isFaithful_iff (nfkd : Text -> Text) {conversations : List Conversation} {h : Hierarchy}
    {bundle : CollectedBundle} (hbuilt : IsBuilt conversations h bundle) :
    IsFaithful nfkd h bundle <-> ¬IsCrowded nfkd h bundle := by
  rcases exists_plan nfkd hbuilt with ⟨placed, hplan⟩
  constructor
  · intro hfaithful
    exact (safe_paths_iff hplan).mp hfaithful.members.conversations
  · intro hshort
    exact ⟨mirrorsTree hplan, addsAll hplan hshort⟩

/-- The family of a conversation that hangs on a cycle. -/
theorem cycle_isFaithful_iff :
    IsFaithful (fun s => s) cycleHierarchy (quietBundle cycleHierarchy (.ofInt 3)) <->
      ¬IsCrowded (fun s => s) cycleHierarchy (quietBundle cycleHierarchy (.ofInt 3)) := by
  have hbuild : buildHierarchy cycleWithBranch = some cycleHierarchy := by decide
  have hids : (cycleWithBranch.map Conversation.conversationId).Nodup := by decide
  have hparents : SameParents cycleWithBranch := by
    intro c c' hc hc' heq
    rw [List.inj_on_of_nodup_map hids hc hc' heq]
  have howner : forall c, c ∈ cycleWithBranch -> c.userId = some (.ofInt 9) := by
    decide
  exact isFaithful_iff (fun s => s) (isBuilt_quiet hbuild hparents howner (by decide))

/-!
# A crowded bundle
-/

/-- Ids of one moment share their first 48 bits. -/
def crowdedId (n : Nat) : UUID := .ofInt (0x01901234567870008000000000000000 + n)

def crowdedTitle : Text := text "how does the chain rule work with vectors"

/-- A conversation with a branch for each of the others. -/
def crowdedMember (n : Nat) : Conversation :=
  { conversationId := crowdedId n
    userId := some (.ofInt 9)
    title := some crowdedTitle
    createdAt := some ⟨n, false⟩
    updatedAt := some ⟨n, false⟩
    status := .active
    parentConversationId := if n = 0 then none else some (crowdedId 0)
    branchMessageId := none }

def crowdedConversations : List Conversation := (List.range 74).map crowdedMember

def crowdedHierarchy : Hierarchy := (buildHierarchy crowdedConversations).getD ⟨[], []⟩

theorem crowded_subtree : buildHierarchy crowdedConversations = some crowdedHierarchy ∧
    (crowdedHierarchy.rootOf (crowdedId 0)).1 = crowdedId 0 ∧
    crowdedHierarchy.subtree (crowdedId 0) = (List.range 74).map crowdedId := by
  decide

def crowdedBundle : CollectedBundle := quietBundle crowdedHierarchy (crowdedId 0)

theorem isBuilt_crowded : IsBuilt crowdedConversations crowdedHierarchy crowdedBundle := by
  have hids : (crowdedConversations.map Conversation.conversationId).Nodup := by
    decide
  have hparents : SameParents crowdedConversations := by
    intro c c' hc hc' heq
    rw [List.inj_on_of_nodup_map hids hc hc' heq]
  have howner : forall c, c ∈ crowdedConversations -> c.userId = some (.ofInt 9) := by
    intro c hc
    rcases List.mem_map.mp hc with ⟨n, _, rfl⟩
    rfl
  exact isBuilt_quiet crowded_subtree.left hparents howner (by decide)

theorem crowded_nodes :
    nodes crowdedBundle.conversations = (List.range 74).map crowdedId ∧
      forall ec, ec ∈ crowdedBundle.conversations -> ec.conversation.title = some crowdedTitle := by
  decide

theorem crowded_parents : forall n, n < 73 ->
    crowdedHierarchy.listedParent (crowdedId (n + 1)) = some (crowdedId 0) ∧
      crowdedId (n + 1) ≠ crowdedId 0 ∧ shortId (crowdedId (n + 1)) = text "01901234" := by
  decide

theorem crowded_slug : slug (fun s => s) crowdedTitle 40 (text "conversation") =
    text "how-does-the-chain-rule-work-with-vector" := by
  decide

theorem crowded_branches {n : Nat} (hn : n < 73) :
    HangsOn crowdedHierarchy crowdedBundle (crowdedId (n + 1)) (some (crowdedId 0)) ∧
      dirName (fun s => s) crowdedBundle.conversations (crowdedId (n + 1)) =
        text "how-does-the-chain-rule-work-with-vector-01901234" := by
  rcases crowded_parents n hn with ⟨hparent, hne, hshort⟩
  have hmem : forall {m}, m < 74 -> crowdedId m ∈ nodes crowdedBundle.conversations := by
    intro m hm
    rw [crowded_nodes.left]
    exact List.mem_map_of_mem (List.mem_range.mpr hm)
  have hroot : crowdedBundle.rootId = crowdedId 0 := crowded_subtree.right.left
  constructor
  · refine ⟨hmem (by omega), Or.inr ⟨fun hcut => hne (hcut.left.trans hroot), ?_⟩⟩
    exact (upWithin_eq_some.mpr ⟨hparent, hmem (by decide)⟩).symm
  · rcases Option.isSome_iff_exists.mp ((byId_isSome crowdedBundle.conversations _).mpr
      (hmem (show n + 1 < 74 by omega))) with ⟨ec, hec⟩
    have htitle := crowded_nodes.right ec (List.mem_reverse.mp (List.mem_of_find?_eq_some hec))
    unfold dirName
    rw [hec, Option.bind_some, htitle]
    show slug (fun s => s) crowdedTitle 40 (text "conversation") ++ text "-" ++ shortId _ = _
    rw [crowded_slug, hshort]
    rfl

theorem isCrowded_crowded : IsCrowded (fun s => s) crowdedHierarchy crowdedBundle := by
  refine ⟨crowdedId 1, some (crowdedId 0), (List.range 72).map (fun n => crowdedId (n + 2)),
    by decide, ?_, ?_⟩
  · intro b hb
    have hbranch : exists n, n < 73 ∧ crowdedId (n + 1) = b := by
      rcases List.mem_cons.mp hb with rfl | hother
      · exact ⟨0, by decide, rfl⟩
      · rcases List.mem_map.mp hother with ⟨n, hn, rfl⟩
        rw [List.mem_range] at hn
        exact ⟨n + 1, by omega, rfl⟩
    rcases hbranch with ⟨n, hn, rfl⟩
    rcases crowded_branches hn with ⟨hangs, hname⟩
    exact ⟨hangs, hname.trans (crowded_branches (by decide)).right.symm⟩
  · rw [(crowded_branches (by decide)).right]
    decide

/-- An archive without media, when all files can be written. -/
def plainRequest : ArchiveRequest :=
  { includeMedia := false
    maxBytes := 500 * 1024 * 1024
    maxVideoBytes := 200 * 1024 * 1024
    video := fun _ => none
    thumbnail := fun _ => none }

def plainFiles : Files :=
  { conversation := fun _ _ => .ok 100
    manifest := fun _ => .ok 100
    readme := fun _ => .ok 100 }

/-- Seventy-three branches with one title, made in one moment, leave no archive. -/
theorem crowded_refused :
    IsBuilt crowdedConversations crowdedHierarchy crowdedBundle ∧
      ¬IsFaithful (fun s => s) crowdedHierarchy crowdedBundle ∧
      buildHierarchyZip (fun s => s) crowdedBundle plainRequest plainFiles =
        .error .unsafeArchivePath := by
  rcases exists_plan (fun s => s) isBuilt_crowded with ⟨placed, hplan⟩
  refine ⟨isBuilt_crowded, ?_, ?_⟩
  · intro hfaithful
    exact (safe_paths_iff hplan).mp hfaithful.members.conversations isCrowded_crowded
  · exact refused_of_crowded hplan isCrowded_crowded rfl (fun _ _ => ⟨100, rfl⟩)

end ExportArchive
end ConversationService
