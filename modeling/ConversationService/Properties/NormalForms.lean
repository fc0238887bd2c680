import ConversationService.Properties.ArtifactIds
import ConversationService.Properties.CanonicalDiagrams
import ConversationService.Properties.CanonicalTexts

/-!
# Normal forms of artifacts

Registrations, lookups and exports find the same artifact because they make its canonical
text in the same way. The text of a diagram and the text of a specification are normal forms,
but for a schema version that shows the order of its members, and an artifact is known from
this text and from who owns it.
-/

namespace ConversationService
namespace Fingerprint

open Python Programs

/-!
# Registrations
-/

def answersVersion (version : Text) : (o : ArtifactOp) -> Option o.Res -> Prop
  | .rendererVersion, answer => answer = some version
  | _, _ => True

/-- The registration comes to the statement that registers `row` as `id`. -/
def Registers (svc : ArtifactService) (version : Text) (request : ArtifactService.Registration)
    (id : UUID) (row : ArtifactRow) : Prop :=
  exists ref, Prog.CanPerform (answersVersion version) (svc.register request)
    (.register id row ref)

def canonicalContent (svc : ArtifactService) (type : ArtifactType) (content : Json) :
    Option Text :=
  match type with
  | .mermaid => canonicalMermaidSource svc.nfc content svc.cfg.maxMermaidChars
  | .manim => canonicalManimSpec svc.nfc content svc.cfg.maxManimSpecChars

/-- What a registration asks of its row and its id. -/
structure IsRegistered (svc : ArtifactService) (version : Text)
    (request : ArtifactService.Registration) (id : UUID) (row : ArtifactRow) : Prop where
  owner : row.ownerUserId = request.owner
  type : row.artifactType.value = request.artifactType
  canonical : canonicalContent svc row.artifactType request.content = some row.specText
  fingerprint : computeFingerprint row.artifactType row.specText version svc.cfg.renderQuality =
    some row.fingerprint
  id : id = artifactIdFor row.ownerUserId row.artifactType row.fingerprint

/-- What a source says, when it is one of the content. -/
structure IsSource (svc : ArtifactService) (version : Text)
    (request : ArtifactService.Registration) (source : ArtifactService.Source) : Prop where
  type : source.type.value = request.artifactType
  canonical : canonicalContent svc source.type request.content = some source.canonical
  fingerprint : computeFingerprint source.type source.canonical source.rendererVersion
    source.quality = computeFingerprint source.type source.canonical version svc.cfg.renderQuality

section Registrations

variable {svc : ArtifactService} {version : Text} {request : ArtifactService.Registration}

theorem isSource_mermaid {source : ArtifactService.Source}
    (htype : request.artifactType = text "mermaid")
    (h : Prog.CanReturn (answersVersion version) (svc.mermaidSource request) source) :
    IsSource svc version request source := by
  unfold ArtifactService.mermaidSource at h
  split at h
  · rename_i canonical hcanonical
    cases h
    exact ⟨htype.symm, hcanonical, rfl⟩
  · exact h.elim

theorem isSource_manim {source : ArtifactService.Source}
    (htype : request.artifactType = text "manim")
    (h : Prog.CanReturn (answersVersion version) (svc.manimSource request) source) :
    IsSource svc version request source := by
  unfold ArtifactService.manimSource at h
  split at h
  · rename_i spec canonical hspec hcanonical
    rcases Prog.canReturn_bind h with ⟨answer, hanswer, hsource⟩
    cases Prog.canReturn_perform hanswer
    cases hsource
    exact ⟨htype.symm, hcanonical, rfl⟩
  · exact h.elim

theorem isSource_sourceOf {source : ArtifactService.Source}
    (h : Prog.CanReturn (answersVersion version) (svc.sourceOf request) source) :
    IsSource svc version request source := by
  unfold ArtifactService.sourceOf at h
  split at h
  · rename_i htype
    exact isSource_mermaid htype h
  split at h
  · rename_i htype
    exact isSource_manim htype h
  · exact h.elim

theorem sourceOf_asks {o : ArtifactOp}
    (h : Prog.CanPerform (answersVersion version) (svc.sourceOf request) o) :
    o = .rendererVersion := by
  unfold ArtifactService.sourceOf at h
  split at h
  · unfold ArtifactService.mermaidSource at h
    split at h
    · exact h.elim
    · exact h.elim
  split at h
  · unfold ArtifactService.manimSource at h
    split at h
    · rcases Prog.canPerform_bind h with hask | ⟨answer, _, hreturn⟩
      · exact Prog.canPerform_perform hask
      · exact hreturn.elim
    · exact h.elim
  · exact h.elim

/-- A registration registers the canonical text under the id that is made of it. -/
theorem isRegistered_of_registers {id : UUID} {row : ArtifactRow}
    (h : Registers svc version request id row) : IsRegistered svc version request id row := by
  rcases h with ⟨ref, h⟩
  unfold ArtifactService.register at h
  rcases Prog.canPerform_bind h with hask | ⟨source, hsource, h⟩
  · cases sourceOf_asks hask
  · have hspec := isSource_sourceOf hsource
    dsimp only at h
    split at h
    · rename_i fingerprint hprint
      rw [hspec.fingerprint] at hprint
      rcases Prog.canPerform_bind h with hregister | ⟨registered, _, hrest⟩
      · cases Prog.canPerform_perform hregister
        exact ⟨rfl, hspec.type, hspec.canonical, hprint, rfl⟩
      · cases registered with
        | none => exact hrest.elim
        | some registered => exact hrest.elim
    · exact h.elim

theorem registers_of_source {source : ArtifactService.Source} {fingerprint : Text}
    (hsource : Prog.CanReturn (answersVersion version) (svc.sourceOf request) source)
    (hprint : computeFingerprint source.type source.canonical source.rendererVersion
      source.quality = some fingerprint) :
    Registers svc version request (artifactIdFor request.owner source.type fingerprint)
      (ArtifactService.newRow request.owner source fingerprint) := by
  let ref : ArtifactRef :=
    { artifactId := artifactIdFor request.owner source.type fingerprint
      conversationId := request.conversationId
      sourceMessageId := request.sourceMessageId
      blockId := request.blockId.take 64
      ownerUserId := request.owner }
  refine ⟨ref, ?_⟩
  unfold ArtifactService.register
  apply Prog.canPerform_of_bind hsource
  dsimp only
  rw [hprint]
  exact Or.inl rfl

theorem registers_manim {canonical fingerprint : Text}
    (htype : request.artifactType = text "manim")
    (hcanonical : canonicalManimSpec svc.nfc request.content svc.cfg.maxManimSpecChars =
      some canonical)
    (hprint : computeFingerprint .manim canonical version svc.cfg.renderQuality =
      some fingerprint) :
    exists title, Registers svc version request (artifactIdFor request.owner .manim fingerprint)
      (ArtifactService.newRow request.owner
        ⟨.manim, canonical, title, version, svc.cfg.renderQuality⟩ fingerprint) := by
  rcases canonicalManimSpec_eq_some.mp hcanonical with ⟨spec, hspec, _, _⟩
  have hmermaid : text "manim" ≠ text "mermaid" := by decide
  have hsource : Prog.CanReturn (answersVersion version) (svc.sourceOf request)
      ⟨.manim, canonical,
        ArtifactService.titleFor request.title (ArtifactService.animationTitle spec), version,
        svc.cfg.renderQuality⟩ := by
    unfold ArtifactService.sourceOf
    rw [htype, if_neg hmermaid, if_pos rfl]
    unfold ArtifactService.manimSource
    rw [hspec, hcanonical]
    exact ⟨some version, rfl, rfl⟩
  have hregisters := registers_of_source hsource hprint
  dsimp only at hregisters
  exact ⟨_, hregisters⟩

theorem artifactForSpec_text {id : UUID} {row : ArtifactRow} {t : Text}
    (h : Registers svc version request id row) (htype : row.artifactType = .manim)
    (ht : canonicalManimSpec svc.nfc request.content 20000 = some t) : t = row.specText := by
  have hcanonical := (isRegistered_of_registers h).canonical
  rw [htype] at hcanonical
  exact canonicalManimSpec_limits ht hcanonical

end Registrations

/-!
# Normal forms
-/

/-- The text of a specification is one for all that say the same, and is read as one of them. -/
structure HasNormalForm (nfc float : Text -> Text) (spec : Json) : Prop where
  orderFree : IsOrderFree nfc spec
  idempotent : forall maxChars t, canonicalManimSpec nfc spec maxChars = some t ->
    exists again, loads float t = some again ∧ canonicalManimSpec nfc again maxChars = some t
  limits : forall maxChars maxChars' t t', canonicalManimSpec nfc spec maxChars = some t ->
    canonicalManimSpec nfc spec maxChars' = some t' -> t = t'

/-- The source of a diagram is one for all that are drawn alike, and is its own source. -/
structure HasDiagramForm (nfc : Text -> Text) : Prop where
  idempotent : forall source maxChars t, canonicalMermaidSource nfc source maxChars = some t ->
    canonicalMermaidSource nfc (.str t) maxChars = some t
  sameDiagram : forall s s' maxChars, Relation.EqvGen SameDiagram s s' ->
    canonicalMermaidSource nfc (.str s) maxChars = canonicalMermaidSource nfc (.str s') maxChars

/-- What two registrations hash, and the names that their ids are made of, do not collide. -/
structure NoCollision (version version' quality quality' : Text) (row row' : ArtifactRow) :
    Prop where
  sha256 : Set.InjOn sha256Hex
    {data | utf8Encode (payload row.artifactType row.specText version quality) = some data ∨
      utf8Encode (payload row'.artifactType row'.specText version' quality') = some data}
  uuid5 : Set.InjOn (uuid5 namespaceUuid)
    {artifactName row.ownerUserId row.artifactType row.fingerprint,
      artifactName row'.ownerUserId row'.artifactType row'.fingerprint}

section NormalForms

variable {nfc float : Text -> Text}

theorem hasNormalForm_iff (hnfc : IsNormalisation nfc) {fields : List (Text × Json)}
    (hjson : IsJson float (.obj fields)) :
    HasNormalForm nfc float (.obj fields) <->
      ¬(IsAcceptable fields ∧ HasOrder (schemaVersion fields)) := by
  constructor
  · intro h
    exact (isOrderFree_iff hjson).mp h.orderFree
  · intro h
    exact ⟨(isOrderFree_iff hjson).mpr h, fun _ _ ht => canonicalManimSpec_loads hnfc hjson ht,
      fun _ _ _ _ ht ht' => canonicalManimSpec_limits ht ht'⟩

theorem hasDiagramForm (hnfc : IsNormalisation nfc) : HasDiagramForm nfc := by
  constructor
  · intro source maxChars t ht
    cases source with
    | str s => exact canonicalMermaidSource_idempotent hnfc ht
    | _ => cases ht
  · intro s s' maxChars hsame
    exact canonicalMermaidSource_sameDiagram hnfc hsame maxChars

theorem registered_id_eq_iff {svc svc' : ArtifactService} {version version' : Text}
    {request request' : ArtifactService.Registration} {id id' : UUID} {row row' : ArtifactRow}
    (h : Registers svc version request id row) (h' : Registers svc' version' request' id' row')
    (hversion : (0 : CodePoint) ∉ version) (hversion' : (0 : CodePoint) ∉ version')
    (hquality : (0 : CodePoint) ∉ svc.cfg.renderQuality)
    (hquality' : (0 : CodePoint) ∉ svc'.cfg.renderQuality)
    (hfree : NoCollision version version' svc.cfg.renderQuality svc'.cfg.renderQuality row row') :
    id = id' <-> request.owner = request'.owner ∧ row.artifactType = row'.artifactType ∧
      row.specText = row'.specText ∧ (row.artifactType = .manim ->
        version = version' ∧ svc.cfg.renderQuality = svc'.cfg.renderQuality) := by
  have hrow := isRegistered_of_registers h
  have hrow' := isRegistered_of_registers h'
  rw [hrow.id, hrow'.id, ← hrow.owner, ← hrow'.owner]
  exact artifactIdFor_eq_iff hrow.fingerprint hrow'.fingerprint hversion hversion' hquality
    hquality' hfree.sha256 hfree.uuid5

/--
A specification has a normal form unless its schema version shows an order, and a diagram
has one. An export looks for the text that was registered, and two registrations make one
artifact exactly if they are of one owner, one type and one canonical text, and for an
animation of one renderer and one quality.
-/
theorem normalForms_iff (hnfc : IsNormalisation nfc) :
    (forall fields, IsJson float (.obj fields) ->
      (HasNormalForm nfc float (.obj fields) <->
        ¬(IsAcceptable fields ∧ HasOrder (schemaVersion fields)))) ∧
    HasDiagramForm nfc ∧
    (forall (svc : ArtifactService) version request id row t,
      Registers svc version request id row -> row.artifactType = .manim ->
      canonicalManimSpec svc.nfc request.content 20000 = some t -> t = row.specText) ∧
    (forall (svc svc' : ArtifactService) version version'
      (request request' : ArtifactService.Registration) id id' row row',
      Registers svc version request id row -> Registers svc' version' request' id' row' ->
      0 ∉ version -> 0 ∉ version' -> 0 ∉ svc.cfg.renderQuality -> 0 ∉ svc'.cfg.renderQuality ->
      NoCollision version version' svc.cfg.renderQuality svc'.cfg.renderQuality row row' ->
      (id = id' <-> request.owner = request'.owner ∧ row.artifactType = row'.artifactType ∧
        row.specText = row'.specText ∧ (row.artifactType = .manim ->
          version = version' ∧ svc.cfg.renderQuality = svc'.cfg.renderQuality))) := by
  refine ⟨fun _ hjson => hasNormalForm_iff hnfc hjson, hasDiagramForm hnfc, ?_, ?_⟩
  · intro svc version request id row t h htype ht
    exact artifactForSpec_text h htype ht
  · intro svc svc' version version' request request' id id' row row' h h' hversion hversion'
      hquality hquality' hfree
    exact registered_id_eq_iff h h' hversion hversion' hquality hquality' hfree

end NormalForms

def versionedPlot (members : List (Text × Json)) : Json :=
  .obj [(text "schema_version", .obj members), (text "template", .str (text "plot"))]

theorem versionedPlot_reordered {members members' : List (Text × Json)}
    (h : members.Perm members') :
    Reordered (versionedPlot members) (versionedPlot members') :=
  Relation.ReflTransGen.single
    (@ReorderedOnce.member [] _ _ _ _ (ReorderedOnce.members h))

/-- `str` writes the members of a schema version as they come. -/
theorem versionedPlot_not_hasNormalForm :
    ¬HasNormalForm (fun s => s) (fun s => s)
      (versionedPlot [(text "major", .int 1), (text "minor", .int 2)]) := by
  intro h
  have hsame := h.orderFree _ 4000 (versionedPlot_reordered (List.Perm.swap _ _ []))
  revert hsame
  decide

/-!
# Two plots
-/

section Plots

def plotSpec : Json := .obj [(text "template", .str (text "plot"))]

def plotService : ArtifactService := ⟨.default, fun s => s⟩

def plotRequest : ArtifactService.Registration :=
  { owner := .ofInt 1
    conversationId := .ofInt 2
    sourceMessageId := .ofInt 3
    artifactType := text "manim"
    content := plotSpec
    blockId := []
    title := none }

def plotText : Text := (canonicalManimSpec (fun s => s) plotSpec 4000).getD []

def plotPrint (version : Text) : Text :=
  (computeFingerprint .manim plotText version (text "l")).getD []

def plotId (version : Text) : UUID := artifactIdFor plotRequest.owner .manim (plotPrint version)

theorem plot_registers {version : Text}
    (h : computeFingerprint .manim plotText version (text "l") = some (plotPrint version)) :
    exists title, Registers plotService version plotRequest (plotId version)
      (ArtifactService.newRow plotRequest.owner
        ⟨.manim, plotText, title, version, text "l"⟩ (plotPrint version)) := by
  have htext : canonicalManimSpec (fun s => s) plotSpec 4000 = some plotText := by
    decide
  exact registers_manim rfl htext h

theorem plot_fingerprint :
    computeFingerprint .manim plotText (text "1") (text "l") = some (plotPrint (text "1")) := by
  decide +kernel

theorem plot_fingerprint' :
    computeFingerprint .manim plotText (text "2") (text "l") = some (plotPrint (text "2")) := by
  decide +kernel

theorem plot_noCollision (title title' : Text) :
    NoCollision (text "1") (text "2") (text "l") (text "l")
      (ArtifactService.newRow plotRequest.owner
        ⟨.manim, plotText, title, text "1", text "l"⟩ (plotPrint (text "1")))
      (ArtifactService.newRow plotRequest.owner
        ⟨.manim, plotText, title', text "2", text "l"⟩ (plotPrint (text "2"))) := by
  have hprints : plotPrint (text "1") ≠ plotPrint (text "2") := by decide +kernel
  have hids : plotId (text "1") ≠ plotId (text "2") := by decide +kernel
  have hash : forall {version : Text} {data : Bytes},
      computeFingerprint .manim plotText version (text "l") = some (plotPrint version) ->
      utf8Encode (payload .manim plotText version (text "l")) = some data ->
      sha256Hex data = plotPrint version := by
    intro version data hprint hdata
    rw [computeFingerprint_eq, hdata] at hprint
    exact Option.some.inj hprint
  constructor
  · rintro data (hdata | hdata) data' (hdata' | hdata') heq
    · exact Option.some.inj (hdata.symm.trans hdata')
    · rw [hash plot_fingerprint hdata, hash plot_fingerprint' hdata'] at heq
      exact absurd heq hprints
    · rw [hash plot_fingerprint' hdata, hash plot_fingerprint hdata'] at heq
      exact absurd heq.symm hprints
    · exact Option.some.inj (hdata.symm.trans hdata')
  · apply Set.injOn_pair.mpr
    intro heq
    exact absurd heq hids

theorem plot_normalForms :
    HasNormalForm (fun s => s) (fun s => s) plotSpec ∧ HasDiagramForm (fun s => s) ∧
      plotId (text "1") ≠ plotId (text "2") := by
  have hjson : IsJson (fun s => s) plotSpec := by
    refine IsJson.obj (by decide) ?_
    intro field hfield
    cases List.mem_singleton.mp hfield
    exact IsJson.str _
  have hversion : ¬HasOrder (schemaVersion [(text "template", Json.str (text "plot"))]) := by
    have hdefault : schemaVersion [(text "template", Json.str (text "plot"))] =
        .str specVersion := rfl
    rw [hdefault]
    rintro ⟨⟩
  rcases normalForms_iff isNormalisation_id with ⟨hspecs, hdiagrams, _, hids⟩
  refine ⟨(hspecs _ hjson).mpr (fun h => hversion h.right), hdiagrams, ?_⟩
  rcases plot_registers plot_fingerprint with ⟨title, hregisters⟩
  rcases plot_registers plot_fingerprint' with ⟨title', hregisters'⟩
  intro heq
  have hiff := hids _ _ _ _ _ _ _ _ _ _ hregisters hregisters' (by decide) (by decide)
    (by decide) (by decide) (plot_noCollision title title')
  have hversions := (hiff.mp heq).right.right.right rfl
  exact absurd hversions.left (by decide)

end Plots

end Fingerprint
end ConversationService
