import ConversationService.Model.RenderMarkdown
import ConversationService.Properties.FenceScan

/-!
# What rendering keeps of a message

The blocks of a text are apart from each other and in the order of the text, so the cursor
never goes back and the loop copies everything between two animations.
-/

namespace ConversationService
namespace RenderMarkdown

open Python FenceExpression SpanScan

def animations (blocks : List LocatedBlock) : List LocatedBlock :=
  blocks.filter (fun block => block.kind = text "manim")

/--
The second text is the first one, read from a place on, with a reference in the place of each
block and everything else kept.
-/
inductive Replaces (refer : LocatedBlock -> Except PyExc Text) :
    Nat -> List LocatedBlock -> Text -> Text -> Prop where
  | kept {pos : Nat} {s : Text} : Replaces refer pos [] s s
  | replaced {pos : Nat} {block : LocatedBlock} {rest : List LocatedBlock}
      {gap source reference s s' : Text} (start : block.start = pos + gap.length)
      (stop : block.stop = block.start + source.length)
      (reference_eq : refer block = .ok reference) (more : Replaces refer block.stop rest s s') :
      Replaces refer pos (block :: rest) (gap ++ (source ++ s)) (gap ++ (reference ++ s'))

/-!
# The loop
-/

theorem drop_split {s : Text} {i j : Nat} (hij : i ≤ j) :
    s.drop i = (s.take j).drop i ++ s.drop j := by
  rw [List.drop_take, show j = i + (j - i) by omega, ← List.drop_drop, Nat.add_sub_cancel_left,
    List.take_append_drop]

theorem length_slice {s : Text} {i j : Nat} (hij : i ≤ j) (hj : j ≤ s.length) :
    j = i + ((s.take j).drop i).length := by
  rw [List.length_drop, List.length_take]
  omega

section Loop

variable (loads : Text -> Except PyExc Json) (nfc : Text -> Text)

/-- From the cursor on the loop replaces the animations and keeps the rest. -/
theorem bodyLoop_replaces {bundle : CollectedBundle} {links : AssetLinks} {content : Text}
    {blocks : List LocatedBlock} {out result : Text} {cursor : Nat}
    (h : bodyLoop loads nfc bundle links content blocks out cursor = .ok result)
    (horder : FenceExpression.InOrder content.length blocks)
    (hcursor : forall b, b ∈ blocks -> cursor ≤ b.start) :
    exists s', result = out ++ s' ∧
      Replaces (referenceFor loads nfc bundle links) cursor (animations blocks)
        (content.drop cursor) s' := by
  induction blocks generalizing out cursor with
  | nil =>
      cases h
      exact ⟨content.drop cursor, rfl, .kept⟩
  | cons block rest ih =>
      have hrest : FenceExpression.InOrder content.length rest :=
        ⟨horder.apart.of_cons, fun b hb => horder.within b (List.mem_cons_of_mem block hb)⟩
      rw [bodyLoop] at h
      by_cases hkind : block.kind = text "manim"
      · rw [if_neg (fun hne => hne hkind)] at h
        cases hreference : referenceFor loads nfc bundle links block with
        | error e =>
            rw [hreference] at h
            cases h
        | ok reference =>
            rw [hreference] at h
            rcases horder.within block List.mem_cons_self with ⟨hstart, hstop⟩
            have hgap := hcursor block List.mem_cons_self
            have hnext : forall b, b ∈ rest -> block.stop ≤ b.start :=
              fun b hb => Nat.le_of_lt (List.rel_of_pairwise_cons horder.apart hb)
            rcases ih h hrest hnext with ⟨s', hresult, hmore⟩
            have hanimations : animations (block :: rest) = block :: animations rest :=
              List.filter_cons_of_pos (decide_eq_true hkind)
            refine ⟨(content.take block.start).drop cursor ++ (reference ++ s'), ?_, ?_⟩
            · rw [hresult, List.append_assoc, List.append_assoc]
            · rw [hanimations, drop_split hgap, drop_split hstart]
              exact .replaced (length_slice hgap (hstart.trans hstop)) (length_slice hstart hstop)
                hreference hmore
      · rw [if_pos hkind] at h
        have hanimations : animations (block :: rest) = animations rest :=
          List.filter_cons_of_neg (by simpa using hkind)
        rw [hanimations]
        exact ih h hrest (fun b hb => hcursor b (List.mem_cons_of_mem block hb))

theorem bodyLoop_copies {bundle : CollectedBundle} {links : AssetLinks} {content : Text}
    {blocks : List LocatedBlock} (h : animations blocks = []) (out : Text) (cursor : Nat) :
    bodyLoop loads nfc bundle links content blocks out cursor =
      .ok (out ++ content.drop cursor) := by
  induction blocks with
  | nil => rfl
  | cons block rest ih =>
      have hkind : block.kind ≠ text "manim" := by
        simpa using List.filter_eq_nil_iff.mp h block List.mem_cons_self
      have hrest : animations rest = [] := by
        unfold animations at h
        rw [List.filter_cons_of_neg (by simpa using hkind)] at h
        exact h
      rw [bodyLoop, if_pos hkind]
      exact ih hrest

/--
Rendering replaces each animation by its reference and keeps every other character, up to the
line ends around the text.
-/
theorem messageBody_replaces {bundle : CollectedBundle} {links : AssetLinks}
    {content : Option Text} {body : Text}
    (h : messageBody loads nfc bundle links content = .ok body) :
    FenceExpression.InOrder (content.getD []).length (findBlocks content) ∧
      (exists rendered,
        Replaces (referenceFor loads nfc bundle links) 0 (animations (findBlocks content))
          (content.getD []) rendered ∧
        body = stripBy (fun c => c = 0x0A) rendered) ∧
      (animations (findBlocks content) = [] ->
        body = stripBy (fun c => c = 0x0A) (content.getD [])) := by
  have horder := findBlocks_inOrder content
  unfold messageBody at h
  refine ⟨horder, ?_, ?_⟩
  · cases hloop : bodyLoop loads nfc bundle links (content.getD []) (findBlocks content) [] 0 with
    | error e =>
        rw [hloop] at h
        cases h
    | ok rendered =>
        rw [hloop] at h
        cases h
        rcases bodyLoop_replaces loads nfc hloop horder (fun b _ => Nat.zero_le b.start)
          with ⟨s', hrendered, hreplaces⟩
        rw [List.nil_append] at hrendered
        rw [hrendered]
        exact ⟨s', hreplaces, rfl⟩
  · intro hnone
    rw [bodyLoop_copies loads nfc hnone] at h
    cases h
    rfl

end Loop

def exampleContent : Text := text "a\n```manim\n{}\n```\nb\n"

def exampleBody : Text :=
  text "a\n> **Animation: Animation**\n" ++
    text "> This animation was not rendered; no video is available for it.\nb"

theorem messageBody_replaces_animation :
    exists rendered,
      Replaces (referenceFor (fun _ => .ok (.obj [])) id
          { selectedId := .ofInt 1, rootId := .ofInt 1, conversations := [], artifacts := [] }
          { video := fun _ => none, thumbnail := fun _ => none }) 0
        (animations (findBlocks (some exampleContent))) exampleContent rendered ∧
      exampleBody = stripBy (fun c => c = 0x0A) rendered :=
  (messageBody_replaces (fun _ => .ok (.obj [])) id
    (show messageBody (fun _ => .ok (.obj [])) id
      { selectedId := .ofInt 1, rootId := .ofInt 1, conversations := [], artifacts := [] }
      { video := fun _ => none, thumbnail := fun _ => none } (some exampleContent) =
        .ok exampleBody from by rw [messageBody, findBlocks_eq]; rfl)).right.left

end RenderMarkdown
end ConversationService
