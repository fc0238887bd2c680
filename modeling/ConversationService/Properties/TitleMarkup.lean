import ConversationService.Properties.MarkedTitles

/-!
# Titles and the structure of Markdown

A title that is escaped keeps to its place unless the cut at its limit falls between a
character and its backslash. A title that the README has as it is keeps to its place only if
nothing in it has a meaning.
-/

namespace ConversationService

open Python Escapes Trimming

namespace RenderMarkdown

/-!
# Escapes that are cut
-/

/-- An escape is left open in front of the template. -/
def Dangles (m : Marked CodePoint) : Prop :=
  exists s c, isSpace c = false ∧ (0x5C, Origin.escape) :: template (s ++ [c]) <:+: m

theorem not_keepsStructure_of_dangles {m : Marked CodePoint} (h : Dangles m) :
    ¬KeepsStructure markdown m := by
  rcases h with ⟨s, c, _, front, back, rfl⟩
  intro hkeeps
  have hclosed := hkeeps.closed front 0x5C (template (s ++ [c]) ++ back)
    (by rw [List.append_assoc, List.cons_append])
  rcases hclosed.right with ⟨d, more, heq, _⟩
  cases s with
  | nil => cases (List.cons.inj heq).left
  | cons a s => cases (List.cons.inj heq).left

theorem Dangles.mono {m m' : Marked CodePoint} (h : Dangles m) (hm : m <:+: m') : Dangles m' := by
  rcases h with ⟨s, c, hc, hinfix⟩
  exact ⟨s, c, hc, hinfix.trans hm⟩

theorem dangles_inline {title : Text} {limit : Nat} (h : CutsEscape title limit) (s : Text)
    {c : CodePoint} (hc : isSpace c = false) (rest : Text) :
    Dangles (markedInline title limit ++ template (s ++ c :: rest)) := by
  rcases markedInline_cut h with ⟨front, heq⟩
  refine ⟨s, c, hc, front, template rest, ?_⟩
  have hsplit : s ++ c :: rest = s ++ [c] ++ rest := by
    rw [List.append_assoc, List.singleton_append]
  rw [heq, hsplit, template_append _ rest]
  simp only [List.append_assoc, List.cons_append, List.nil_append]

theorem dangles_dropWhile {p : CodePoint -> Bool} (hp : p 0x5C = false) {m : Marked CodePoint}
    (h : Dangles m) : Dangles (m.dropWhile (fun c => p c.1)) := by
  rcases h with ⟨s, c, hc, hinfix⟩
  exact ⟨s, c, hc, infix_dropWhile hinfix hp⟩

theorem dangles_rdropWhile {p : CodePoint -> Bool} (hp : forall c, p c = true -> isSpace c = true)
    {m : Marked CodePoint} (h : Dangles m) : Dangles (m.rdropWhile (fun c => p c.1)) := by
  rcases h with ⟨s, c, hc, hinfix⟩
  have hkept : p c = false := by
    cases hpc : p c with
    | false => rfl
    | true =>
        rw [hp c hpc] at hc
        cases hc
  refine ⟨s, c, hc, ?_⟩
  rw [template_append, ← List.cons_append] at hinfix ⊢
  exact infix_rdropWhile hinfix hkept

/-!
# Lines
-/

theorem infix_joinMarked {sep : Text} {part : Marked CodePoint}
    {parts : List (Marked CodePoint)} (h : part ∈ parts) : part <:+: joinMarked sep parts := by
  induction parts with
  | nil => cases h
  | cons next rest ih =>
      cases rest with
      | nil =>
          rw [List.mem_singleton.mp h]
          exact List.infix_refl _
      | cons other rest =>
          rw [joinMarked_cons_cons]
          rcases List.mem_cons.mp h with rfl | h
          · rw [List.append_assoc]
            exact (List.prefix_append _ _).isInfix
          · exact (ih h).trans (List.suffix_append _ _).isInfix

theorem neutral_joinMarked {sep : Text} {c : CodePoint} (hsep : sep.getLast? = some c)
    (hc : c ≠ 0x5C) {pending : Bool} {parts : List (Marked CodePoint)}
    (hfirst : forall part, parts.head? = some part -> Neutral markdown pending part)
    (hparts : forall part, part ∈ parts -> Neutral markdown false part) :
    Neutral markdown pending (joinMarked sep parts) := by
  induction parts generalizing pending with
  | nil => exact .nil
  | cons part rest ih =>
      cases rest with
      | nil => exact hfirst part rfl
      | cons next rest =>
          have hrest : Neutral markdown false (joinMarked sep (next :: rest)) :=
            ih (fun part hpart => hparts part (List.mem_cons_of_mem _ (List.mem_of_head? hpart)))
              (fun part hpart => hparts part (List.mem_cons_of_mem _ hpart))
          rw [joinMarked_cons_cons, List.append_assoc]
          exact neutral_append (hfirst part rfl) (neutral_behind hsep hc hrest)

theorem neutral_line {s t : Text} {c : CodePoint} {label : Marked CodePoint}
    (hs : s.getLast? = some c) (hc : c ≠ 0x5C) (hlabel : Neutral markdown false label)
    (pending : Bool) : Neutral markdown pending (template s ++ label ++ template t) := by
  rw [List.append_assoc]
  exact neutral_behind hs hc (neutral_append hlabel (fun pending => neutral_template pending t))
    pending

/-!
# References
-/

theorem neutral_markedLabel {title : Text} (h : ¬CutsEscape title 160) :
    Neutral markdown false (markedLabel title) := by
  unfold markedLabel
  split
  · exact neutral_template false _
  · exact neutral_markedInline h

theorem neutral_reference {title : Text} (h : ¬CutsEscape title 160)
    (artifact : Option (UUID × ArtifactRow)) (links : AssetLinks) (pending : Bool) :
    Neutral markdown pending (markedReference title artifact links) := by
  have hlabel := neutral_markedLabel h
  have hheading : forall pending, Neutral markdown pending
      (template (text "> **Animation: ") ++ markedLabel title ++ template (text "**")) :=
    neutral_line (c := 0x20) rfl (by decide) hlabel
  have hmissing : forall state : Text, Neutral markdown pending
      (template (text "> **Animation: ") ++ markedLabel title ++ template (text "**") ++
        template (text "\n> This animation " ++ state ++
          text "; no video is available for it.")) :=
    fun state => neutral_append (hheading pending) (fun pending => neutral_template pending _)
  unfold markedReference
  cases artifact with
  | none => exact hmissing _
  | some artifact =>
      dsimp only
      split
      · exact hmissing _
      · have hjoin : forall last : Marked CodePoint,
            (forall pending, Neutral markdown pending last) ->
            Neutral markdown pending (joinMarked (text "\n")
              ([template (text "> **Animation: ") ++ markedLabel title ++ template (text "**")] ++
                ((truthy (links.thumbnail artifact)).map (fun thumb =>
                  template (text "> ![Preview of ") ++ markedLabel title ++
                    template (text "](" ++ thumb ++ text ")"))).toList ++ [last])) := by
          intro last hlast
          have hlines : forall part, part ∈ [template (text "> **Animation: ") ++
              markedLabel title ++ template (text "**")] ++
                ((truthy (links.thumbnail artifact)).map (fun thumb =>
                  template (text "> ![Preview of ") ++ markedLabel title ++
                    template (text "](" ++ thumb ++ text ")"))).toList ++ [last] ->
              forall pending, Neutral markdown pending part := by
            intro part hpart
            rcases List.mem_append.mp hpart with hpart | hpart
            · rcases List.mem_append.mp hpart with hpart | hpart
              · rw [List.mem_singleton.mp hpart]
                exact hheading
              · rcases Option.map_eq_some_iff.mp (Option.mem_toList.mp hpart) with ⟨thumb, _, rfl⟩
                exact neutral_line (c := 0x20) rfl (by decide) hlabel
            · rw [List.mem_singleton.mp hpart]
              exact hlast
          apply neutral_joinMarked (c := 0x0A) rfl (by decide)
          · intro part hpart
            exact hlines part (List.mem_of_head? hpart) pending
          · intro part hpart
            exact hlines part hpart false
        apply hjoin
        cases truthy (links.video artifact) with
        | none => exact fun pending => neutral_template pending _
        | some video => exact neutral_line (c := 0x5B) rfl (by decide) hlabel

theorem dangles_reference {title : Text} (h : CutsEscape title 160)
    (artifact : Option (UUID × ArtifactRow)) (links : AssetLinks) :
    Dangles (markedReference title artifact links) := by
  have hlabel : markedLabel title = markedInline title 160 := by
    unfold markedLabel
    rw [if_neg]
    intro hempty
    rcases h with ⟨front, c, back, heq, _⟩
    rw [List.isEmpty_iff.mp hempty] at heq
    exact List.cons_ne_nil _ _ (List.append_eq_nil_iff.mp heq.symm).right
  have hheading : Dangles
      (template (text "> **Animation: ") ++ markedLabel title ++ template (text "**")) := by
    rw [hlabel, List.append_assoc]
    exact (dangles_inline h [] (by decide) (text "*")).mono (List.suffix_append _ _).isInfix
  have hmissing : forall state : Text, Dangles
      (template (text "> **Animation: ") ++ markedLabel title ++ template (text "**") ++
        template (text "\n> This animation " ++ state ++
          text "; no video is available for it.")) :=
    fun state => hheading.mono (List.prefix_append _ _).isInfix
  unfold markedReference
  cases artifact with
  | none => exact hmissing _
  | some artifact =>
      dsimp only
      split
      · exact hmissing _
      · apply hheading.mono
        apply infix_joinMarked
        exact List.mem_append_left _ (List.mem_append_left _ List.mem_cons_self)

/-!
# Messages
-/

section Conversation

variable (loads : Text -> Except PyExc Json) (nfc : Text -> Text)

/-- A title stands in a reference of a message. -/
def IsAnimationTitle (bundle : CollectedBundle) (m : Message) (title : Text) : Prop :=
  exists block artifact, block ∈ FenceExpression.findBlocks m.content ∧
    block.kind = text "manim" ∧ animationOf loads nfc bundle block = .ok (title, artifact)

variable {loads nfc} {bundle : CollectedBundle} {links : AssetLinks}

theorem neutral_markedLoop {content : Text} {blocks : List LocatedBlock} {cursor : Nat}
    {m : Marked CodePoint} (hm : markedLoop loads nfc bundle links content blocks cursor = .ok m)
    (h : forall block title artifact, block ∈ blocks -> block.kind = text "manim" ->
      animationOf loads nfc bundle block = .ok (title, artifact) -> ¬CutsEscape title 160)
    (pending : Bool) : Neutral markdown pending m := by
  induction blocks generalizing cursor m pending with
  | nil =>
      cases hm
      exact neutral_template pending _
  | cons block rest ih =>
      have hrest := fun b title artifact hb => h b title artifact (List.mem_cons_of_mem block hb)
      rw [markedLoop] at hm
      split at hm
      · exact ih hm hrest pending
      · rename_i hkind
        cases hshown : animationOf loads nfc bundle block with
        | error e =>
            rw [hshown] at hm
            cases hm
        | ok shown =>
            rw [hshown] at hm
            cases hmore : markedLoop loads nfc bundle links content rest block.stop with
            | error e =>
                rw [show Except.bind (Except.ok shown) _ = _ from rfl, hmore] at hm
                cases hm
            | ok more =>
                rw [show Except.bind (Except.ok shown) _ = _ from rfl, hmore] at hm
                cases hm
                have hcut := h block shown.1 shown.2 List.mem_cons_self (not_not.mp hkind) hshown
                apply neutral_append (neutral_template pending _)
                intro pending
                exact neutral_append (neutral_reference hcut shown.2 links pending)
                  (ih hmore hrest)

theorem dangles_markedLoop {content : Text} {blocks : List LocatedBlock} {cursor : Nat}
    {m : Marked CodePoint} (hm : markedLoop loads nfc bundle links content blocks cursor = .ok m)
    {block : LocatedBlock} {title : Text} {artifact : Option (UUID × ArtifactRow)}
    (hblock : block ∈ blocks) (hkind : block.kind = text "manim")
    (hshown : animationOf loads nfc bundle block = .ok (title, artifact))
    (hcut : CutsEscape title 160) : Dangles m := by
  induction blocks generalizing cursor m with
  | nil => cases hblock
  | cons first rest ih =>
      rw [markedLoop] at hm
      split at hm
      · rename_i hother
        rcases List.mem_cons.mp hblock with rfl | hblock
        · exact absurd hkind hother
        · exact ih hm hblock
      · cases hfirst : animationOf loads nfc bundle first with
        | error e =>
            rw [hfirst] at hm
            cases hm
        | ok shown =>
            rw [hfirst] at hm
            cases hmore : markedLoop loads nfc bundle links content rest first.stop with
            | error e =>
                rw [show Except.bind (Except.ok shown) _ = _ from rfl, hmore] at hm
                cases hm
            | ok more =>
                rw [show Except.bind (Except.ok shown) _ = _ from rfl, hmore] at hm
                cases hm
                rcases List.mem_cons.mp hblock with rfl | hblock
                · rw [hfirst] at hshown
                  cases hshown
                  apply (dangles_reference hcut artifact links).mono
                  exact (List.prefix_append _ _).isInfix.trans (List.suffix_append _ _).isInfix
                · apply (ih hmore hblock).mono
                  exact (List.suffix_append _ _).isInfix.trans (List.suffix_append _ _).isInfix

theorem neutral_markedBody {msg : Message} {m : Marked CodePoint}
    (hm : markedBody loads nfc bundle links msg.content = .ok m)
    (h : forall title, IsAnimationTitle loads nfc bundle msg title -> ¬CutsEscape title 160) :
    Neutral markdown false m := by
  unfold markedBody at hm
  cases hloop : markedLoop loads nfc bundle links (msg.content.getD [])
      (FenceExpression.findBlocks msg.content) 0 with
  | error e =>
      rw [hloop] at hm
      cases hm
  | ok whole =>
      rw [hloop] at hm
      cases hm
      have hwhole := neutral_markedLoop hloop (fun block title artifact hblock hkind hshown =>
        h title ⟨block, artifact, hblock, hkind, hshown⟩) false
      apply neutral_rdropWhile _ (neutral_dropWhile _ hwhole rfl)
      · intro c o hspecial
        apply decide_eq_false
        rintro rfl
        exact absurd hspecial (by decide)
      · intro o
        rfl

theorem dangles_markedBody {msg : Message} {m : Marked CodePoint}
    (hm : markedBody loads nfc bundle links msg.content = .ok m) {title : Text}
    (h : IsAnimationTitle loads nfc bundle msg title) (hcut : CutsEscape title 160) :
    Dangles m := by
  unfold markedBody at hm
  rcases h with ⟨block, artifact, hblock, hkind, hshown⟩
  cases hloop : markedLoop loads nfc bundle links (msg.content.getD [])
      (FenceExpression.findBlocks msg.content) 0 with
  | error e =>
      rw [hloop] at hm
      cases hm
  | ok whole =>
      rw [hloop] at hm
      cases hm
      have hwhole := dangles_markedLoop hloop hblock hkind hshown hcut
      have hspace : forall c : CodePoint, decide (c = 0x0A) = true -> isSpace c = true := by
        intro c hc
        rw [of_decide_eq_true hc]
        decide
      have hfront : Dangles (whole.dropWhile (fun c => decide (c.1 = 0x0A))) :=
        dangles_dropWhile (p := fun c => decide (c = 0x0A)) (by decide) hwhole
      exact dangles_rdropWhile hspace hfront

theorem mem_markedMessages {messages : List Message} {lines : List (Marked CodePoint)}
    (hlines : markedMessages loads nfc bundle links messages = .ok lines) :
    (forall line, line ∈ lines -> (exists s, line = template s) ∨
      exists msg, msg ∈ messages ∧ markedBody loads nfc bundle links msg.content = .ok line) ∧
    forall msg, msg ∈ messages ->
      exists line, line ∈ lines ∧ markedBody loads nfc bundle links msg.content = .ok line := by
  induction messages generalizing lines with
  | nil =>
      cases hlines
      exact ⟨fun line hline => absurd hline List.not_mem_nil,
        fun msg hmsg => absurd hmsg List.not_mem_nil⟩
  | cons first rest ih =>
      rw [markedMessages] at hlines
      cases hbody : markedBody loads nfc bundle links first.content with
      | error e =>
          rw [hbody] at hlines
          cases hlines
      | ok body =>
          cases hmore : markedMessages loads nfc bundle links rest with
          | error e =>
              rw [hbody, show Except.bind (Except.ok body) _ = _ from rfl, hmore] at hlines
              cases hlines
          | ok more =>
              rw [hbody, show Except.bind (Except.ok body) _ = _ from rfl, hmore] at hlines
              cases hlines
              rcases ih hmore with ⟨hall, hmem⟩
              constructor
              · intro line hline
                rcases List.mem_append.mp hline with hline | hline
                · simp only [List.mem_cons, List.not_mem_nil, or_false] at hline
                  rcases hline with rfl | rfl | rfl | rfl
                  · exact Or.inl ⟨messageHeading first, rfl⟩
                  · exact Or.inl ⟨[], rfl⟩
                  · exact Or.inr ⟨first, List.mem_cons_self, hbody⟩
                  · exact Or.inl ⟨[], rfl⟩
                · rcases hall line hline with htemplate | ⟨msg, hmsg, hline⟩
                  · exact Or.inl htemplate
                  · exact Or.inr ⟨msg, List.mem_cons_of_mem first hmsg, hline⟩
              · intro msg hmsg
                rcases List.mem_cons.mp hmsg with rfl | hmsg
                · refine ⟨body, List.mem_append_left _ ?_, hbody⟩
                  simp only [List.mem_cons, true_or, or_true]
                · rcases hmem msg hmsg with ⟨line, hline, heq⟩
                  exact ⟨line, List.mem_append_right _ hline, heq⟩

/-!
# Conversations
-/

theorem neutral_markedHeading {title : Option Text} (h : ¬CutsEscape (title.getD []) 200) :
    Neutral markdown false (markedHeading title) := by
  unfold markedHeading
  dsimp only
  split
  · exact neutral_template false _
  · exact neutral_markedInline h

theorem dangles_heading {title : Option Text} (hcut : CutsEscape (title.getD []) 200)
    {c : CodePoint} (hc : isSpace c = false) (t : Text) (rest : List (Marked CodePoint)) :
    Dangles (joinMarked (text "\n")
      ((template (text "# ") ++ markedHeading title) :: [] :: template (c :: t) :: rest)) := by
  have hheading : markedHeading title = markedInline (title.getD []) 200 := by
    rcases markedInline_cut hcut with ⟨front, heq⟩
    unfold markedHeading
    dsimp only
    rw [if_neg]
    rw [heq, List.isEmpty_iff]
    exact List.append_ne_nil_of_right_ne_nil _ (List.cons_ne_nil _ _)
  have hbehind : exists more, joinMarked (text "\n") (template (c :: t) :: rest) =
      template [c] ++ more := by
    cases rest with
    | nil => exact ⟨template t, rfl⟩
    | cons next rest => exact ⟨template t ++ template (text "\n") ++
        joinMarked (text "\n") (next :: rest), rfl⟩
  rcases hbehind with ⟨more, hmore⟩
  rw [joinMarked_cons_cons, joinMarked_cons_cons, hmore, hheading, List.nil_append]
  apply (dangles_inline hcut (text "\n\n") hc []).mono
  refine ⟨template (text "# "), more, ?_⟩
  have hsplit : template (text "\n\n" ++ [c]) =
      template (text "\n") ++ (template (text "\n") ++ template [c]) := rfl
  rw [hsplit]
  simp only [List.append_assoc]

theorem neutral_markedBranchLines {ec : ExportConversation} {parentTitle : Option Text}
    (h : forall title, ec.parentId.isSome = true -> truthy parentTitle = some title ->
      ¬CutsEscape title 160) :
    forall line, line ∈ markedBranchLines ec parentTitle -> Neutral markdown false line := by
  intro line hline
  unfold markedBranchLines at hline
  cases hparent : ec.parentId with
  | none =>
      rw [hparent] at hline
      rcases Option.map_eq_some_iff.mp (Option.mem_toList.mp hline) with ⟨_, _, rfl⟩
      exact neutral_template false _
  | some parentId =>
      rw [hparent] at hline
      rcases List.mem_append.mp hline with hline | hline
      · rw [List.mem_singleton.mp hline]
        apply neutral_append (neutral_template false _)
        intro pending
        cases htitle : truthy parentTitle with
        | none => exact .nil
        | some title =>
            have hcut := h title (by rw [hparent]; rfl) htitle
            exact neutral_line (c := 0x28) rfl (by decide) (neutral_markedInline hcut) pending
      · rcases Option.map_eq_some_iff.mp (Option.mem_toList.mp hline) with ⟨_, _, rfl⟩
        exact neutral_template false _

variable (loads nfc) in
/-- A title stands in the file of a conversation, where it is cut at a limit. -/
def IsInlined (bundle : CollectedBundle) (ec : ExportConversation) (parentTitle : Option Text)
    (title : Text) (limit : Nat) : Prop :=
  (title = ec.conversation.title.getD [] ∧ limit = 200) ∨
    (ec.parentId.isSome = true ∧ truthy parentTitle = some title ∧ limit = 160) ∨
    (exists msg, msg ∈ ec.messages ∧ IsAnimationTitle loads nfc bundle msg title ∧ limit = 160)

variable {ec : ExportConversation} {parentTitle : Option Text} {m : Marked CodePoint}

theorem lines_of_markedConversation
    (hm : markedConversation loads nfc ec bundle links parentTitle = .ok m) :
    exists lines, markedMessages loads nfc bundle links ec.messages = .ok lines ∧
      m = (joinMarked (text "\n") (markedHead ec parentTitle ++ lines)).rdropWhile
        (fun c => isSpace c.1) ++ template (text "\n") := by
  unfold markedConversation at hm
  cases hlines : markedMessages loads nfc bundle links ec.messages with
  | error e =>
      rw [hlines] at hm
      cases hm
  | ok lines =>
      rw [hlines] at hm
      cases hm
      exact ⟨lines, rfl, rfl⟩

theorem neutral_markedConversation
    (hm : markedConversation loads nfc ec bundle links parentTitle = .ok m)
    (h : forall title limit, IsInlined loads nfc bundle ec parentTitle title limit ->
      ¬CutsEscape title limit) : Neutral markdown false m := by
  rcases lines_of_markedConversation hm with ⟨lines, hlines, rfl⟩
  have hall : forall line, line ∈ markedHead ec parentTitle ++ lines ->
      Neutral markdown false line := by
    intro line hline
    rcases List.mem_append.mp hline with hline | hline
    · unfold markedHead at hline
      rcases List.mem_append.mp hline with hline | hline
      · rcases List.mem_append.mp hline with hline | hline
        · rcases List.mem_append.mp hline with hline | hline
          · simp only [List.mem_cons, List.not_mem_nil, or_false] at hline
            rcases hline with rfl | rfl | rfl | rfl | rfl
            · apply neutral_behind (c := 0x20) rfl (by decide)
              exact neutral_markedHeading (h _ _ (Or.inl ⟨rfl, rfl⟩))
            · exact .nil
            · exact neutral_template false _
            · exact neutral_template false _
            · exact neutral_template false _
          · exact neutral_markedBranchLines
              (fun title hparent htitle => h title 160 (Or.inr (Or.inl ⟨hparent, htitle, rfl⟩)))
              line hline
        · simp only [List.mem_cons, List.not_mem_nil, or_false] at hline
          rcases hline with rfl | rfl | rfl
          · exact .nil
          · exact neutral_template false _
          · exact .nil
      · split at hline
        · simp only [List.mem_cons, List.not_mem_nil, or_false] at hline
          rcases hline with rfl | rfl
          · exact neutral_template false _
          · exact .nil
        · cases hline
    · rcases (mem_markedMessages hlines).left line hline with ⟨s, rfl⟩ | ⟨msg, hmsg, hbody⟩
      · exact neutral_template false s
      · exact neutral_markedBody hbody
          (fun title htitle => h title 160 (Or.inr (Or.inr ⟨msg, hmsg, htitle, rfl⟩)))
  have hjoined : Neutral markdown false
      (joinMarked (text "\n") (markedHead ec parentTitle ++ lines)) :=
    neutral_joinMarked (c := 0x0A) rfl (by decide)
      (fun part hpart => hall part (List.mem_of_head? hpart)) hall
  apply neutral_append
  · apply neutral_rdropWhile _ hjoined
    intro c o hspecial
    have hnone : (text "\\`*_\x7b\x7d[]<>#|").all (fun c => !isSpace c) = true := by decide
    simpa using List.all_eq_true.mp hnone c (mem_of_isSpecial hspecial)
  · exact fun pending => neutral_template pending _

theorem dangles_markedConversation
    (hm : markedConversation loads nfc ec bundle links parentTitle = .ok m) {title : Text}
    {limit : Nat} (h : IsInlined loads nfc bundle ec parentTitle title limit)
    (hcut : CutsEscape title limit) : Dangles m := by
  rcases lines_of_markedConversation hm with ⟨lines, hlines, rfl⟩
  have hjoined : Dangles (joinMarked (text "\n") (markedHead ec parentTitle ++ lines)) := by
    rcases h with ⟨rfl, rfl⟩ | ⟨hparent, htitle, rfl⟩ | ⟨msg, hmsg, htitle, rfl⟩
    · -- the line behind the heading starts with a dash
      exact dangles_heading hcut (show isSpace 0x2D = false by decide) _ _
    · have hline : Dangles ((markedBranchLines ec parentTitle).headD []) := by
        rcases Option.isSome_iff_exists.mp hparent with ⟨parentId, hparentId⟩
        unfold markedBranchLines
        rw [hparentId, htitle]
        apply (dangles_inline hcut [] (show isSpace 0x29 = false by decide) []).mono
        refine ⟨template (text "- **Branched from:** `" ++ parentId.toText ++ text "`") ++
          template (text " ("), [], ?_⟩
        show _ = template (text "- **Branched from:** `" ++ parentId.toText ++ text "`") ++
          (template (text " (") ++ markedInline title 160 ++ template (text ")"))
        simp only [List.append_assoc, List.append_nil]
        rfl
      apply hline.mono
      apply infix_joinMarked
      apply List.mem_append_left
      unfold markedHead
      apply List.mem_append_left
      apply List.mem_append_left
      apply List.mem_append_right
      cases hbranch : markedBranchLines ec parentTitle with
      | nil =>
          rw [hbranch] at hline
          rcases hline with ⟨s, c, _, front, back, heq⟩
          cases (List.append_eq_nil_iff.mp (List.append_eq_nil_iff.mp heq).left).right
      | cons line rest => exact List.mem_cons_self
    · rcases (mem_markedMessages hlines).right msg hmsg with ⟨line, hline, hbody⟩
      apply (dangles_markedBody hbody htitle hcut).mono
      exact infix_joinMarked (List.mem_append_right _ hline)
  apply (dangles_rdropWhile (fun c hc => hc) hjoined).mono
  exact (List.prefix_append _ _).isInfix

/-- The file of a conversation keeps its structure exactly if no cut falls behind a backslash. -/
theorem keepsStructure_conversation_iff
    (hm : markedConversation loads nfc ec bundle links parentTitle = .ok m) :
    KeepsStructure markdown m <->
      forall title limit, IsInlined loads nfc bundle ec parentTitle title limit ->
        ¬CutsEscape title limit := by
  constructor
  · intro hkeeps title limit h hcut
    exact not_keepsStructure_of_dangles (dangles_markedConversation hm h hcut) hkeeps
  · exact fun h => keepsStructure_of_neutral (neutral_markedConversation hm h)

end Conversation

end RenderMarkdown

namespace ExportArchive

open RenderMarkdown

/-!
# The README
-/

/-- Nothing in a text has a meaning. -/
def IsPlain (s : Text) : Prop :=
  forall c, c ∈ s -> isSpecial c = false ∧ isLineEnd c = false

theorem neutral_plain {s : Text} (h : IsPlain s) :
    Neutral markdown false (s.map (fun c => (c, Origin.title))) := by
  induction s with
  | nil => exact .nil
  | cons c s ih =>
      rcases h c List.mem_cons_self with ⟨hspecial, hline⟩
      exact .plain hspecial hline (ih (fun d hd => h d (List.mem_cons_of_mem c hd)))

theorem neutral_markedTitle {entry : ManifestEntry} (h : IsPlain (entry.title.getD [])) :
    Neutral markdown false (markedTitle entry) := by
  unfold markedTitle
  cases htitle : truthy entry.title with
  | none => exact neutral_template false _
  | some title =>
      rw [(Option.filter_eq_some_iff.mp htitle).left] at h
      exact neutral_plain h

theorem getLast_indent (depth : Nat) :
    ((List.replicate depth (text "  ")).flatten ++ text "- [").getLast? = some 0x5B := by
  rw [List.getLast?_append]
  rfl

section Readme

variable {generatedAt : Datetime} {convs : List ManifestEntry} {includeMedia : Bool}
  {omitted : List (UUID × Text)}

theorem mem_readmeLines {line : Marked CodePoint}
    (h : line ∈ (layoutLines generatedAt convs.length).map template ++ convs.map markedContents ++
      (noteLines includeMedia).map template ++ (omittedLines omitted).map template ++
      (if (markedOrphans convs).isEmpty then []
        else [[], template (text "## Branches whose parent is unavailable"), []] ++
          markedOrphans convs)) :
    (exists s, line = template s) ∨ exists entry, entry ∈ convs ∧
      (line = markedContents entry ∨ exists parentId, line = markedOrphan entry parentId) := by
  have htemplate : forall {lines : List Text}, line ∈ lines.map template ->
      exists s, line = template s := by
    intro lines hline
    rcases List.mem_map.mp hline with ⟨s, _, rfl⟩
    exact ⟨s, rfl⟩
  rcases List.mem_append.mp h with h | h
  · rcases List.mem_append.mp h with h | h
    · rcases List.mem_append.mp h with h | h
      · rcases List.mem_append.mp h with h | h
        · exact Or.inl (htemplate h)
        · rcases List.mem_map.mp h with ⟨entry, hentry, rfl⟩
          exact Or.inr ⟨entry, hentry, Or.inl rfl⟩
      · exact Or.inl (htemplate h)
    · exact Or.inl (htemplate h)
  · split at h
    · cases h
    · rcases List.mem_append.mp h with h | h
      · simp only [List.mem_cons, List.not_mem_nil, or_false] at h
        rcases h with rfl | rfl | rfl
        · exact Or.inl ⟨[], rfl⟩
        · exact Or.inl ⟨_, rfl⟩
        · exact Or.inl ⟨[], rfl⟩
      · rcases List.mem_filterMap.mp h with ⟨entry, hentry, horphan⟩
        rcases Option.map_eq_some_iff.mp horphan with ⟨parentId, _, rfl⟩
        exact Or.inr ⟨entry, hentry, Or.inr ⟨parentId, rfl⟩⟩

theorem neutral_markedReadme
    (h : forall entry, entry ∈ convs -> IsPlain (entry.title.getD [])) :
    Neutral markdown false (markedReadme generatedAt convs includeMedia omitted) := by
  have hlines : forall line, line ∈ (layoutLines generatedAt convs.length).map template ++
      convs.map markedContents ++ (noteLines includeMedia).map template ++
      (omittedLines omitted).map template ++
      (if (markedOrphans convs).isEmpty then []
        else [[], template (text "## Branches whose parent is unavailable"), []] ++
          markedOrphans convs) -> Neutral markdown false line := by
    intro line hline
    rcases mem_readmeLines hline with ⟨s, rfl⟩ | ⟨entry, hentry, rfl | ⟨parentId, rfl⟩⟩
    · exact neutral_template false s
    · exact neutral_line (getLast_indent entry.depth) (by decide)
        (neutral_markedTitle (h entry hentry)) false
    · exact neutral_line (c := 0x20) rfl (by decide) (neutral_markedTitle (h entry hentry)) false
  unfold markedReadme
  apply neutral_append
  · exact neutral_joinMarked (c := 0x0A) rfl (by decide)
      (fun part hpart => hlines part (List.mem_of_head? hpart)) hlines
  · exact fun pending => neutral_template pending _

theorem mem_joinMarked {sep : Text} {parts : List (Marked CodePoint)} {x : CodePoint × Origin}
    (h : x ∈ joinMarked sep parts) :
    x ∈ template sep ∨ exists part, part ∈ parts ∧ x ∈ part := by
  induction parts with
  | nil => cases h
  | cons part rest ih =>
      cases rest with
      | nil => exact Or.inr ⟨part, List.mem_cons_self, h⟩
      | cons next rest =>
          rw [joinMarked_cons_cons] at h
          rcases List.mem_append.mp h with h | h
          · rcases List.mem_append.mp h with h | h
            · exact Or.inr ⟨part, List.mem_cons_self, h⟩
            · exact Or.inl h
          · rcases ih h with hsep | ⟨part, hpart, hx⟩
            · exact Or.inl hsep
            · exact Or.inr ⟨part, List.mem_cons_of_mem _ hpart, hx⟩

theorem not_escape_template {s : Text} {x : CodePoint × Origin} (h : x ∈ template s) :
    x.2 ≠ .escape := by
  rcases List.mem_map.mp h with ⟨c, _, rfl⟩
  exact fun heq => by cases heq

theorem not_escape_markedReadme {x : CodePoint × Origin}
    (h : x ∈ markedReadme generatedAt convs includeMedia omitted) : x.2 ≠ .escape := by
  have htitle : forall entry, x ∈ markedTitle entry -> x.2 ≠ .escape := by
    intro entry hx
    unfold markedTitle at hx
    cases htitle : truthy entry.title with
    | none =>
        rw [htitle] at hx
        exact not_escape_template hx
    | some title =>
        rw [htitle] at hx
        rcases List.mem_map.mp hx with ⟨c, _, rfl⟩
        exact fun heq => by cases heq
  have hline : forall {s t : Text} {entry}, x ∈ template s ++ markedTitle entry ++ template t ->
      x.2 ≠ .escape := by
    intro s t entry hx
    rcases List.mem_append.mp hx with hx | hx
    · rcases List.mem_append.mp hx with hx | hx
      · exact not_escape_template hx
      · exact htitle entry hx
    · exact not_escape_template hx
  rcases List.mem_append.mp h with h | h
  · rcases mem_joinMarked h with h | ⟨line, hpart, hx⟩
    · exact not_escape_template h
    · rcases mem_readmeLines hpart with ⟨s, rfl⟩ | ⟨entry, _, rfl | ⟨parentId, rfl⟩⟩
      · exact not_escape_template hx
      · exact hline hx
      · exact hline hx
  · exact not_escape_template h

theorem mem_markedReadme {entry : ManifestEntry} (hentry : entry ∈ convs) {c : CodePoint}
    (hc : c ∈ entry.title.getD []) :
    (c, Origin.title) ∈ markedReadme generatedAt convs includeMedia omitted := by
  have htitle : (c, Origin.title) ∈ markedTitle entry := by
    cases hwritten : entry.title with
    | none =>
        rw [hwritten] at hc
        cases hc
    | some title =>
        rw [hwritten] at hc
        have htruthy : truthy entry.title = some title := by
          apply Option.filter_eq_some_iff.mpr
          refine ⟨hwritten, ?_⟩
          cases title with
          | nil => cases hc
          | cons d title => rfl
        unfold markedTitle
        rw [htruthy]
        exact List.mem_map.mpr ⟨c, hc, rfl⟩
  have hline : (c, Origin.title) ∈ markedContents entry :=
    List.mem_append_left _ (List.mem_append_right _ htitle)
  have hpart : markedContents entry ∈ (layoutLines generatedAt convs.length).map template ++
      convs.map markedContents :=
    List.mem_append_right _ (List.mem_map.mpr ⟨entry, hentry, rfl⟩)
  unfold markedReadme
  apply List.mem_append_left
  apply (infix_joinMarked _).subset hline
  exact List.mem_append_left _ (List.mem_append_left _ (List.mem_append_left _ hpart))

/-- The README keeps its structure exactly if nothing in a title has a meaning. -/
theorem keepsStructure_readme_iff :
    KeepsStructure markdown (markedReadme generatedAt convs includeMedia omitted) <->
      forall entry, entry ∈ convs -> IsPlain (entry.title.getD []) := by
  constructor
  · intro hkeeps entry hentry c hc
    have hmem : (c, Origin.title) ∈ markedReadme generatedAt convs includeMedia omitted :=
      mem_markedReadme hentry hc
    constructor
    · cases hspecial : isSpecial c with
      | false => rfl
      | true =>
          rcases List.append_of_mem hmem with ⟨front, back, heq⟩
          rcases hkeeps.escaped front c back heq hspecial with ⟨front', hfront⟩
          have hescape : (0x5C, Origin.escape) ∈
              markedReadme generatedAt convs includeMedia omitted := by
            rw [heq, hfront]
            exact List.mem_append_left _ (List.mem_append_right _ List.mem_cons_self)
          exact absurd rfl (not_escape_markedReadme hescape)
    · exact hkeeps.oneLine c hmem
  · exact fun h => keepsStructure_of_neutral (neutral_markedReadme h)

end Readme

/-!
# Bundles
-/

section Bundle

variable (loads : Text -> Except PyExc Json) (nfc : Text -> Text)

/-- `titles.get(ec.parent_id)` -/
def parentTitle (bundle : CollectedBundle) (ec : ExportConversation) : Option Text :=
  ec.parentId.bind (fun id =>
    (byId bundle.conversations id).bind (fun parent => parent.conversation.title))

def manifest (bundle : CollectedBundle) (paths : UUID -> Text) : List ManifestEntry :=
  bundle.conversations.map (fun ec => manifestEntry ec (paths ec.conversation.conversationId))

/-- An export of a bundle: where the media and the files are, and what is said in the README. -/
structure FilePlan where
  links : ExportConversation -> AssetLinks
  paths : UUID -> Text
  generatedAt : Datetime
  includeMedia : Bool
  omitted : List (UUID × Text)

/-- The titles keep to their places in every file of an export. -/
structure KeepsTitles (bundle : CollectedBundle) (plan : FilePlan) : Prop where
  conversation : forall ec, ec ∈ bundle.conversations -> forall m,
    markedConversation loads nfc ec bundle (plan.links ec) (parentTitle bundle ec) = .ok m ->
      KeepsStructure markdown m
  readme : KeepsStructure markdown
    (markedReadme plan.generatedAt (manifest bundle plan.paths) plan.includeMedia plan.omitted)

/--
No cut falls between a character of a title and its backslash in a file that there is, and
nothing in a title of a conversation has a meaning.
-/
structure TitlesFit (bundle : CollectedBundle) (plan : FilePlan) : Prop where
  inlined : forall ec, ec ∈ bundle.conversations ->
    (exists file, renderConversationMarkdown loads nfc ec bundle (plan.links ec)
      (parentTitle bundle ec) = .ok file) ->
    forall title limit, IsInlined loads nfc bundle ec (parentTitle bundle ec) title limit ->
      ¬CutsEscape title limit
  written : forall ec, ec ∈ bundle.conversations -> IsPlain (ec.conversation.title.getD [])

variable {loads nfc} {bundle : CollectedBundle} {plan : FilePlan}

theorem exists_marked {ec : ExportConversation} {links : AssetLinks} {parent : Option Text}
    {file : Text} (h : renderConversationMarkdown loads nfc ec bundle links parent = .ok file) :
    exists m, markedConversation loads nfc ec bundle links parent = .ok m ∧
      Escapes.text m = file := by
  rw [← text_markedConversation] at h
  cases hm : markedConversation loads nfc ec bundle links parent with
  | error e =>
      rw [hm] at h
      cases h
  | ok m =>
      rw [hm] at h
      exact ⟨m, rfl, Except.ok.inj h⟩

theorem rendered_of_marked {ec : ExportConversation} {links : AssetLinks} {parent : Option Text}
    {m : Marked CodePoint} (h : markedConversation loads nfc ec bundle links parent = .ok m) :
    renderConversationMarkdown loads nfc ec bundle links parent = .ok (Escapes.text m) := by
  rw [← text_markedConversation, h]
  rfl

theorem keepsTitles_iff : KeepsTitles loads nfc bundle plan <-> TitlesFit loads nfc bundle plan := by
  have hreadme : (forall entry, entry ∈ manifest bundle plan.paths ->
      IsPlain (entry.title.getD [])) <->
        forall ec, ec ∈ bundle.conversations -> IsPlain (ec.conversation.title.getD []) :=
    List.forall_mem_map
  constructor
  · intro h
    constructor
    · intro ec hec hfile
      rcases hfile with ⟨file, hfile⟩
      rcases exists_marked hfile with ⟨m, hm, _⟩
      exact (keepsStructure_conversation_iff hm).mp (h.conversation ec hec m hm)
    · exact hreadme.mp (keepsStructure_readme_iff.mp h.readme)
  · intro h
    constructor
    · intro ec hec m hm
      exact (keepsStructure_conversation_iff hm).mpr (h.inlined ec hec ⟨_, rendered_of_marked hm⟩)
    · exact keepsStructure_readme_iff.mpr (hreadme.mpr h.written)

/--
The marked texts are the files, and in these the titles keep to their places exactly if they
fit.
-/
theorem titles_keep_structure_iff :
    (forall ec, (markedConversation loads nfc ec bundle (plan.links ec)
        (parentTitle bundle ec)).map Escapes.text =
      renderConversationMarkdown loads nfc ec bundle (plan.links ec) (parentTitle bundle ec)) ∧
    Escapes.text (markedReadme plan.generatedAt (manifest bundle plan.paths) plan.includeMedia
        plan.omitted) =
      renderReadme plan.generatedAt (manifest bundle plan.paths) plan.includeMedia
        plan.omitted ∧
    (KeepsTitles loads nfc bundle plan <-> TitlesFit loads nfc bundle plan) :=
  ⟨fun ec => text_markedConversation loads nfc ec bundle _ _,
    text_markedReadme _ _ _ _, keepsTitles_iff⟩

/-- One conversation without messages, whose title has a star as its 200th character. -/
def starredBundle : CollectedBundle where
  selectedId := UUID.ofInt 1
  rootId := UUID.ofInt 1
  conversations :=
    [{ conversation :=
        { conversationId := UUID.ofInt 1
          userId := none
          title := some (List.replicate 199 0x61 ++ text "*")
          createdAt := none
          updatedAt := none
          status := .active
          parentConversationId := none
          branchMessageId := none }
       depth := 0
       messages := []
       parentId := none
       missingParentId := none
       branchMessageId := none
       children := [] }]
  artifacts := []

def starredPlan : FilePlan where
  links := fun _ => ⟨fun _ => none, fun _ => none⟩
  paths := fun _ => text "conversations/a-00000000/conversation.md"
  generatedAt := ⟨0, true⟩
  includeMedia := false
  omitted := []

theorem cutsEscape_starred : CutsEscape (List.replicate 199 0x61 ++ text "*") 200 := by
  refine ⟨List.replicate 199 0x61, 0x2A, [], ?_, by decide, ?_⟩
  · decide +kernel
  · decide +kernel

/-- The heading of the file ends in a backslash with nothing behind it. -/
theorem starred_not_keepsTitles :
    ¬KeepsTitles (fun _ => .error .valueError) id starredBundle starredPlan := by
  intro h
  have hfit := keepsTitles_iff.mp h
  exact hfit.inlined _ List.mem_cons_self ⟨_, rfl⟩ _ 200 (Or.inl ⟨rfl, rfl⟩) cutsEscape_starred

end Bundle

end ExportArchive
end ConversationService
