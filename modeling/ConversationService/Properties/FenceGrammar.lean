import ConversationService.Properties.FenceScan

/-!
# The grammar of fences

The fence rules that `app/exports/blocks.py` states, as a scan over the lines of a text, and
where the expression departs from them. The expression takes a fence whose closing run goes
on with the other fence character, and under `re.IGNORECASE` it has four more letters: `ı`
and `İ` for an `i`, `ſ` for an `s` and the Kelvin sign for a `k`.
-/

namespace ConversationService
namespace FenceGrammar

open Python FencedBlock FenceExpression SpanScan

/-- A letter, a digit, `_` or `-` -/
def isNameCharacter (c : CodePoint) : Bool :=
  (0x41 ≤ c.val && c.val ≤ 0x5A) || (0x61 ≤ c.val && c.val ≤ 0x7A) ||
    (0x30 ≤ c.val && c.val ≤ 0x39) || c = 0x5F || c = 0x2D

/-- The word at the start of a text, in any case, and what follows it. -/
def wordAt (w s : Text) : Option (Text × Text) :=
  if (s.take w.length).map lowerAscii = w then some (w, s.drop w.length) else none

/-- `mermaid` or `manim` behind blanks, and no backtick in the info string that follows. -/
def kindAt (s : Text) : Option Text :=
  ((wordAt (text "mermaid") (s.dropWhile isBlankOrTab)).or
    (wordAt (text "manim") (s.dropWhile isBlankOrTab))).bind (fun found =>
      if found.2.head?.any isNameCharacter || found.2.contains 0x60 then none
      else some found.1)

/-- The fence and the kind of a line that opens a block. -/
def openingLine (line : Text) : Option (Text × Text) :=
  (unindent line).bind (fun s =>
    (fenceOf s).bind (fun found =>
      (kindAt found.2).map (fun kind => (found.1, kind))))

/-- A line that closes it: a run of the same character, at least as long, and blanks. -/
def closesLine (fence line : Text) : Bool :=
  (unindent line).any (fun s =>
    fence.length ≤ (s.takeWhile (fun c => some c = fence.head?)).length &&
      (s.dropWhile (fun c => some c = fence.head?)).all isBlankOrTab)

/-- The block that a line opens, if a later line closes it. -/
def grammarLook (line : Text) (rest : List Text) : Option (Text × Nat) :=
  (openingLine line).bind (fun found =>
    (rest.findIdx? (closesLine found.1)).map (fun n => (found.2, n)))

def grammarBlocks (content : Option Text) : List LocatedBlock :=
  scanBlocks grammarLook (linesOf content)

/-- The line closes the fence for the expression only: its run has both characters. -/
def mixes (fence line : Text) : Bool :=
  closes fence line && !closesLine fence line

/--
The expression reads a line as the grammar does. An opening line for both has no mixed run
before the line that closes it; what opens a fence for one of them only stays open there.
-/
def ReadAlike (line : Text) (rest : List Text) : Prop :=
  match openingLine line, FencedBlock.opening line with
  | some (fence, _), some _ =>
      forall before l after, rest = before ++ l :: after -> mixes fence l = true ->
        exists b, b ∈ before ∧ closesLine fence b = true
  | some (fence, _), none => forall l, l ∈ rest -> closesLine fence l = false
  | none, some (fence, _) => forall l, l ∈ rest -> closes fence l = false
  | none, none => True

/-!
# Lines
-/

theorem isWordCharacter_of_name {c : CodePoint} (h : isNameCharacter c = true) :
    isWordCharacter c = true := by
  unfold isNameCharacter at h
  unfold isWordCharacter
  rw [h]
  rfl

theorem matchesLetter_of_lower {letter c : CodePoint} (h : lowerAscii c = letter) :
    matchesLetter letter c = true := by
  unfold lowerAscii at h
  unfold matchesLetter
  by_cases hupper : 0x41 ≤ c.val ∧ c.val ≤ 0x5A
  · rw [if_pos hupper] at h
    have hval : c.val + 0x20 = letter.val := by
      rw [← h]
      exact (Nat.mod_eq_of_lt (by omega)).symm
    simp [hval]
  · rw [if_neg hupper] at h
    simp [h]

theorem lowerCharacter_eq {letter c : CodePoint} (h : lowerAscii c = letter)
    (hletter : letter ≠ 0x130) : lowerCharacter c = [letter] := by
  have hc : c ≠ 0x130 := by
    rintro rfl
    exact hletter h.symm
  unfold lowerCharacter
  rw [if_neg hc, h]

theorem matchWord_eq {w s : Text} (hw : w.all (fun letter => letter != 0x130) = true)
    (h : (s.take w.length).map lowerAscii = w) :
    matchWord w s = some (s.take w.length, s.drop w.length) ∧
      (s.take w.length).flatMap lowerCharacter = w := by
  induction w generalizing s with
  | nil => exact ⟨rfl, rfl⟩
  | cons letter w ih =>
      rw [List.all_cons, Bool.and_eq_true, bne_iff_ne] at hw
      cases s with
      | nil => cases h
      | cons c s =>
          rw [List.length_cons, List.take_succ_cons, List.map_cons] at h
          rcases List.cons.inj h with ⟨hc, hs⟩
          rcases ih hw.right hs with ⟨hmatch, hlower⟩
          constructor
          · rw [matchWord, if_pos (matchesLetter_of_lower hc), hmatch]
            rfl
          · rw [List.length_cons, List.take_succ_cons, List.flatMap_cons, hlower,
              lowerCharacter_eq hc hw.left]
            rfl

theorem matchWord_of_wordAt {w s : Text} {found : Text × Text}
    (hw : w.all (fun letter => letter != 0x130) = true) (h : wordAt w s = some found) :
    exists taken, matchWord w s = some (taken, found.2) ∧
      taken.flatMap lowerCharacter = found.1 := by
  unfold wordAt at h
  by_cases hword : (s.take w.length).map lowerAscii = w
  · rw [if_pos hword] at h
    cases h
    rcases matchWord_eq hw hword with ⟨hmatch, hlower⟩
    exact ⟨s.take w.length, hmatch, hlower⟩
  · rw [if_neg hword] at h
    cases h

theorem languageOf_of_kindAt {s : Text} {kind lang : Text} (hkind : kindAt s = some kind)
    (hlang : languageOf s = some lang) : lang.flatMap lowerCharacter = kind := by
  rcases Option.bind_eq_some_iff.mp hkind with ⟨found, hfound, hinfo⟩
  have hword : exists taken,
      (matchWord (text "mermaid") (s.dropWhile isBlankOrTab)).or
        (matchWord (text "manim") (s.dropWhile isBlankOrTab)) = some (taken, found.2) ∧
      taken.flatMap lowerCharacter = found.1 := by
    rcases Option.or_eq_some_iff.mp hfound with hmermaid | ⟨_, hmanim⟩
    · rcases matchWord_of_wordAt (by rw [mermaid_eq]; decide) hmermaid with ⟨taken, hmatch, hlower⟩
      exact ⟨taken, by rw [hmatch, Option.some_or], hlower⟩
    · rcases matchWord_of_wordAt (by rw [manim_eq]; decide) hmanim with ⟨taken, hmatch, hlower⟩
      have hnone : matchWord (text "mermaid") (s.dropWhile isBlankOrTab) = none := by
        cases hother : matchWord (text "mermaid") (s.dropWhile isBlankOrTab) with
        | none => rfl
        | some other =>
            rw [matchWord_exclusive hother] at hmatch
            cases hmatch
      exact ⟨taken, by rw [hnone, Option.none_or, hmatch], hlower⟩
  rcases hword with ⟨taken, hmatch, hlower⟩
  rw [languageOf_eq, hmatch, Option.bind_some] at hlang
  unfold infoOf at hlang
  by_cases hend : (found.2.head?.any isWordCharacter || found.2.contains 0x60) = true
  · rw [if_pos hend] at hlang
    cases hlang
  · rw [if_neg hend] at hlang
    cases hlang
    by_cases hend' : (found.2.head?.any isNameCharacter || found.2.contains 0x60) = true
    · rw [if_pos hend'] at hinfo
      cases hinfo
    · rw [if_neg hend'] at hinfo
      cases hinfo
      exact hlower

theorem opening_agrees {line : Text} {found found' : Text × Text}
    (h : openingLine line = some found) (h' : FencedBlock.opening line = some found') :
    found'.1 = found.1 ∧ found'.2.flatMap lowerCharacter = found.2 := by
  rcases Option.bind_eq_some_iff.mp h with ⟨s, hs, h⟩
  rcases Option.bind_eq_some_iff.mp h with ⟨run, hrun, h⟩
  rcases Option.map_eq_some_iff.mp h with ⟨kind, hkind, rfl⟩
  rcases Option.bind_eq_some_iff.mp h' with ⟨s', hs', h'⟩
  rcases Option.bind_eq_some_iff.mp h' with ⟨run', hrun', h'⟩
  rcases Option.map_eq_some_iff.mp h' with ⟨lang, hlang, rfl⟩
  cases hs.symm.trans hs'
  cases hrun.symm.trans hrun'
  exact ⟨rfl, languageOf_of_kindAt hkind hlang⟩

/-- One of the letters that only `re.IGNORECASE` takes for an ASCII letter. -/
def isFoldedLetter (c : CodePoint) : Bool :=
  c = 0x130 || c = 0x131 || c = 0x17F || c = 0x212A

theorem isNameCharacter_eq {c : CodePoint} (h : isFoldedLetter c = false) :
    isNameCharacter c = isWordCharacter c := by
  have hfolded : c ≠ 0x130 ∧ c ≠ 0x131 ∧ c ≠ 0x17F ∧ c ≠ 0x212A := by
    simpa [isFoldedLetter, and_assoc] using h
  simp [isNameCharacter, isWordCharacter, hfolded]

theorem lower_of_matchesLetter {letter c : CodePoint} (hc : isFoldedLetter c = false)
    (hletter : 0x61 ≤ letter.val ∧ letter.val ≤ 0x7A) (h : matchesLetter letter c = true) :
    lowerAscii c = letter := by
  have hfolded : (c ≠ 0x130 ∧ c ≠ 0x131) ∧ c ≠ 0x17F ∧ c ≠ 0x212A := by
    simpa [isFoldedLetter, and_assoc] using hc
  have hcases : c = letter ∨ c.val + 0x20 = letter.val := by
    simpa [matchesLetter, hfolded] using h
  unfold lowerAscii
  rcases hcases with rfl | hval
  · rw [if_neg (by omega)]
  · rw [if_pos (by omega)]
    apply Fin.ext
    rw [← hval]
    exact Nat.mod_eq_of_lt (by omega)

theorem wordAt_eq {w s : Text}
    (hw : w.all (fun letter => 0x61 ≤ letter.val && letter.val ≤ 0x7A) = true)
    (hs : forall c, c ∈ s -> isFoldedLetter c = false) :
    wordAt w s = (matchWord w s).map (fun found => (w, found.2)) := by
  induction w generalizing s with
  | nil => rfl
  | cons letter w ih =>
      cases s with
      | nil => rfl
      | cons c s =>
          rw [List.all_cons, Bool.and_eq_true, Bool.and_eq_true, decide_eq_true_eq,
            decide_eq_true_eq] at hw
          have hrest := ih hw.right (fun d hd => hs d (List.mem_cons_of_mem c hd))
          unfold wordAt at hrest ⊢
          rw [List.length_cons, List.take_succ_cons, List.map_cons, List.drop_succ_cons, matchWord]
          by_cases hc : matchesLetter letter c = true
          · rw [if_pos hc, lower_of_matchesLetter (hs c List.mem_cons_self) hw.left hc,
              Option.map_map]
            by_cases hword : (s.take w.length).map lowerAscii = w
            · rw [if_pos hword] at hrest
              rw [if_pos (by rw [hword])]
              rcases Option.map_eq_some_iff.mp hrest.symm with ⟨found, hfound, heq⟩
              rw [hfound, Option.map_some, ← (Prod.mk.inj heq).right]
              rfl
            · rw [if_neg hword] at hrest
              rw [if_neg (fun h => hword (List.cons.inj h).right),
                Option.map_eq_none_iff.mp hrest.symm]
              rfl
          · have hlower : lowerAscii c ≠ letter := fun h => hc (matchesLetter_of_lower h)
            rw [if_neg hc, if_neg (fun h => hlower (List.cons.inj h).left)]
            rfl

theorem kindAt_isSome {s : Text} (hs : forall c, c ∈ s -> isFoldedLetter c = false) :
    (kindAt s).isSome = (languageOf s).isSome := by
  have hs' : forall c, c ∈ s.dropWhile isBlankOrTab -> isFoldedLetter c = false :=
    fun c hc => hs c ((List.dropWhile_sublist _).subset hc)
  have hinfo : forall {w found}, matchWord w (s.dropWhile isBlankOrTab) = some found ->
      found.2.head?.any isNameCharacter = found.2.head?.any isWordCharacter := by
    intro w found hfound
    cases hrest : found.2 with
    | nil => rfl
    | cons c rest =>
        apply isNameCharacter_eq
        apply hs'
        rw [matchWord_append hfound, hrest]
        exact List.mem_append_right _ List.mem_cons_self
  rw [languageOf_eq, kindAt, wordAt_eq (by rw [mermaid_eq]; decide) hs',
    wordAt_eq (by rw [manim_eq]; decide) hs']
  cases hmermaid : matchWord (text "mermaid") (s.dropWhile isBlankOrTab) with
  | some found =>
      rw [Option.map_some, Option.some_or, Option.some_or, Option.bind_some, Option.bind_some,
        hinfo hmermaid, infoOf]
      cases found.2.head?.any isWordCharacter || found.2.contains 0x60 <;> rfl
  | none =>
      rw [Option.map_none, Option.none_or, Option.none_or]
      cases hmanim : matchWord (text "manim") (s.dropWhile isBlankOrTab) with
      | none => rfl
      | some found =>
          rw [Option.map_some, Option.bind_some, Option.bind_some, hinfo hmanim, infoOf]
          cases found.2.head?.any isWordCharacter || found.2.contains 0x60 <;> rfl

theorem openingLine_isSome {line : Text} (hline : forall c, c ∈ line -> isFoldedLetter c = false) :
    (openingLine line).isSome = (FencedBlock.opening line).isSome := by
  unfold openingLine FencedBlock.opening
  rw [unindent_eq]
  by_cases hshort : Backtracking.allowed 0 (some 3) (line.takeWhile isBlank).length
  · rw [if_pos hshort, Option.bind_some, Option.bind_some, fenceOf_eq]
    have hkind : forall {f found}, fenceFor f (line.dropWhile isBlank) = some found ->
        (kindAt found.2).isSome = (languageOf found.2).isSome := by
      intro f found hfound
      apply kindAt_isSome
      intro c hc
      apply hline
      apply (List.dropWhile_sublist isBlank).subset
      rw [fenceFor_append hfound]
      exact List.mem_append_right found.1 hc
    cases hticks : fenceFor 0x60 (line.dropWhile isBlank) with
    | some found =>
        rw [Option.some_or, Option.bind_some, Option.bind_some, Option.isSome_map,
          Option.isSome_map, hkind hticks]
    | none =>
        rw [Option.none_or]
        cases htildes : fenceFor 0x7E (line.dropWhile isBlank) with
        | none => rfl
        | some found =>
            rw [Option.bind_some, Option.bind_some, Option.isSome_map, Option.isSome_map,
              hkind htildes]
  · rw [if_neg hshort]
    rfl

/-!
# Closing lines
-/

theorem takeWhile_replicate (f : CodePoint) (s : Text) :
    s.takeWhile (fun c => c = f) = List.replicate (s.takeWhile (fun c => c = f)).length f := by
  apply List.eq_replicate_of_mem
  intro c hc
  simpa using List.mem_takeWhile_imp hc

theorem replicate_of_fenceOf {s : Text} {found : Text × Text} (h : fenceOf s = some found) :
    exists f n, found.1 = List.replicate (n + 1) f ∧ isFenceCharacter f = true := by
  have hrun : forall {f}, isFenceCharacter f = true -> fenceFor f s = some found ->
      exists f n, found.1 = List.replicate (n + 1) f ∧ isFenceCharacter f = true := by
    intro f hf h
    unfold fenceFor at h
    by_cases hlong : 3 ≤ (s.takeWhile (fun c => c = f)).length
    · rw [if_pos hlong] at h
      cases h
      refine ⟨f, (s.takeWhile (fun c => c = f)).length - 1, ?_, hf⟩
      rw [Nat.sub_add_cancel (by omega)]
      exact takeWhile_replicate f s
    · rw [if_neg hlong] at h
      cases h
  rw [fenceOf_eq] at h
  rcases Option.or_eq_some_iff.mp h with h | ⟨_, h⟩
  · exact hrun rfl h
  · exact hrun rfl h

theorem replicate_of_openingLine {line : Text} {found : Text × Text}
    (h : openingLine line = some found) :
    exists f n, found.1 = List.replicate (n + 1) f ∧ isFenceCharacter f = true := by
  rcases Option.bind_eq_some_iff.mp h with ⟨s, _, h⟩
  rcases Option.bind_eq_some_iff.mp h with ⟨run, hrun, h⟩
  rcases Option.map_eq_some_iff.mp h with ⟨kind, _, rfl⟩
  have hfence := replicate_of_fenceOf hrun
  exact hfence

theorem closes_of_closesLine {fence line : Text} {f : CodePoint} {n : Nat}
    (hfence : fence = List.replicate (n + 1) f) (hf : isFenceCharacter f = true)
    (h : closesLine fence line = true) : closes fence line = true := by
  unfold closesLine at h
  unfold closes
  cases hindent : unindent line with
  | none =>
      rw [hindent] at h
      cases h
  | some s =>
      have hhead : fence.head? = some f := by rw [hfence]; rfl
      rw [hindent, Option.any_some, hhead, Bool.and_eq_true, decide_eq_true_eq] at h
      simp only [Option.some_inj] at h
      rcases h with ⟨hlong, hblank⟩
      rcases Nat.exists_eq_add_of_le hlong with ⟨m, hm⟩
      have hsplit : s = fence ++ (List.replicate m f ++ s.dropWhile (fun c => c = f)) := by
        have hrun := takeWhile_replicate f s
        rw [hm, List.replicate_add] at hrun
        have hall := List.takeWhile_append_dropWhile (p := fun c => decide (c = f)) (l := s)
        rw [hrun, List.append_assoc] at hall
        have hself : List.replicate fence.length f = fence := by
          rw [hfence, List.length_replicate]
        rw [hself] at hall
        exact hall.symm
      have hdrop : s.drop fence.length =
          List.replicate m f ++ s.dropWhile (fun c => c = f) := by
        conv_lhs => rw [hsplit]
        exact List.drop_left
      rw [Option.any_some, hdrop, Bool.and_eq_true]
      constructor
      · rw [hsplit]
        exact List.isPrefixOf_iff_prefix.mpr (List.prefix_append _ _)
      · rw [List.dropWhile_append_of_pos
          (fun c hc => by rw [List.eq_of_mem_replicate hc]; exact hf)]
        exact List.all_eq_true.mpr (fun c hc =>
          List.all_eq_true.mp hblank c ((List.dropWhile_sublist _).subset hc))

/-- Two searches stop at the same item when the second test passes before the first alone. -/
theorem findIdx_eq_iff {p q : Text -> Bool} (hqp : forall l, q l = true -> p l = true)
    (lines : List Text) :
    lines.findIdx? p = lines.findIdx? q <->
      forall before l after, lines = before ++ l :: after -> (p l && !q l) = true ->
        exists b, b ∈ before ∧ q b = true := by
  induction lines with
  | nil =>
      constructor
      · intro _ before l after h
        exact absurd h.symm (List.append_ne_nil_of_right_ne_nil before (List.cons_ne_nil l after))
      · intro _
        rfl
  | cons line rest ih =>
      rw [List.findIdx?_cons, List.findIdx?_cons]
      cases hq : q line with
      | true =>
          rw [hqp line hq]
          constructor
          · intro _ before l after h hl
            cases before with
            | nil =>
                rw [← (List.cons.inj h).left, hq, Bool.not_true, Bool.and_false] at hl
                cases hl
            | cons b before =>
                rw [List.cons_append] at h
                exact ⟨line, by rw [(List.cons.inj h).left]; exact List.mem_cons_self, hq⟩
          · intro _
            rfl
      | false =>
          cases hp : p line with
          | true =>
              constructor
              · intro h
                cases hfind : rest.findIdx? q with
                | none => rw [hfind] at h; cases h
                | some n => rw [hfind] at h; cases h
              · intro h
                rcases h [] line rest rfl (by rw [hp, hq]; rfl) with ⟨b, hb, _⟩
                exact absurd hb List.not_mem_nil
          | false =>
              have hmap : ((rest.findIdx? p).map (fun i => i + 1) =
                  (rest.findIdx? q).map (fun i => i + 1)) <->
                  rest.findIdx? p = rest.findIdx? q :=
                (Option.map_injective (fun a b h => Nat.succ.inj h)).eq_iff
              refine hmap.trans (ih.trans ?_)
              constructor
              · intro h before l after hsplit hl
                cases before with
                | nil =>
                    rw [← (List.cons.inj hsplit).left, hp] at hl
                    cases hl
                | cons b before =>
                    rcases h before l after (List.cons.inj hsplit).right hl with ⟨b', hb', hq'⟩
                    exact ⟨b', List.mem_cons_of_mem b hb', hq'⟩
              · intro h before l after hsplit hl
                rcases h (line :: before) l after (by rw [hsplit]; rfl) hl with ⟨b, hb, hqb⟩
                rcases List.mem_cons.mp hb with rfl | hb
                · rw [hq] at hqb
                  cases hqb
                · exact ⟨b, hb, hqb⟩

/-!
# Where the two scans agree
-/

theorem look_eq_iff (line : Text) (rest : List Text) :
    look line rest = grammarLook line rest <-> ReadAlike line rest := by
  unfold look grammarLook ReadAlike
  cases hgrammar : openingLine line with
  | none =>
      cases hopening : FencedBlock.opening line with
      | none => exact ⟨fun _ => trivial, fun _ => rfl⟩
      | some found =>
          rw [Option.bind_some, Option.bind_none, Option.map_eq_none_iff,
            List.findIdx?_eq_none_iff]
  | some found =>
      cases hopening : FencedBlock.opening line with
      | none =>
          rw [Option.bind_some, Option.bind_none, eq_comm, Option.map_eq_none_iff,
            List.findIdx?_eq_none_iff]
      | some found' =>
          rcases opening_agrees hgrammar hopening with ⟨hfence, hkind⟩
          rcases replicate_of_openingLine hgrammar with ⟨f, n, hrun, hf⟩
          rw [Option.bind_some, Option.bind_some, hfence, hkind]
          have hmap : ((rest.findIdx? (closes found.1)).map (fun n => (found.2, n)) =
              (rest.findIdx? (closesLine found.1)).map (fun n => (found.2, n))) <->
              rest.findIdx? (closes found.1) = rest.findIdx? (closesLine found.1) :=
            (Option.map_injective (fun a b h => (Prod.mk.inj h).right)).eq_iff
          exact hmap.trans (findIdx_eq_iff (fun l hl => closes_of_closesLine hrun hf hl) rest)

theorem width_inj {lines : List Text} {i j : Nat} (hi : i ≤ lines.length)
    (hj : j ≤ lines.length) (h : width (lines.take i) = width (lines.take j)) : i = j := by
  rcases Nat.lt_trichotomy i j with hlt | heq | hgt
  · have h' := width_lt hlt hj
    omega
  · exact heq
  · have h' := width_lt hgt hi
    omega

theorem blockAt_inj {lines : List Text} {s t : Span Text} (hs : s.stop < lines.length)
    (ht : t.stop < lines.length) (h : blockAt lines s = blockAt lines t) : s = t := by
  have hkind : s.kind = t.kind := congrArg (fun b => b.kind) h
  have hstart : s.start = t.start := by
    apply width_inj _ _ (congrArg LocatedBlock.start h)
    · unfold Span.stop at hs
      omega
    · unfold Span.stop at ht
      omega
  have hstop : s.stop + 1 = t.stop + 1 := by
    have hpos : forall n, n + 1 ≤ lines.length -> 0 < width (lines.take (n + 1)) := by
      intro n hn
      exact Nat.zero_lt_of_lt (width_lt (Nat.succ_pos n) hn)
    have heq : width (lines.take (s.stop + 1)) - 1 = width (lines.take (t.stop + 1)) - 1 :=
      congrArg LocatedBlock.stop h
    have hs' := hpos s.stop hs
    have ht' := hpos t.stop ht
    exact width_inj hs ht (by omega)
  rcases s with ⟨start, kind, inner⟩
  rcases t with ⟨start', kind', inner'⟩
  unfold Span.stop at hstop
  dsimp only at hkind hstart hstop
  subst hkind hstart
  congr 1
  omega

theorem grammarLook_lt {line : Text} {rest : List Text} {kind : Text} {n : Nat}
    (h : grammarLook line rest = some (kind, n)) : n < rest.length := by
  rcases Option.bind_eq_some_iff.mp h with ⟨found, _, h⟩
  exact findIdx_lt h

theorem map_eq_of_injOn {α β : Type} {f : α -> β} {xs ys : List α}
    (hf : forall x, x ∈ xs -> forall y, y ∈ ys -> f x = f y -> x = y)
    (h : xs.map f = ys.map f) : xs = ys := by
  induction xs generalizing ys with
  | nil => exact (List.map_eq_nil_iff.mp h.symm).symm
  | cons x xs ih =>
      cases ys with
      | nil => cases h
      | cons y ys =>
          rw [List.map_cons, List.map_cons] at h
          rcases List.cons.inj h with ⟨hhead, htail⟩
          rw [hf x List.mem_cons_self y List.mem_cons_self hhead, ih _ htail]
          exact fun a ha b hb =>
            hf a (List.mem_cons_of_mem x ha) b (List.mem_cons_of_mem y hb)

theorem scanBlocks_eq_iff (lines : List Text) :
    scanBlocks look lines = scanBlocks grammarLook lines <->
      scan look lines = scan grammarLook lines := by
  constructor
  · intro h
    apply map_eq_of_injOn _ h
    intro s hs t ht
    exact blockAt_inj (stop_lt (fun _ _ _ _ h => look_lt h) hs)
      (stop_lt (fun _ _ _ _ h => grammarLook_lt h) ht)
  · intro h
    unfold scanBlocks
    rw [h]

/--
`find_blocks` is the grammar's scan exactly when each line at which the scan looks is read
as the grammar reads it.
-/
theorem findBlocks_iff (content : Option Text) :
    FenceExpression.findBlocks content = grammarBlocks content <->
      forall p, p ∈ places grammarLook (linesOf content) -> ReadAlike p.1 p.2 := by
  rw [findBlocks_eq, grammarBlocks, scanBlocks_eq_iff, scan_eq_iff]
  constructor
  · intro h p hp
    exact (look_eq_iff p.1 p.2).mp (h p hp)
  · intro h p hp
    exact (look_eq_iff p.1 p.2).mpr (h p hp)

/-- Without the four letters only the mixed lines matter. -/
theorem readAlike_iff {line : Text} (hline : forall c, c ∈ line -> isFoldedLetter c = false)
    (rest : List Text) :
    ReadAlike line rest <->
      forall found before l after, openingLine line = some found ->
        rest = before ++ l :: after -> mixes found.1 l = true ->
          exists b, b ∈ before ∧ closesLine found.1 b = true := by
  have hsame := openingLine_isSome hline
  unfold ReadAlike
  cases hgrammar : openingLine line with
  | none =>
      rw [hgrammar] at hsame
      have hopening : FencedBlock.opening line = none :=
        Option.isNone_iff_eq_none.mp (Option.isSome_eq_false_iff.mp hsame.symm)
      rw [hopening]
      exact ⟨fun _ _ _ _ _ h => (nomatch h), fun _ => trivial⟩
  | some found =>
      rw [hgrammar] at hsame
      rcases Option.isSome_iff_exists.mp hsame.symm with ⟨found', hopening⟩
      rw [hopening]
      constructor
      · intro h found'' before l after heq
        cases heq
        exact h before l after
      · intro h before l after
        exact h found before l after rfl

/-- A closing line of two characters ends the block two lines too early. -/
theorem mixed_line_closes :
    ¬forall content, FenceExpression.findBlocks content = grammarBlocks content := by
  intro h
  have hblocks := h (some (text "```mermaid\na\n```~~\nb\n```"))
  rw [findBlocks_eq] at hblocks
  revert hblocks
  decide

end FenceGrammar
end ConversationService
