import ConversationService.Properties.NormalisedTexts
import ConversationService.Python.Encoding

/-!
# Canonical diagrams

The canonical source of a diagram is made of its lines: normalised, without the spaces at
their ends, and without the blank lines around them. It does not change when it is made
again, and it does not depend on what the lines end with.
-/

namespace ConversationService
namespace Fingerprint

open Python SeparatedMaps

/-!
# Line endings
-/

/-- What ends a line between two texts: a line feed, a carriage return, or both together. -/
inductive IsLineEnd : Text -> Text -> Text -> Prop where
  | lineFeed {before after : Text} : before.getLast? ≠ some 0x0D ->
      IsLineEnd before [0x0A] after
  | carriageReturn {before after : Text} : after.head? ≠ some 0x0A ->
      IsLineEnd before [0x0D] after
  | both {before after : Text} : IsLineEnd before [0x0D, 0x0A] after

def rawLines (s : Text) : List Text := (unifyLineEnds s).splitOn 0x0A

def isLineBreak (c : CodePoint) : Bool := c = 0x0A || c = 0x0D

/-- Spaces that end no line. -/
def IsBlankText (s : Text) : Prop :=
  forall c, c ∈ s -> isSpace c = true ∧ isLineBreak c = false

/-- One change of a source that leaves its diagram as it is. -/
inductive SameDiagram : Text -> Text -> Prop where
  | lineEnd {before e e' after : Text} : IsLineEnd before e after -> IsLineEnd before e' after ->
      SameDiagram (before ++ e ++ after) (before ++ e' ++ after)
  | trailing {before blanks e after : Text} : IsBlankText blanks -> IsLineEnd before e after ->
      SameDiagram (before ++ blanks ++ e ++ after) (before ++ e ++ after)
  | trailingLast {before blanks : Text} : IsBlankText blanks ->
      SameDiagram (before ++ blanks) before
  | firstLine {blanks e after : Text} : IsBlankText blanks -> IsLineEnd blanks e after ->
      SameDiagram (blanks ++ e ++ after) after
  | lastLine {before e blanks : Text} : IsBlankText blanks -> IsLineEnd before e blanks ->
      SameDiagram (before ++ e ++ blanks) before

section Lines

theorem unifyLineEnds_cons {c : CodePoint} (hc : c ≠ 0x0D) (s : Text) :
    unifyLineEnds (c :: s) = c :: unifyLineEnds s := by
  rw [unifyLineEnds]
  · rintro rest rfl
    exact absurd rfl hc
  · rintro rfl
    exact hc rfl

theorem unifyLineEnds_return {s : Text} (hs : s.head? ≠ some 0x0A) :
    unifyLineEnds (0x0D :: s) = 0x0A :: unifyLineEnds s := by
  rw [unifyLineEnds]
  rintro rest rfl
  exact hs rfl

theorem unifyLineEnds_both (s : Text) :
    unifyLineEnds (0x0D :: 0x0A :: s) = 0x0A :: unifyLineEnds s := by
  rw [unifyLineEnds]

theorem unifyLineEnds_append {a x : Text}
    (h : a.getLast? = some 0x0D -> x.head? ≠ some 0x0A) :
    unifyLineEnds (a ++ x) = unifyLineEnds a ++ unifyLineEnds x := by
  induction a using unifyLineEnds.induct with
  | case1 rest ih =>
      have hrest := ih (fun hlast => h (by
        rw [List.getLast?_cons_cons, List.getLast?_cons, hlast]
        rfl))
      show unifyLineEnds (0x0D :: 0x0A :: (rest ++ x)) = _
      rw [unifyLineEnds_both, unifyLineEnds_both, hrest]
      rfl
  | case2 rest hne ih =>
      have hhead : rest.head? ≠ some 0x0A := by
        intro hhead
        rcases List.head?_eq_some_iff.mp hhead with ⟨rest', rfl⟩
        exact hne rest' rfl
      have hrest := ih (fun hlast => h (by
        rw [List.getLast?_cons, hlast]
        rfl))
      have hboth : (rest ++ x).head? ≠ some 0x0A := by
        cases rest with
        | nil => exact h rfl
        | cons d rest => exact hhead
      show unifyLineEnds (0x0D :: (rest ++ x)) = _
      rw [unifyLineEnds_return hboth, unifyLineEnds_return hhead, hrest]
      rfl
  | case3 c rest hne hne' ih =>
      have hc : c ≠ 0x0D := fun hc => hne' hc
      have hrest := ih (fun hlast => h (by
        rw [List.getLast?_cons, hlast]
        rfl))
      rw [List.cons_append, unifyLineEnds_cons hc, unifyLineEnds_cons hc, hrest]
      rfl
  | case4 => rfl

theorem head_return (s : Text) : (0x0D :: s).head? ≠ some 0x0A := by
  rw [List.head?_cons]
  decide

theorem unifyLineEnds_end {before e after : Text} (h : IsLineEnd before e after) :
    unifyLineEnds (before ++ e ++ after) =
      unifyLineEnds before ++ 0x0A :: unifyLineEnds after := by
  rw [List.append_assoc]
  cases h with
  | lineFeed hbefore =>
      rw [unifyLineEnds_append (fun hlast => absurd hlast hbefore), List.singleton_append,
        unifyLineEnds_cons (by decide)]
  | carriageReturn hafter =>
      rw [List.singleton_append, unifyLineEnds_append (fun _ => head_return after),
        unifyLineEnds_return hafter]
  | both =>
      have hjoin : [0x0D, 0x0A] ++ after = 0x0D :: 0x0A :: after := rfl
      rw [hjoin, unifyLineEnds_append (fun _ => head_return _), unifyLineEnds_both]

theorem rawLines_end {before e after : Text} (h : IsLineEnd before e after) :
    rawLines (before ++ e ++ after) = rawLines before ++ rawLines after := by
  unfold rawLines
  rw [unifyLineEnds_end h, List.splitOn_append_cons_self]

theorem unifyLineEnds_word {s : Text} (hs : forall c, c ∈ s -> isLineBreak c = false) :
    unifyLineEnds s = s := by
  induction s with
  | nil => rfl
  | cons c rest ih =>
      have hc : c ≠ 0x0D := by
        rintro rfl
        exact absurd (hs 0x0D List.mem_cons_self) (by decide)
      rw [unifyLineEnds_cons hc, ih (fun d hd => hs d (List.mem_cons_of_mem c hd))]

theorem rawLines_word {s : Text} (hs : forall c, c ∈ s -> isLineBreak c = false) :
    rawLines s = [s] := by
  unfold rawLines
  rw [unifyLineEnds_word hs]
  apply List.splitOn_eq_singleton
  intro hmem
  exact absurd (hs 0x0A hmem) (by decide)

theorem lineEnd_of_word {w : Text} (hw : forall c, c ∈ w -> isLineBreak c = false)
    (after : Text) : IsLineEnd w [0x0A] after := by
  apply IsLineEnd.lineFeed
  intro hlast
  exact absurd (hw 0x0D (List.mem_of_getLast? hlast)) (by decide)

theorem first_line (s : Text) :
    (forall c, c ∈ s -> isLineBreak c = false) ∨
      exists w e rest, s = w ++ e ++ rest ∧ (forall c, c ∈ w -> isLineBreak c = false) ∧
        IsLineEnd w e rest ∧ e ≠ [] := by
  rcases exists_word isLineBreak s with hnone | ⟨w, c, rest, rfl, hw, hc⟩
  · exact Or.inl hnone
  · right
    unfold isLineBreak at hc
    rw [Bool.or_eq_true, decide_eq_true_eq, decide_eq_true_eq] at hc
    rcases hc with rfl | rfl
    · exact ⟨w, [0x0A], rest, (List.append_assoc w [0x0A] rest).symm, hw,
        lineEnd_of_word hw rest, List.cons_ne_nil _ _⟩
    · by_cases hrest : rest.head? = some 0x0A
      · rcases List.head?_eq_some_iff.mp hrest with ⟨rest', rfl⟩
        exact ⟨w, [0x0D, 0x0A], rest', (List.append_assoc w [0x0D, 0x0A] rest').symm, hw, .both,
          List.cons_ne_nil _ _⟩
      · exact ⟨w, [0x0D], rest, (List.append_assoc w [0x0D] rest).symm, hw,
          .carriageReturn hrest, List.cons_ne_nil _ _⟩

/-- Induction from one line to the next. -/
theorem line_induction {P : Text -> Prop}
    (last : forall s, (forall c, c ∈ s -> isLineBreak c = false) -> P s)
    (step : forall w e rest, (forall c, c ∈ w -> isLineBreak c = false) -> IsLineEnd w e rest ->
      P rest -> P (w ++ e ++ rest)) (s : Text) : P s := by
  rcases first_line s with hnone | ⟨w, e, rest, hs, hw, hend, hne⟩
  · exact last s hnone
  · have hlt : rest.length < s.length := by
      have hpos := List.length_pos_of_ne_nil hne
      rw [hs, List.length_append, List.length_append]
      omega
    rw [hs]
    exact step w e rest hw hend (line_induction last step rest)
termination_by s.length

theorem word_of_mem_rawLines {s l : Text} (hl : l ∈ rawLines s) :
    forall c, c ∈ l -> isLineBreak c = false := by
  induction s using line_induction with
  | last s hs =>
      rw [rawLines_word hs, List.mem_singleton] at hl
      rw [hl]
      exact hs
  | step w e rest hw hend ih =>
      rw [rawLines_end hend, rawLines_word hw, List.singleton_append] at hl
      rcases List.mem_cons.mp hl with rfl | hrest
      · exact hw
      · exact ih hrest

theorem rawLines_append_word {s blanks : Text}
    (hblanks : forall c, c ∈ blanks -> isLineBreak c = false) :
    exists front last, rawLines s = front ++ [last] ∧
      rawLines (s ++ blanks) = front ++ [last ++ blanks] := by
  induction s using line_induction with
  | last s hs =>
      refine ⟨[], s, rawLines_word hs, rawLines_word (fun c hc => ?_)⟩
      rcases List.mem_append.mp hc with hc | hc
      · exact hs c hc
      · exact hblanks c hc
  | step w e rest hw hend ih =>
      rcases ih with ⟨front, last, hrest, hlonger⟩
      have hend' : IsLineEnd w e (rest ++ blanks) := by
        cases hend with
        | lineFeed hbefore => exact .lineFeed hbefore
        | both => exact .both
        | carriageReturn hafter =>
            apply IsLineEnd.carriageReturn
            cases rest with
            | cons d rest => exact hafter
            | nil =>
                intro hhead
                exact absurd (hblanks 0x0A (List.mem_of_head? hhead)) (by decide)
      refine ⟨rawLines w ++ front, last, ?_, ?_⟩
      · rw [rawLines_end hend, hrest, List.append_assoc]
      · rw [List.append_assoc _ rest, rawLines_end hend', hlonger, List.append_assoc]

end Lines

/-!
# Normalised lines
-/

section Normalised

variable {nfc : Text -> Text}

theorem isSpace_of_isLineBreak {c : CodePoint} (hc : isLineBreak c = true) :
    isSpace c = true ∧ c.val < 0x80 := by
  unfold isLineBreak at hc
  rw [Bool.or_eq_true, decide_eq_true_eq, decide_eq_true_eq] at hc
  rcases hc with rfl | rfl
  · decide
  · decide

theorem separated_lines (h : IsNormalisation nfc) : SeparatedMaps.Separated isLineBreak nfc := by
  apply separated_fewer h.separated (fun c hc => (isSpace_of_isLineBreak hc).left)
  intro c c' hc hmap
  by_cases hbreak : isLineBreak c' = true
  · rw [h.spaces c c' hc hmap (isSpace_of_isLineBreak hbreak).right]
  · rw [Bool.not_eq_true] at hbreak
    rw [hbreak]
    symm
    rw [← Bool.not_eq_true]
    intro hold
    have hascii := h.ascii c (isSpace_of_isLineBreak hold).right
    rw [hascii] at hmap
    rw [← (List.cons.inj hmap).left, hold] at hbreak
    cases hbreak

theorem nfc_end (h : IsNormalisation nfc) {w e rest : Text}
    (hw : forall c, c ∈ w -> isLineBreak c = false) (hend : IsLineEnd w e rest) :
    nfc (w ++ e ++ rest) = nfc w ++ e ++ nfc rest ∧ IsLineEnd (nfc w) e (nfc rest) := by
  have hlines := separated_lines h
  have hword := hlines.words w hw
  rw [List.append_assoc]
  cases hend with
  | lineFeed _ =>
      rw [List.singleton_append, hlines.splits w 0x0A rest (by decide),
        h.ascii 0x0A (by decide), List.append_assoc]
      exact ⟨rfl, lineEnd_of_word hword _⟩
  | both =>
      have hjoin : [0x0D, 0x0A] ++ rest = 0x0D :: ([] ++ 0x0A :: rest) := rfl
      rw [hjoin, hlines.splits w 0x0D _ (by decide), hlines.splits [] 0x0A rest (by decide),
        h.ascii 0x0A (by decide), h.ascii 0x0D (by decide), map_nil hlines (c := 0x0A) (by decide),
        List.append_assoc]
      exact ⟨rfl, .both⟩
  | carriageReturn hafter =>
      rw [List.singleton_append, hlines.splits w 0x0D rest (by decide),
        h.ascii 0x0D (by decide), List.append_assoc]
      refine ⟨rfl, .carriageReturn ?_⟩
      intro hhead
      have hbreak : isLineBreak 0x0A = true := by decide
      rcases exists_word isLineBreak rest with hfree | ⟨w', c, rest', rfl, hw', hc⟩
      · have hmem := hlines.words rest hfree 0x0A (List.mem_of_head? hhead)
        rw [hbreak] at hmem
        cases hmem
      · rw [hlines.splits w' c rest' hc] at hhead
        cases hnfc : nfc w' with
        | nil =>
            rw [h.nonempty w' hnfc] at hafter
            rw [hnfc, h.ascii c (isSpace_of_isLineBreak hc).right] at hhead
            exact hafter hhead
        | cons d more =>
            rw [hnfc] at hhead
            have hd := hlines.words w' hw' d (by rw [hnfc]; exact List.mem_cons_self)
            rw [Option.some.inj hhead, hbreak] at hd
            cases hd

theorem rawLines_nfc (h : IsNormalisation nfc) (s : Text) :
    rawLines (nfc s) = (rawLines s).map nfc := by
  have hlines := separated_lines h
  induction s using line_induction with
  | last s hs => rw [rawLines_word hs, rawLines_word (hlines.words s hs), List.map_singleton]
  | step w e rest hw hend ih =>
      rcases nfc_end h hw hend with ⟨hnfc, hend'⟩
      rw [hnfc, rawLines_end hend', rawLines_end hend, rawLines_word hw,
        rawLines_word (hlines.words w hw), ih, List.map_append, List.map_singleton]

theorem rstrip_eq (s : Text) : rstrip s = s.rdropWhile isSpace := rfl

theorem rstrip_append {s blanks : Text} (hblanks : forall c, c ∈ blanks -> isSpace c = true) :
    rstrip (s ++ blanks) = rstrip s := by
  induction blanks using List.reverseRecOn with
  | nil => rw [List.append_nil]
  | append_singleton front c ih =>
      have hc := hblanks c (List.mem_append_right _ (List.mem_singleton_self c))
      rw [rstrip_eq, ← List.append_assoc, List.rdropWhile_concat_pos _ _ _ hc]
      exact ih (fun d hd => hblanks d (List.mem_append_left _ hd))

theorem rstrip_rstrip (s : Text) : rstrip (rstrip s) = rstrip s := by
  rw [rstrip_eq, rstrip_eq]
  exact List.rdropWhile_idempotent _ _

theorem nfc_append_blank (h : IsNormalisation nfc) (s : Text) {blanks : Text}
    (hblanks : forall c, c ∈ blanks -> isSpace c = true) :
    exists blanks', nfc (s ++ blanks) = nfc s ++ blanks' ∧
      forall c, c ∈ blanks' -> isSpace c = true := by
  induction blanks generalizing s with
  | nil => exact ⟨[], by rw [List.append_nil, List.append_nil], fun c hc => by cases hc⟩
  | cons c rest ih =>
      have hc := hblanks c List.mem_cons_self
      have hnil : nfc [] = [] := map_nil h.separated hc
      rcases ih [] (fun d hd => hblanks d (List.mem_cons_of_mem c hd)) with ⟨rest', hrest, hspace⟩
      rcases h.separated.separator c hc with ⟨c', hmap, hc'⟩
      rw [List.nil_append, hnil, List.nil_append] at hrest
      refine ⟨c' :: rest', ?_, ?_⟩
      · rw [h.separated.splits s c rest hc, hmap, hrest]
        rfl
      · intro d hd
        rcases List.mem_cons.mp hd with rfl | hd
        · exact hc'
        · exact hspace d hd

/-- A line as it stands in a canonical source. -/
def cleanLine (nfc : Text -> Text) (line : Text) : Text := rstrip (nfc line)

theorem cleanLine_append (h : IsNormalisation nfc) (line : Text) {blanks : Text}
    (hblanks : forall c, c ∈ blanks -> isSpace c = true) :
    cleanLine nfc (line ++ blanks) = cleanLine nfc line := by
  rcases nfc_append_blank h line hblanks with ⟨blanks', hnfc, hspace⟩
  unfold cleanLine
  rw [hnfc, rstrip_append hspace]

theorem cleanLine_blank (h : IsNormalisation nfc) {blanks : Text}
    (hblanks : forall c, c ∈ blanks -> isSpace c = true) : cleanLine nfc blanks = [] := by
  have hline := cleanLine_append h [] hblanks
  have hnil : nfc [] = [] := map_nil h.separated (c := 0x20) isSpace_blank
  rw [List.nil_append] at hline
  rw [hline]
  unfold cleanLine
  rw [hnil]
  rfl

theorem cleanLine_cleanLine (h : IsNormalisation nfc) (line : Text) :
    cleanLine nfc (cleanLine nfc line) = cleanLine nfc line := by
  have hfixed : nfc (cleanLine nfc line) = cleanLine nfc line :=
    fixed_rdropWhile h.separated (fun _ hc => hc) (h.separated.idempotent line)
  show rstrip (nfc (cleanLine nfc line)) = cleanLine nfc line
  rw [hfixed]
  exact rstrip_rstrip (nfc line)

end Normalised

/-!
# Lines without blank ones around them
-/

def trimLines (lines : List Text) : List Text :=
  (lines.dropWhile List.isEmpty).rdropWhile List.isEmpty

theorem trimLines_cons (lines : List Text) : trimLines ([] :: lines) = trimLines lines := rfl

theorem trimLines_concat (lines : List Text) : trimLines (lines ++ [[]]) = trimLines lines := by
  unfold trimLines
  induction lines with
  | nil => rfl
  | cons line rest ih =>
      rw [List.cons_append, List.dropWhile_cons, List.dropWhile_cons]
      split
      · exact ih
      · rw [← List.cons_append]
        exact List.rdropWhile_concat_pos _ _ _ rfl

theorem mem_of_mem_trimLines {lines : List Text} {line : Text} (h : line ∈ trimLines lines) :
    line ∈ lines :=
  (List.dropWhile_sublist _).subset ((List.rdropWhile_prefix _ _).subset h)

theorem trimLines_head (lines : List Text) :
    trimLines lines = [] ∨ exists line rest, trimLines lines = line :: rest ∧ line ≠ [] := by
  unfold trimLines
  cases hfront : lines.dropWhile List.isEmpty with
  | nil => exact Or.inl rfl
  | cons line rest =>
      have hline : line.isEmpty = false := by
        have hhead := List.head?_dropWhile_not List.isEmpty lines
        rw [hfront] at hhead
        simpa using hhead
      rcases List.rdropWhile_prefix List.isEmpty (line :: rest) with ⟨tail, htail⟩
      cases hcut : (line :: rest).rdropWhile List.isEmpty with
      | nil =>
          have hall := List.rdropWhile_eq_nil_iff.mp hcut line List.mem_cons_self
          rw [hline] at hall
          cases hall
      | cons line' rest' =>
          rw [hcut] at htail
          refine Or.inr ⟨line', rest', rfl, ?_⟩
          rw [(List.cons.inj htail).left]
          exact List.isEmpty_eq_false_iff.mp hline

theorem trimLines_trimLines (lines : List Text) :
    trimLines (trimLines lines) = trimLines lines := by
  have hfront : (trimLines lines).dropWhile List.isEmpty = trimLines lines := by
    rcases trimLines_head lines with hnil | ⟨line, rest, hcons, hline⟩
    · rw [hnil]
      rfl
    · rw [hcons, List.dropWhile_cons_of_neg (by simpa using hline)]
  show ((trimLines lines).dropWhile List.isEmpty).rdropWhile List.isEmpty = _
  rw [hfront]
  exact List.rdropWhile_idempotent _ _

theorem join_eq_intercalate (sep : Text) (parts : List Text) :
    join sep parts = sep.intercalate parts := by
  induction parts with
  | nil => rfl
  | cons a rest ih =>
      cases rest with
      | nil => exact List.intercalate_singleton.symm
      | cons b rest => rw [join_cons_cons, List.intercalate_cons_cons, ih, List.append_assoc]

theorem join_concat (sep : Text) {parts : List Text} (hparts : parts ≠ []) (last : Text) :
    join sep (parts ++ [last]) = join sep parts ++ sep ++ last := by
  induction parts with
  | nil => exact absurd rfl hparts
  | cons a rest ih =>
      cases rest with
      | nil => rfl
      | cons b rest =>
          rw [List.cons_append, List.cons_append, join_cons_cons, join_cons_cons,
            ← List.cons_append, ih (List.cons_ne_nil _ _)]
          simp only [List.append_assoc]

section Strip

theorem dropWhile_join {lines : List Text}
    (hlines : forall line, line ∈ lines -> (0x0A : CodePoint) ∉ line) :
    (join [0x0A] lines).dropWhile (fun c => c = 0x0A) =
      join [0x0A] (lines.dropWhile List.isEmpty) := by
  have hstart : forall {c : CodePoint} {line more : Text}, (0x0A : CodePoint) ∉ c :: line ->
      (c :: line ++ more).dropWhile (fun c => c = 0x0A) = c :: line ++ more := by
    intro c line more hline
    apply List.dropWhile_cons_of_neg
    rw [decide_eq_true_eq]
    rintro rfl
    exact hline List.mem_cons_self
  induction lines with
  | nil => rfl
  | cons line rest ih =>
      have hrest := ih (fun l hl => hlines l (List.mem_cons_of_mem _ hl))
      have hline := hlines line List.mem_cons_self
      cases line with
      | nil =>
          cases rest with
          | nil => rfl
          | cons next rest => exact hrest
      | cons c line =>
          cases rest with
          | nil =>
              have hkeep := @hstart _ _ [] hline
              rw [List.append_nil] at hkeep
              exact hkeep
          | cons next rest =>
              rw [List.dropWhile_cons_of_neg (by simp), join_cons_cons, List.append_assoc]
              exact hstart hline

theorem rdropWhile_join {lines : List Text}
    (hlines : forall line, line ∈ lines -> (0x0A : CodePoint) ∉ line) :
    (join [0x0A] lines).rdropWhile (fun c => c = 0x0A) =
      join [0x0A] (lines.rdropWhile List.isEmpty) := by
  induction lines using List.reverseRecOn with
  | nil => rfl
  | append_singleton front line ih =>
      have hfront := ih (fun l hl => hlines l (List.mem_append_left _ hl))
      have hline := hlines line (List.mem_append_right _ (List.mem_singleton_self line))
      have hend : forall more : Text, line ≠ [] ->
          (more ++ line).rdropWhile (fun c => c = 0x0A) = more ++ line := by
        intro more hne
        rw [List.rdropWhile_eq_self_iff]
        intro hne'
        rw [decide_eq_true_eq, List.getLast_append_of_ne_nil _ hne]
        intro hlast
        exact hline (hlast ▸ List.getLast_mem hne)
      by_cases hempty : line = []
      · rw [hempty, List.rdropWhile_concat_pos _ _ _ rfl, ← hfront]
        by_cases hnil : front = []
        · rw [hnil]
          rfl
        · rw [join_concat _ hnil, List.append_nil]
          exact List.rdropWhile_concat_pos _ _ _ rfl
      · rw [List.rdropWhile_concat_neg _ _ _ (by simpa using hempty)]
        by_cases hnil : front = []
        · rw [hnil]
          have hkeep := hend [] hempty
          exact hkeep
        · rw [join_concat _ hnil]
          exact hend _ hempty

theorem stripBy_join {lines : List Text}
    (hlines : forall line, line ∈ lines -> (0x0A : CodePoint) ∉ line) :
    stripBy (fun c => c = 0x0A) (join [0x0A] lines) = join [0x0A] (trimLines lines) := by
  show ((join [0x0A] lines).dropWhile _).rdropWhile _ = _
  rw [dropWhile_join hlines, rdropWhile_join]
  · rfl
  · exact fun line hline => hlines line ((List.dropWhile_sublist _).subset hline)

end Strip

/-!
# Canonical sources
-/

section Sources

variable {nfc : Text -> Text}

/-- The lines of a canonical source. -/
def diagramLines (nfc : Text -> Text) (s : Text) : List Text :=
  trimLines ((rawLines s).map (cleanLine nfc))

theorem mem_of_mem_rawLines {s line : Text} {c : CodePoint} (hline : line ∈ rawLines s)
    (hc : c ∈ line) : c ∈ s := by
  induction s using line_induction with
  | last s hs =>
      rw [rawLines_word hs, List.mem_singleton] at hline
      rw [← hline]
      exact hc
  | step w e rest hw hend ih =>
      rw [rawLines_end hend, rawLines_word hw, List.singleton_append] at hline
      rcases List.mem_cons.mp hline with rfl | hline
      · simp [hc]
      · simp [ih hline]

theorem cleanLine_word (h : IsNormalisation nfc) {w : Text}
    (hw : forall c, c ∈ w -> isLineBreak c = false) :
    forall c, c ∈ cleanLine nfc w -> isLineBreak c = false := by
  intro c hc
  exact (separated_lines h).words w hw c ((List.rdropWhile_prefix isSpace _).subset hc)

theorem clean_of_mem_diagramLines (h : IsNormalisation nfc) {s line : Text}
    (hline : line ∈ diagramLines nfc s) :
    cleanLine nfc line = line ∧ forall c, c ∈ line -> isLineBreak c = false := by
  rcases List.mem_map.mp (mem_of_mem_trimLines hline) with ⟨raw, hraw, rfl⟩
  exact ⟨cleanLine_cleanLine h raw, cleanLine_word h (word_of_mem_rawLines hraw)⟩

theorem strip_eq_nil_iff (s : Text) : strip s = [] <-> forall c, c ∈ s -> isSpace c = true := by
  constructor
  · intro h
    by_contra hne
    push Not at hne
    rcases hne with ⟨c, hc, hspace⟩
    rw [strip_eq, List.rdropWhile_eq_nil_iff] at h
    cases hrest : s.dropWhile isSpace with
    | nil => exact hspace (List.dropWhile_eq_nil_iff.mp hrest c hc)
    | cons d rest =>
        have hd := List.head?_dropWhile_not isSpace s
        have hall := h d (by rw [hrest]; exact List.mem_cons_self)
        rw [hrest] at hd
        simp [hall] at hd
  · intro h
    rw [strip_eq, List.dropWhile_eq_nil_iff.mpr h]
    rfl

theorem trimLines_eq_nil {lines : List Text} (h : forall line, line ∈ lines -> line = []) :
    trimLines lines = [] := by
  have hall : lines.dropWhile List.isEmpty = [] := by
    rw [List.dropWhile_eq_nil_iff]
    intro line hline
    rw [h line hline]
    rfl
  unfold trimLines
  rw [hall]
  rfl

theorem diagramLines_blank (h : IsNormalisation nfc) {s : Text} (hs : strip s = []) :
    diagramLines nfc s = [] := by
  apply trimLines_eq_nil
  intro line hline
  rcases List.mem_map.mp hline with ⟨raw, hraw, rfl⟩
  apply cleanLine_blank h
  intro c hc
  exact (strip_eq_nil_iff s).mp hs c (mem_of_mem_rawLines hraw hc)

theorem mem_join_of_mem {sep : Text} {parts : List Text} {part : Text} {c : CodePoint}
    (hpart : part ∈ parts) (hc : c ∈ part) : c ∈ join sep parts := by
  rw [join_eq_intercalate]
  rcases List.append_of_mem hpart with ⟨front, rest, rfl⟩
  induction front with
  | nil =>
      cases rest with
      | nil => simpa [List.intercalate_singleton] using hc
      | cons next rest => simp [List.intercalate_cons_cons, hc]
  | cons first front ih =>
      cases hne : front ++ part :: rest with
      | nil => simp at hne
      | cons next more =>
          rw [List.cons_append, hne, List.intercalate_cons_cons, ← hne]
          exact List.mem_append_right _ (ih (by simp))

theorem strip_join_diagramLines (h : IsNormalisation nfc) (s : Text) :
    strip (join [0x0A] (diagramLines nfc s)) = [] <-> diagramLines nfc s = [] := by
  constructor
  · intro hblank
    rcases trimLines_head ((rawLines s).map (cleanLine nfc)) with hnil | ⟨line, rest, hcons, hne⟩
    · exact hnil
    · exfalso
      have hmem : line ∈ diagramLines nfc s := by
        unfold diagramLines
        rw [hcons]
        exact List.mem_cons_self
      have hclean := (clean_of_mem_diagramLines h hmem).left
      apply hne
      rw [← hclean]
      apply cleanLine_blank h
      intro c hc
      exact (strip_eq_nil_iff _).mp hblank c (mem_join_of_mem hmem hc)
  · intro hnil
    rw [hnil]
    rfl

theorem canonicalMermaidSource_eq (h : IsNormalisation nfc) (s : Text) (maxChars : Nat) :
    canonicalMermaidSource nfc (.str s) maxChars =
      if diagramLines nfc s = [] ∨ maxChars < (join [0x0A] (diagramLines nfc s)).length then none
      else some (join [0x0A] (diagramLines nfc s)) := by
  have hlines : ((unifyLineEnds (nfc s)).splitOn 0x0A).map rstrip =
      (rawLines s).map (cleanLine nfc) := by
    have hraw := rawLines_nfc h s
    unfold rawLines at hraw ⊢
    rw [hraw, List.map_map]
    rfl
  have hfree : forall line, line ∈ (rawLines s).map (cleanLine nfc) ->
      (0x0A : CodePoint) ∉ line := by
    intro line hline hmem
    rcases List.mem_map.mp hline with ⟨raw, hraw, rfl⟩
    exact absurd (cleanLine_word h (word_of_mem_rawLines hraw) 0x0A hmem) (by decide)
  have hjoin : stripBy (fun c => c = 0x0A) (join [0x0A] ((rawLines s).map (cleanLine nfc))) =
      join [0x0A] (diagramLines nfc s) := stripBy_join hfree
  unfold canonicalMermaidSource
  simp only [hlines, hjoin, List.isEmpty_iff, strip_join_diagramLines h]
  by_cases hblank : strip s = []
  · rw [if_pos hblank, if_pos (Or.inl (diagramLines_blank h hblank))]
  · rw [if_neg hblank]

theorem diagramLines_join (h : IsNormalisation nfc) (s : Text) (hne : diagramLines nfc s ≠ []) :
    diagramLines nfc (join [0x0A] (diagramLines nfc s)) = diagramLines nfc s := by
  have hclean := @clean_of_mem_diagramLines nfc h s
  have hunified : forall lines : List Text,
      (forall line, line ∈ lines -> forall c, c ∈ line -> isLineBreak c = false) ->
      unifyLineEnds (join [0x0A] lines) = join [0x0A] lines := by
    intro lines hlines
    induction lines with
    | nil => rfl
    | cons line rest ih =>
        have hword := unifyLineEnds_word (hlines line List.mem_cons_self)
        cases rest with
        | nil => exact hword
        | cons next rest =>
            have hend := unifyLineEnds_end (lineEnd_of_word (hlines line List.mem_cons_self)
              (join [0x0A] (next :: rest)))
            rw [join_cons_cons, hend, hword, ih (fun l hl => hlines l (List.mem_cons_of_mem _ hl)),
              List.append_assoc]
            rfl
  have hraw : rawLines (join [0x0A] (diagramLines nfc s)) = diagramLines nfc s := by
    unfold rawLines
    rw [hunified _ (fun line hline => (hclean hline).right), join_eq_intercalate]
    apply List.splitOn_intercalate _ _ hne
    intro line hline hmem
    exact absurd ((hclean hline).right 0x0A hmem) (by decide)
  have hmap : (diagramLines nfc s).map (cleanLine nfc) = diagramLines nfc s := by
    conv_rhs => rw [← List.map_id (diagramLines nfc s)]
    exact List.map_congr_left (fun line hline => (hclean hline).left)
  unfold diagramLines at hraw hmap ⊢
  rw [hraw, hmap]
  exact trimLines_trimLines _

theorem canonicalMermaidSource_idempotent (h : IsNormalisation nfc) {s t : Text} {maxChars : Nat}
    (hs : canonicalMermaidSource nfc (.str s) maxChars = some t) :
    canonicalMermaidSource nfc (.str t) maxChars = some t := by
  rw [canonicalMermaidSource_eq h] at hs
  split at hs
  · cases hs
  · rename_i hlimit
    cases Option.some.inj hs
    rw [canonicalMermaidSource_eq h, diagramLines_join h s (fun hnil => hlimit (Or.inl hnil)),
      if_neg hlimit]

theorem blank_of_isBlankText {blanks : Text} (h : IsBlankText blanks) :
    forall c, c ∈ blanks -> isSpace c = true := fun c hc => (h c hc).left

theorem word_of_isBlankText {blanks : Text} (h : IsBlankText blanks) :
    forall c, c ∈ blanks -> isLineBreak c = false := fun c hc => (h c hc).right

theorem lineEnd_append {before blanks e after : Text} (hblanks : IsBlankText blanks)
    (hend : IsLineEnd before e after) : IsLineEnd (before ++ blanks) e after := by
  cases hend with
  | both => exact .both
  | carriageReturn hafter => exact .carriageReturn hafter
  | lineFeed hbefore =>
      apply IsLineEnd.lineFeed
      rw [List.getLast?_append]
      cases hlast : blanks.getLast? with
      | none => exact hbefore
      | some c =>
          intro hc
          rw [Option.some_or] at hc
          have hword := word_of_isBlankText hblanks c (List.mem_of_getLast? hlast)
          rw [Option.some.inj hc] at hword
          exact absurd hword (by decide)

theorem cleanLines_append_blank (h : IsNormalisation nfc) (s : Text) {blanks : Text}
    (hblanks : IsBlankText blanks) :
    (rawLines (s ++ blanks)).map (cleanLine nfc) = (rawLines s).map (cleanLine nfc) := by
  have hword := word_of_isBlankText hblanks
  rcases rawLines_append_word (s := s) hword with ⟨front, last, hold, hnew⟩
  rw [hold, hnew, List.map_append, List.map_append, List.map_singleton, List.map_singleton,
    cleanLine_append h last (blank_of_isBlankText hblanks)]

theorem cleanLines_blank (h : IsNormalisation nfc) {blanks : Text}
    (hblanks : IsBlankText blanks) : (rawLines blanks).map (cleanLine nfc) = [[]] := by
  rw [rawLines_word (word_of_isBlankText hblanks), List.map_singleton,
    cleanLine_blank h (blank_of_isBlankText hblanks)]

/-- The lines do not depend on line ends, on spaces behind them or on blank lines around them. -/
theorem diagramLines_sameDiagram (h : IsNormalisation nfc) {s s' : Text}
    (hsame : SameDiagram s s') : diagramLines nfc s = diagramLines nfc s' := by
  unfold diagramLines
  cases hsame with
  | lineEnd hend hend' => rw [rawLines_end hend, rawLines_end hend']
  | trailing hblanks hend =>
      rw [rawLines_end (lineEnd_append hblanks hend), rawLines_end hend, List.map_append,
        List.map_append, cleanLines_append_blank h _ hblanks]
  | trailingLast hblanks => rw [cleanLines_append_blank h _ hblanks]
  | firstLine hblanks hend =>
      rw [rawLines_end hend, List.map_append, cleanLines_blank h hblanks, List.singleton_append,
        trimLines_cons]
  | lastLine hblanks hend =>
      rw [rawLines_end hend, List.map_append, cleanLines_blank h hblanks, trimLines_concat]

theorem canonicalMermaidSource_sameDiagram (h : IsNormalisation nfc) {s s' : Text}
    (hsame : Relation.EqvGen SameDiagram s s') (maxChars : Nat) :
    canonicalMermaidSource nfc (.str s) maxChars =
      canonicalMermaidSource nfc (.str s') maxChars := by
  have hlines : diagramLines nfc s = diagramLines nfc s' := by
    induction hsame with
    | rel s s' hstep => exact diagramLines_sameDiagram h hstep
    | refl s => rfl
    | symm s s' _ ih => exact ih.symm
    | trans s t s' _ _ ih ih' => exact ih.trans ih'
  rw [canonicalMermaidSource_eq h, canonicalMermaidSource_eq h, hlines]

end Sources

end Fingerprint
end ConversationService
