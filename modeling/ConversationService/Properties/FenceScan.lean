import ConversationService.Properties.FenceLines

/-!
# The blocks of a text, by lines

`find_blocks` finds what a scan over the lines finds: at a line that opens a fence it takes the
lines up to the first one that closes it, and it goes on behind that one.
-/

namespace ConversationService
namespace FenceExpression

open Python Backtracking FencedBlock SpanScan

def width (lines : List Text) : Nat := (closedLines lines).length

@[simp] theorem width_nil : width [] = 0 := rfl

@[simp] theorem width_cons (line : Text) (rest : List Text) :
    width (line :: rest) = line.length + 1 + width rest := by
  simp only [width, closedLines, List.flatMap_cons, List.length_append, List.length_cons,
    List.length_nil]

@[simp] theorem width_append (lines more : List Text) :
    width (lines ++ more) = width lines + width more := by
  simp [width, closedLines]

/-- The block of a span of lines: the lines inside it, and where its first and last line are. -/
def blockAt (lines : List Text) (span : Span Text) : LocatedBlock :=
  { kind := span.kind
    body := bodyOf ((lines.drop (span.start + 1)).take span.inner)
    start := width (lines.take span.start)
    stop := width (lines.take (span.stop + 1)) - 1 }

theorem blockAt_eq (before : List Text) (line : Text) (rest : List Text) (kind : Text) (n : Nat) :
    blockAt (before ++ line :: rest) ⟨before.length, kind, n⟩ =
      blockFrom (width before) line rest kind n := by
  have hstart : (before ++ line :: rest).take before.length = before := List.take_left
  have hinner : (before ++ line :: rest).drop (before.length + 1) = rest := by
    rw [← List.drop_drop, List.drop_left]
    rfl
  have hstop : (before ++ line :: rest).take (before.length + n + 1 + 1) =
      before ++ line :: rest.take (n + 1) := by
    rw [Nat.add_assoc, Nat.add_assoc, List.take_length_add_append]
    rfl
  unfold blockAt blockFrom Span.stop
  dsimp only
  rw [hstart, hinner, hstop, width_append]
  rfl

/-!
# The search
-/

theorem matchAt_inside {prev : Option CodePoint} (hprev : isLineBoundary prev = false)
    (pos : Nat) (s : Text) : matchAt fence prev pos s = none := by
  unfold matchAt
  rw [run_fence_eq, run_opening_inside _ hprev]
  rfl

theorem matchAt_lineEnd (prev : Option CodePoint) (pos : Nat) {rest : List Text}
    (hlines : forall l, l ∈ rest -> (0x0A : CodePoint) ∉ l) :
    matchAt fence prev pos (moreLines rest) = none := by
  cases hprev : isLineBoundary prev with
  | false => exact matchAt_inside hprev pos _
  | true =>
      have hmatch := @matchAt_line prev pos [] rest hprev (by
        intro l hl
        rcases List.mem_cons.mp hl with rfl | hl
        · exact List.not_mem_nil
        · exact hlines l hl)
      exact Option.map_eq_none_iff.mp hmatch

theorem findFrom_lineEnd (prev : Option CodePoint) (pos : Nat) {next : Text} {rest : List Text}
    (hlines : forall l, l ∈ next :: rest -> (0x0A : CodePoint) ∉ l) :
    findFrom fence 0 prev pos (moreLines (next :: rest)) =
      findFrom fence 0 (some 0x0A) (pos + 1) (next ++ moreLines rest) := by
  have hnone := matchAt_lineEnd prev pos hlines
  rw [moreLines_cons] at hnone
  rw [moreLines_cons, findFrom, hnone]

theorem findFrom_textEnd (prev : Option CodePoint) (pos : Nat) :
    findFrom fence 0 prev pos (moreLines []) = [] := by
  have hnone : matchAt fence prev pos [] = none :=
    @matchAt_lineEnd prev pos [] (fun l hl => absurd hl List.not_mem_nil)
  rw [moreLines_nil, findFrom, hnone]
  rfl

theorem findFrom_line {prev : Option CodePoint} {pos : Nat} {line : Text} {rest : List Text}
    (hline : (0x0A : CodePoint) ∉ line)
    (hnone : matchAt fence prev pos (line ++ moreLines rest) = none) :
    findFrom fence 0 prev pos (line ++ moreLines rest) =
      findFrom fence 0 (line.getLast?.or prev) (pos + line.length) (moreLines rest) := by
  apply findFrom_pass
  intro before after hsplit _
  by_cases hne : before = []
  · subst hne
    rw [List.nil_append] at hsplit
    rw [← hsplit]
    exact hnone
  · apply matchAt_inside
    exact boundary_last hne (fun h => hline (by rw [hsplit]; exact List.mem_append_left after h))

theorem look_split {line : Text} {rest : List Text} {kind : Text} {n : Nat}
    (h : look line rest = some (kind, n)) :
    exists closer, rest = rest.take n ++ closer :: rest.drop (n + 1) ∧
      rest.take (n + 1) = rest.take n ++ [closer] := by
  rcases Option.bind_eq_some_iff.mp h with ⟨found, _, hfind⟩
  rcases Option.map_eq_some_iff.mp hfind with ⟨m, hm, heq⟩
  cases heq
  rcases split_findIdx hm with ⟨closer, hsplit, htake, _, _⟩
  exact ⟨closer, hsplit, htake⟩

theorem findFrom_lines {prev : Option CodePoint} {pos : Nat} {before : List Text} {line : Text}
    {rest : List Text} (hprev : isLineBoundary prev = true) (hpos : pos = width before)
    (hlines : forall l, l ∈ line :: rest -> (0x0A : CodePoint) ∉ l) :
    (findFrom fence 0 prev pos (line ++ moreLines rest)).map blockOf =
      (scanFrom look 0 before.length (line :: rest)).map (blockAt (before ++ line :: rest)) := by
  have hmatch := @matchAt_line prev pos line rest hprev hlines
  cases hlook : look line rest with
  | none =>
      rw [hlook] at hmatch
      rw [findFrom_line (hlines line List.mem_cons_self) (Option.map_eq_none_iff.mp hmatch),
        scanFrom_none hlook]
      cases rest with
      | nil =>
          rw [findFrom_textEnd]
          rfl
      | cons next rest =>
          have hlater : forall l, l ∈ next :: rest -> (0x0A : CodePoint) ∉ l :=
            fun l hl => hlines l (List.mem_cons_of_mem line hl)
          have hnext := @findFrom_lines (some 0x0A) (pos + line.length + 1) (before ++ [line])
            next rest rfl (by rw [hpos]; simp [Nat.add_assoc]) hlater
          rw [findFrom_lineEnd _ _ hlater, hnext]
          simp
  | some taken =>
      rcases taken with ⟨kind, n⟩
      rcases look_split hlook with ⟨closer, hsplit, htake⟩
      rw [hlook] at hmatch
      rcases Option.map_eq_some_iff.mp hmatch with ⟨found, hfound, hblock⟩
      have hlt : n < rest.length := by
        have h := congrArg List.length htake
        rw [List.length_take, List.length_append, List.length_take, List.length_singleton] at h
        omega
      have hwidth : width (line :: rest.take (n + 1)) =
          (closedLines (line :: rest.take n) ++ closer).length + 1 := by
        rw [htake]
        simp [width, closedLines]
        omega
      have hstop : found.stop.pos = pos + (closedLines (line :: rest.take n) ++ closer).length := by
        have h := congrArg LocatedBlock.stop hblock
        have hfrom : (blockFrom pos line rest kind n).stop =
            pos + width (line :: rest.take (n + 1)) - 1 := rfl
        rw [show found.stop.pos = (blockOf found).stop from rfl, h, hfrom, hwidth]
        omega
      have htext : line ++ moreLines rest =
          (closedLines (line :: rest.take n) ++ closer) ++ moreLines (rest.drop (n + 1)) := by
        rw [List.append_assoc]
        exact lines_split (by rw [List.cons_append, ← hsplit])
      have hne : closedLines (line :: rest.take n) ++ closer ≠ [] := by
        simp [closedLines]
      have hbefore : (before ++ line :: rest.take (n + 1)).length = before.length + 1 + (n + 1) := by
        rw [List.length_append, List.length_cons, List.length_take]
        omega
      have hall : before ++ line :: rest =
          (before ++ line :: rest.take (n + 1)) ++ rest.drop (n + 1) := by
        rw [List.append_assoc, List.cons_append, List.take_append_drop]
      rw [htext] at hfound
      rw [htext, findFrom_found fence hfound hne hstop, scanFrom_some hlook, scanFrom_skipped,
        List.map_cons, List.map_cons, hblock, blockAt_eq, ← hpos, ← hbefore]
      congr 1
      cases hafter : rest.drop (n + 1) with
      | nil =>
          rw [findFrom_textEnd]
          rfl
      | cons next after =>
          have hlater : forall l, l ∈ next :: after -> (0x0A : CodePoint) ∉ l := by
            intro l hl
            rw [← hafter] at hl
            exact hlines l (List.mem_cons_of_mem line (List.mem_of_mem_drop hl))
          have hshort : after.length < rest.length := by
            have h := congrArg List.length hafter
            rw [List.length_drop, List.length_cons] at h
            omega
          rw [hafter] at hall
          rw [findFrom_lineEnd _ _ hlater, hall]
          apply findFrom_lines rfl _ hlater
          rw [width_append, hwidth, hpos]
          omega
termination_by rest.length

def linesOf (content : Option Text) : List Text := (content.getD []).splitOn 0x0A

/-- The blocks that a scan takes, with their places in the text. -/
def scanBlocks (look : Text -> List Text -> Option (Text × Nat)) (lines : List Text) :
    List LocatedBlock :=
  (scan look lines).map (blockAt lines)

/-- `find_blocks` is the scan over the lines of the text. -/
theorem findBlocks_eq (content : Option Text) :
    findBlocks content = scanBlocks look (linesOf content) := by
  rcases exists_lines (content.getD []) with ⟨line, rest, hsplit, hcontent, hlines⟩
  have hfind := @findFrom_lines none 0 [] line rest rfl rfl hlines
  rw [← hcontent] at hfind
  unfold scanBlocks linesOf
  rw [hsplit]
  exact hfind

/-!
# Where the blocks are
-/

theorem width_lt {lines : List Text} {i j : Nat} (hij : i < j) (hj : j ≤ lines.length) :
    width (lines.take i) < width (lines.take j) := by
  rcases Nat.exists_eq_add_of_lt hij with ⟨k, rfl⟩
  have hi : i < lines.length := by omega
  rw [Nat.add_assoc, List.take_add, List.drop_eq_getElem_cons hi, List.take_succ_cons,
    width_append, width_cons]
  omega

theorem width_le {lines : List Text} {i j : Nat} (hij : i ≤ j) :
    width (lines.take i) ≤ width (lines.take j) := by
  rcases Nat.exists_eq_add_of_le hij with ⟨k, rfl⟩
  rw [List.take_add, width_append]
  exact Nat.le_add_right _ _

theorem stop_lt {look : Text -> List Text -> Option (Text × Nat)} {lines : List Text}
    (hlook : forall line rest kind n, look line rest = some (kind, n) -> n < rest.length)
    {s : Span Text} (hs : s ∈ scan look lines) : s.stop < lines.length := by
  rcases taken_at hs with ⟨line, rest, hdrop, htaken⟩
  have hinner := hlook line rest s.kind s.inner htaken
  have hlength := congrArg List.length hdrop
  rw [List.length_drop, List.length_cons] at hlength
  unfold Span.stop
  omega

theorem findIdx_lt {p : Text -> Bool} {rest : List Text} {kind : Text} {taken : Text × Nat}
    (h : (rest.findIdx? p).map (fun n => (kind, n)) = some taken) : taken.2 < rest.length := by
  rcases Option.map_eq_some_iff.mp h with ⟨n, hn, rfl⟩
  exact (List.findIdx?_eq_some_iff_getElem.mp hn).choose

theorem look_lt {line : Text} {rest : List Text} {kind : Text} {n : Nat}
    (h : look line rest = some (kind, n)) : n < rest.length := by
  rcases Option.bind_eq_some_iff.mp h with ⟨found, _, h⟩
  exact findIdx_lt h

theorem width_moreLines (lines : List Text) : (moreLines lines).length = width lines := by
  induction lines with
  | nil => rfl
  | cons line rest ih =>
      rw [moreLines_cons, width_cons, List.length_cons, List.length_append, ih]
      omega

theorem width_linesOf (content : Option Text) :
    width (linesOf content) = (content.getD []).length + 1 := by
  rcases exists_lines (content.getD []) with ⟨line, rest, hsplit, hcontent, _⟩
  unfold linesOf
  rw [hsplit, width_cons, hcontent, List.length_append, width_moreLines]
  omega

/-- The blocks lie in a text one behind the other. -/
structure InOrder (n : Nat) (blocks : List LocatedBlock) : Prop where
  apart : blocks.Pairwise (fun b b' => b.stop < b'.start)
  within : forall b, b ∈ blocks -> b.start ≤ b.stop ∧ b.stop ≤ n

theorem findBlocks_inOrder (content : Option Text) :
    InOrder (content.getD []).length (findBlocks content) := by
  rw [findBlocks_eq]
  have hlt : forall s, s ∈ scan look (linesOf content) -> s.stop < (linesOf content).length :=
    fun s hs => stop_lt (fun _ _ _ _ h => look_lt h) hs
  have hinside : forall s, s ∈ scan look (linesOf content) ->
      width ((linesOf content).take s.start) < width ((linesOf content).take (s.stop + 1)) := by
    intro s hs
    apply width_lt _ (hlt s hs)
    unfold Span.stop
    omega
  constructor
  · unfold scanBlocks
    rw [List.pairwise_map]
    apply (scan_ordered 0 0 (linesOf content)).imp_of_mem
    intro s t hs ht hst
    have hs' := hinside s hs
    have hle := @width_le (linesOf content) (s.stop + 1) t.start hst
    show width ((linesOf content).take (s.stop + 1)) - 1 < width ((linesOf content).take t.start)
    omega
  · intro b hb
    rcases List.mem_map.mp hb with ⟨s, hs, rfl⟩
    have hs' := hinside s hs
    have hle := @width_le (linesOf content) (s.stop + 1) (linesOf content).length (hlt s hs)
    rw [List.take_length, width_linesOf] at hle
    show width ((linesOf content).take s.start) ≤ width ((linesOf content).take (s.stop + 1)) - 1 ∧
      width ((linesOf content).take (s.stop + 1)) - 1 ≤ _
    omega

/-!
# The blocks without their places
-/

theorem blocksFrom_eq (before lines : List Text) (skipped : Nat) :
    (scanFrom look skipped before.length lines).map
        (fun span => (blockAt (before ++ lines) span).toFencedBlock) =
      blocksFrom skipped lines := by
  induction lines generalizing before skipped with
  | nil => rfl
  | cons line rest ih =>
      have hbefore : before ++ line :: rest = (before ++ [line]) ++ rest := by simp
      have hlength : (before ++ [line]).length = before.length + 1 := by simp
      cases skipped with
      | succ skipped =>
          rw [scanFrom, blocksFrom, hbefore, ← hlength]
          exact ih (before ++ [line]) skipped
      | zero =>
          rw [blocksFrom]
          cases hopening : FencedBlock.opening line with
          | none =>
              have hlook : look line rest = none := by
                unfold look
                rw [hopening]
                rfl
              rw [scanFrom_none hlook, hbefore, ← hlength]
              exact ih (before ++ [line]) 0
          | some found =>
              dsimp only
              cases hfind : rest.findIdx? (closes found.1) with
              | none =>
                  have hlook : look line rest = none := by
                    unfold look
                    rw [hopening, Option.bind_some, hfind]
                    rfl
                  rw [scanFrom_none hlook, hbefore, ← hlength]
                  exact ih (before ++ [line]) 0
              | some n =>
                  have hlook : look line rest = some (found.2.flatMap lowerCharacter, n) := by
                    unfold look
                    rw [hopening, Option.bind_some, hfind]
                    rfl
                  have hrest := ih (before ++ [line]) (n + 1)
                  rw [hlength, ← hbefore] at hrest
                  rw [scanFrom_some hlook, List.map_cons, blockAt_eq, hrest]
                  rfl

/-- They are the blocks of `Model/FencedBlocks`. -/
theorem findBlocks_refines (content : Option Text) :
    (findBlocks content).map LocatedBlock.toFencedBlock = FencedBlock.findBlocks content := by
  rw [findBlocks_eq, scanBlocks, List.map_map]
  exact blocksFrom_eq [] (linesOf content) 0

end FenceExpression
end ConversationService
