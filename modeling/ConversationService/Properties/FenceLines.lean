import ConversationService.Library.SpanScan
import ConversationService.Model.FenceExpression

/-!
# The matches of the expression, by lines

What the expression for fences matches depends on whole lines only. Each greedy repetition in
it stops before something that its class does not contain, so the engine never has to give a
character back; the lazy body can only end at the start of a line.
-/

namespace ConversationService
namespace FenceExpression

open Python Backtracking FencedBlock

/-!
# Texts as lines
-/

/-- The lines behind a line. -/
def moreLines (lines : List Text) : Text :=
  lines.flatMap (fun line => 0x0A :: line)

@[simp] theorem moreLines_nil : moreLines [] = [] := rfl

@[simp] theorem moreLines_cons (line : Text) (rest : List Text) :
    moreLines (line :: rest) = 0x0A :: (line ++ moreLines rest) := rfl

theorem moreLines_boundary (lines : List Text) :
    isLineBoundary (moreLines lines).head? = true := by
  cases lines with
  | nil => rfl
  | cons line rest => rfl

theorem exists_lines (s : Text) :
    exists line rest, s.splitOn 0x0A = line :: rest ∧ s = line ++ moreLines rest ∧
      forall l, l ∈ line :: rest -> (0x0A : CodePoint) ∉ l := by
  by_cases hmem : (0x0A : CodePoint) ∈ s
  · rcases List.eq_append_cons_of_mem hmem with ⟨line, tail, hs, hline⟩
    have hlt : tail.length < s.length := by
      rw [hs, List.length_append, List.length_cons]
      omega
    rcases exists_lines tail with ⟨next, rest, hsplit, htail, hlines⟩
    refine ⟨line, next :: rest, ?_, ?_, ?_⟩
    · rw [hs, List.splitOn_append_cons_self_of_not_mem hline, hsplit]
    · rw [hs, htail, moreLines_cons]
    · intro l hl
      rcases List.mem_cons.mp hl with rfl | hl
      · exact hline
      · exact hlines l hl
  · refine ⟨s, [], List.splitOn_eq_singleton hmem, ?_, ?_⟩
    · rw [moreLines_nil, List.append_nil]
    · intro l hl
      rw [List.mem_singleton.mp hl]
      exact hmem
termination_by s.length

theorem takeWhile_line {p : CodePoint -> Bool} (hp : p 0x0A = false) {tail : Text}
    (htail : isLineBoundary tail.head? = true) (line : Text) :
    (line ++ tail).takeWhile p = line.takeWhile p := by
  induction line with
  | nil =>
      cases tail with
      | nil => rfl
      | cons c tail =>
          have hc : c = 0x0A := by simpa [isLineBoundary] using htail
          rw [hc, List.nil_append, List.takeWhile_cons, hp]
          rfl
  | cons c line ih =>
      rw [List.cons_append, List.takeWhile_cons, List.takeWhile_cons, ih]

theorem dropWhile_line {p : CodePoint -> Bool} (hp : p 0x0A = false) {tail : Text}
    (htail : isLineBoundary tail.head? = true) (line : Text) :
    (line ++ tail).dropWhile p = line.dropWhile p ++ tail := by
  have hsplit := List.takeWhile_append_dropWhile (p := p) (l := line ++ tail)
  rw [takeWhile_line hp htail] at hsplit
  have hline := List.takeWhile_append_dropWhile (p := p) (l := line)
  have hsame : line.takeWhile p ++ (line ++ tail).dropWhile p =
      line.takeWhile p ++ (line.dropWhile p ++ tail) := by
    rw [hsplit, ← List.append_assoc, hline]
  exact List.append_cancel_left hsame

/-!
# The closing line
-/

variable {β : Type}

theorem run_star {p : CodePoint -> Bool} {k : Cursor CodePoint -> Option β}
    {c : Cursor CodePoint} (hk : FailsOn p c.groups k) (hp : p 0x0A = false) {line tail : Text}
    (hrest : c.rest = line ++ tail) (htail : isLineBoundary tail.head? = true) :
    run (star p) c k = k (c.skip (line.takeWhile p) (line.dropWhile p ++ tail)) := by
  have hallowed : allowed 0 none (line.takeWhile p).length :=
    ⟨Nat.zero_le _, fun _ h => nomatch h⟩
  unfold star
  rw [run_many_greedy hk, hrest, takeWhile_line hp htail, dropWhile_line hp htail,
    if_pos hallowed]

theorem boundary_append {line tail : Text} (hline : (0x0A : CodePoint) ∉ line)
    (htail : isLineBoundary tail.head? = true) :
    isLineBoundary (line ++ tail).head? = line.isEmpty := by
  cases line with
  | nil => exact htail
  | cons c line =>
      have hc : c ≠ 0x0A := fun h => hline (by rw [h]; exact List.mem_cons_self)
      simp [isLineBoundary, hc]

/-- `[ \t]*$` -/
theorem run_blanks {k : Cursor CodePoint -> Option β} {c : Cursor CodePoint} {line tail : Text}
    (hrest : c.rest = line ++ tail) (hline : (0x0A : CodePoint) ∉ line)
    (htail : isLineBoundary tail.head? = true) :
    run (.seq (star isBlankOrTab) lineEnd) c k =
      if line.all isBlankOrTab then k (c.skip line tail) else none := by
  have hk : FailsOn isBlankOrTab c.groups (fun d => run lineEnd d k) := by
    intro d _ hd
    have hend : isLineBoundary d.rest.head? = false := by
      cases hhead : d.rest.head? with
      | none => rw [hhead] at hd; cases hd
      | some a =>
          rw [hhead] at hd
          have ha : a = 0x20 ∨ a = 0x09 := by simpa [isBlankOrTab] using hd
          rcases ha with rfl | rfl <;> rfl
    exact if_neg (by rw [hend]; exact Bool.false_ne_true)
  have hrestLine : (0x0A : CodePoint) ∉ line.dropWhile isBlankOrTab :=
    fun h => hline ((List.dropWhile_sublist _).subset h)
  rw [run_seq, run_star hk rfl hrest htail]
  unfold lineEnd
  rw [run_ahead, Cursor.skip_rest, boundary_append hrestLine htail]
  cases hall : line.all isBlankOrTab with
  | true =>
      have hdrop : line.dropWhile isBlankOrTab = [] :=
        List.dropWhile_eq_nil_iff.mpr (List.all_eq_true.mp hall)
      have htake : line.takeWhile isBlankOrTab = line :=
        List.takeWhile_eq_self_iff.mpr (List.all_eq_true.mp hall)
      rw [hdrop, htake]
      rfl
  | false =>
      have hdrop : line.dropWhile isBlankOrTab ≠ [] := by
        intro h
        rw [List.all_eq_true.mpr (List.dropWhile_eq_nil_iff.mp h)] at hall
        cases hall
      rw [if_neg (by rw [List.isEmpty_iff]; exact hdrop)]
      rfl

theorem head_fence {s : Text} (h : s.head?.any isFenceCharacter = true) :
    s.head?.any isBlankOrTab = false ∧ isLineBoundary s.head? = false ∧
      s.head?.any isBlank = false := by
  cases s with
  | nil => cases h
  | cons a rest =>
      have ha : a = 0x60 ∨ a = 0x7E := by simpa [isFenceCharacter] using h
      rcases ha with rfl | rfl <;> exact ⟨rfl, rfl, rfl⟩

/-- ``[`~]*[ \t]*$`` -/
theorem run_moreFence {k : Cursor CodePoint -> Option β} {c : Cursor CodePoint}
    {line tail : Text} (hrest : c.rest = line ++ tail) (hline : (0x0A : CodePoint) ∉ line)
    (htail : isLineBoundary tail.head? = true) :
    run (.seq (star isFenceCharacter) (.seq (star isBlankOrTab) lineEnd)) c k =
      if (line.dropWhile isFenceCharacter).all isBlankOrTab then k (c.skip line tail)
      else none := by
  have hk : FailsOn isFenceCharacter c.groups
      (fun d => run (.seq (star isBlankOrTab) lineEnd) d k) := by
    intro d _ hd
    rcases head_fence hd with ⟨hblank, hend, _⟩
    dsimp only
    unfold star lineEnd
    rw [run_seq, run_many_none hblank, run_ahead, hend]
    rfl
  have hrestLine : (0x0A : CodePoint) ∉ line.dropWhile isFenceCharacter :=
    fun h => hline ((List.dropWhile_sublist _).subset h)
  rw [run_seq, run_star hk rfl hrest htail, run_blanks rfl hrestLine htail, Cursor.skip_skip,
    List.takeWhile_append_dropWhile]

theorem isPrefixOf_line {fence line tail : Text} (hfence : (0x0A : CodePoint) ∉ fence)
    (htail : isLineBoundary tail.head? = true) :
    fence.isPrefixOf (line ++ tail) = fence.isPrefixOf line := by
  induction fence generalizing line with
  | nil => rw [List.isPrefixOf_nil_left, List.isPrefixOf_nil_left]
  | cons f fence ih =>
      have hf : f ≠ 0x0A := fun h => hfence (by rw [h]; exact List.mem_cons_self)
      cases line with
      | cons c line =>
          rw [List.cons_append, List.isPrefixOf_cons_cons, List.isPrefixOf_cons_cons,
            ih (fun h => hfence (List.mem_cons_of_mem f h))]
      | nil =>
          cases tail with
          | nil => rfl
          | cons c tail =>
              have hc : c = 0x0A := by simpa [isLineBoundary] using htail
              have hne : (f == c) = false := beq_false_of_ne (by rw [hc]; exact hf)
              rw [List.nil_append, List.isPrefixOf_cons_cons, hne]
              rfl

/-- The fence is a run of one of the two characters. -/
def IsFence (fence : Text) : Prop :=
  fence ≠ [] ∧ forall c, c ∈ fence -> isFenceCharacter c = true

theorem IsFence.no_lineEnd {fence : Text} (h : IsFence fence) : (0x0A : CodePoint) ∉ fence := by
  intro hmem
  cases h.right _ hmem

theorem IsFence.head {fence : Text} (h : IsFence fence) :
    exists c rest, fence = c :: rest ∧ isFenceCharacter c = true := by
  cases hfence : fence with
  | nil => exact absurd hfence h.left
  | cons c rest => exact ⟨c, rest, rfl, h.right c (by rw [hfence]; exact List.mem_cons_self)⟩

/-- ``(?P=fence)[`~]*[ \t]*$`` -/
theorem run_fenceAgain {k : Cursor CodePoint -> Option β} {c : Cursor CodePoint}
    {fence line tail : Text} (hgroup : c.groups 2 = some fence) (hfence : IsFence fence)
    (hrest : c.rest = line ++ tail) (hline : (0x0A : CodePoint) ∉ line)
    (htail : isLineBoundary tail.head? = true) :
    run (.seq (.again 2) (.seq (star isFenceCharacter) (.seq (star isBlankOrTab) lineEnd))) c k =
      if fence.isPrefixOf line &&
          ((line.drop fence.length).dropWhile isFenceCharacter).all isBlankOrTab
      then k (c.skip line tail) else none := by
  rw [run_seq, run_again hgroup, hrest, isPrefixOf_line hfence.no_lineEnd htail]
  cases hprefix : fence.isPrefixOf line with
  | false => rfl
  | true =>
      rcases List.isPrefixOf_iff_prefix.mp hprefix with ⟨more, rfl⟩
      have hmore : (0x0A : CodePoint) ∉ more :=
        fun h => hline (List.mem_append_right fence h)
      rw [if_pos rfl, List.append_assoc, List.drop_left, List.drop_left, Bool.true_and,
        run_moreFence rfl hmore htail, Cursor.skip_skip]

/-- The rest of the closing line fails in front of a blank. -/
theorem fenceAgain_fails {k : Cursor CodePoint -> Option β} {groups : Nat -> Option Text}
    {fence : Text} (hgroup : groups 2 = some fence) (hfence : IsFence fence) :
    FailsOn isBlank groups (fun d => run (.seq (.again 2)
      (.seq (star isFenceCharacter) (.seq (star isBlankOrTab) lineEnd))) d k) := by
  intro d hd hblank
  rcases hfence.head with ⟨f, rest, rfl, hf⟩
  dsimp only
  rw [run_seq, run_again (by rw [hd]; exact hgroup)]
  cases hrest : d.rest with
  | nil => rfl
  | cons a more =>
      rw [hrest] at hblank
      have hne : (f == a) = false := by
        apply beq_false_of_ne
        rintro rfl
        have hnot := (head_fence (s := [f]) hf).right.right
        rw [show [f].head?.any isBlank = true from hblank] at hnot
        cases hnot
      rw [List.isPrefixOf_cons_cons, hne]
      rfl

theorem unindent_eq (line : Text) :
    unindent line =
      if allowed 0 (some 3) (line.takeWhile isBlank).length then some (line.dropWhile isBlank)
      else none := by
  have hallowed : allowed 0 (some 3) (line.takeWhile isBlank).length <->
      ¬3 < (line.takeWhile isBlank).length := by
    unfold allowed
    simp
  unfold unindent
  show (if 3 < (line.takeWhile isBlank).length then none else some (line.dropWhile isBlank)) = _
  by_cases h : 3 < (line.takeWhile isBlank).length
  · rw [if_pos h, if_neg (fun h' => hallowed.mp h' h)]
  · rw [if_neg h, if_pos (hallowed.mpr h)]

theorem run_closing {k : Cursor CodePoint -> Option β} {c : Cursor CodePoint}
    {fence line tail : Text} (hgroup : c.groups 2 = some fence) (hfence : IsFence fence)
    (hprev : isLineBoundary c.prev = true)
    (hrest : c.rest = line ++ tail) (hline : (0x0A : CodePoint) ∉ line)
    (htail : isLineBoundary tail.head? = true) :
    run closing c k = if closes fence line then k (c.skip line tail) else none := by
  have hdrop : (0x0A : CodePoint) ∉ line.dropWhile isBlank :=
    fun h => hline ((List.dropWhile_sublist _).subset h)
  unfold closing lineStart indent
  rw [run_seq, run_behind, if_pos hprev, run_seq,
    run_many_greedy (fenceAgain_fails hgroup hfence), hrest, takeWhile_line rfl htail,
    dropWhile_line rfl htail]
  unfold closes
  rw [unindent_eq]
  by_cases h : allowed 0 (some 3) (line.takeWhile isBlank).length
  · rw [if_pos h, if_pos h,
      run_fenceAgain (c := c.skip _ _) hgroup hfence rfl hdrop htail, Cursor.skip_skip,
      List.takeWhile_append_dropWhile]
    rfl
  · rw [if_neg h, if_neg h]
    rfl

/-!
# The body
-/

/-- What follows the body, which is in the group `body` then. -/
def afterBody (whole : Text) (d : Cursor CodePoint) : Option (Cursor CodePoint) :=
  run closing (d.capture 4 (whole.take (whole.length - d.rest.length))) some

theorem afterBody_inside (whole : Text) {d : Cursor CodePoint}
    (hprev : isLineBoundary d.prev = false) : afterBody whole d = none := by
  unfold afterBody closing lineStart
  rw [run_seq, run_behind]
  exact if_neg (by rw [show (d.capture 4 _).prev = d.prev from rfl, hprev]; exact Bool.false_ne_true)

section Body

variable {fence : Text}

theorem afterBody_line (whole : Text) {d : Cursor CodePoint} {line tail : Text}
    (hgroup : d.groups 2 = some fence) (hfence : IsFence fence)
    (hprev : isLineBoundary d.prev = true) (hrest : d.rest = line ++ tail)
    (hline : (0x0A : CodePoint) ∉ line) (htail : isLineBoundary tail.head? = true) :
    afterBody whole d =
      if closes fence line then
        some ((d.capture 4 (whole.take (whole.length - (line ++ tail).length))).skip line tail)
      else none := by
  unfold afterBody
  rw [hrest]
  exact run_closing (c := d.capture 4 _) hgroup hfence hprev hrest hline htail

theorem boundary_last {before : Text} {prev : Option CodePoint} (hne : before ≠ [])
    (hbefore : (0x0A : CodePoint) ∉ before) :
    isLineBoundary (before.getLast?.or prev) = false := by
  rw [List.getLast?_eq_getLast_of_ne_nil hne, Option.some_or]
  have hlast : before.getLast hne ≠ 0x0A :=
    fun h => hbefore (by rw [← h]; exact List.getLast_mem hne)
  simp [isLineBoundary, hlast]

theorem body_passes (whole : Text) {d : Cursor CodePoint} {line : Text} {rest : List Text}
    (hgroup : d.groups 2 = some fence) (hfence : IsFence fence)
    (hprev : isLineBoundary d.prev = true) (hrest : d.rest = line ++ moreLines rest)
    (hline : (0x0A : CodePoint) ∉ line) (hcloses : closes fence line = false) :
    run anything d (afterBody whole) =
      match rest with
      | [] => none
      | next :: rest =>
          run anything (d.skip (line ++ [0x0A]) (next ++ moreLines rest)) (afterBody whole) := by
  have hfails : forall before after, line = before ++ after ->
      afterBody whole (d.skip before (after ++ moreLines rest)) = none := by
    intro before after hsplit
    by_cases hne : before = []
    · subst hne
      rw [List.nil_append] at hsplit
      rw [← hsplit, ← hrest, Cursor.skip_nil,
        afterBody_line whole hgroup hfence hprev hrest hline (moreLines_boundary rest), hcloses]
      rfl
    · apply afterBody_inside
      exact boundary_last hne (fun h => hline (by rw [hsplit]; exact List.mem_append_left after h))
  unfold anything
  cases rest with
  | nil =>
      rw [run_many_lazy_skip hrest (fun before after hsplit _ => hfails before after hsplit),
        run_many_lazy]
      have hend := hfails line [] (List.append_nil line).symm
      rw [List.nil_append] at hend
      rw [hend]
      rfl
  | cons next rest =>
      apply run_many_lazy_skip
      · rw [hrest, moreLines_cons, List.append_assoc]
        rfl
      · intro before after hsplit hafter
        rcases List.eq_nil_or_concat after with rfl | ⟨init, last, rfl⟩
        · exact absurd rfl hafter
        · rw [List.concat_eq_append, ← List.append_assoc] at hsplit
          have hinit := List.append_inj_left' hsplit rfl
          have hlast := List.append_inj_right' hsplit rfl
          have h := hfails before init hinit
          rw [moreLines_cons] at h
          rw [List.concat_eq_append, ← hlast, List.append_assoc]
          exact h

def closedLines (lines : List Text) : Text :=
  lines.flatMap (fun line => line ++ [0x0A])

theorem body_open (whole : Text) {d : Cursor CodePoint} {line : Text} {rest : List Text}
    (hgroup : d.groups 2 = some fence) (hfence : IsFence fence)
    (hprev : isLineBoundary d.prev = true) (hrest : d.rest = line ++ moreLines rest)
    (hlines : forall l, l ∈ line :: rest -> (0x0A : CodePoint) ∉ l)
    (hcloses : forall l, l ∈ line :: rest -> closes fence l = false) :
    run anything d (afterBody whole) = none := by
  induction rest generalizing line d with
  | nil =>
      exact body_passes whole hgroup hfence hprev hrest (hlines line List.mem_cons_self)
        (hcloses line List.mem_cons_self)
  | cons next rest ih =>
      rw [body_passes whole hgroup hfence hprev hrest (hlines line List.mem_cons_self)
        (hcloses line List.mem_cons_self)]
      apply ih (d := d.skip _ _) hgroup _ rfl
      · exact fun l hl => hlines l (List.mem_cons_of_mem line hl)
      · exact fun l hl => hcloses l (List.mem_cons_of_mem line hl)
      · simp [Cursor.skip, isLineBoundary]

theorem lines_split {line closer : Text} {rest inner after : List Text}
    (h : line :: rest = inner ++ closer :: after) :
    line ++ moreLines rest = closedLines inner ++ (closer ++ moreLines after) := by
  induction inner generalizing line rest with
  | nil =>
      rcases List.cons.inj h with ⟨rfl, rfl⟩
      rfl
  | cons first inner ih =>
      rcases List.cons.inj h with ⟨rfl, rfl⟩
      cases inner with
      | nil => simp [closedLines]
      | cons next inner =>
          have hnext := ih (List.cons_append (a := next)).symm
          show line ++ moreLines (next :: (inner ++ closer :: after)) = _
          rw [moreLines_cons, hnext]
          simp [closedLines]

/-- The body ends in front of the first line that closes the fence. -/
theorem body_closed (whole : Text) {d : Cursor CodePoint} {line closer : Text}
    {rest inner after : List Text} (hgroup : d.groups 2 = some fence) (hfence : IsFence fence)
    (hprev : isLineBoundary d.prev = true) (hrest : d.rest = line ++ moreLines rest)
    (hlines : forall l, l ∈ line :: rest -> (0x0A : CodePoint) ∉ l)
    (hsplit : line :: rest = inner ++ closer :: after)
    (hinner : forall l, l ∈ inner -> closes fence l = false)
    (hcloser : closes fence closer = true) :
    run anything d (afterBody whole) =
      some ((d.capture 4 (whole.take (whole.length - (closer ++ moreLines after).length))).skip
        (closedLines inner ++ closer) (moreLines after)) := by
  induction inner generalizing line rest d with
  | nil =>
      rcases List.cons.inj hsplit with ⟨rfl, rfl⟩
      unfold anything
      rw [run_many_lazy, afterBody_line whole hgroup hfence hprev hrest
        (hlines line List.mem_cons_self) (moreLines_boundary rest), if_pos hcloser,
        Option.some_or]
      rfl
  | cons first inner ih =>
      have hsplit' : rest = inner ++ closer :: after := (List.cons.inj hsplit).right
      rcases (List.cons.inj hsplit).left with rfl
      rw [body_passes whole hgroup hfence hprev hrest (hlines line List.mem_cons_self)
        (hinner line List.mem_cons_self)]
      cases rest with
      | nil =>
          exact absurd hsplit'.symm
            (List.append_ne_nil_of_right_ne_nil _ (List.cons_ne_nil closer after))
      | cons next rest =>
          dsimp only
          rw [ih (d := d.skip (line ++ [0x0A]) (next ++ moreLines rest)) hgroup
            (by simp [Cursor.skip, isLineBoundary]) rfl
            (fun l hl => hlines l (List.mem_cons_of_mem line hl)) hsplit'
            (fun l hl => hinner l (List.mem_cons_of_mem line hl))]
          rw [Cursor.capture_skip, Cursor.skip_skip]
          simp [closedLines]

end Body

/-!
# The opening line
-/

def nextLine (k : Cursor CodePoint -> Option β) (c : Cursor CodePoint) (line : Text) :
    List Text -> Option β
  | [] => none
  | next :: rest => k (c.skip (line ++ [0x0A]) (next ++ moreLines rest))

theorem nextLine_skip (k : Cursor CodePoint -> Option β) (c : Cursor CodePoint)
    (taken more line : Text) (rest : List Text) :
    nextLine k (c.skip taken more) line rest = nextLine k c (taken ++ line) rest := by
  cases rest with
  | nil => rfl
  | cons next rest =>
      show k ((c.skip taken more).skip (line ++ [0x0A]) _) = k (c.skip (taken ++ line ++ [0x0A]) _)
      rw [Cursor.skip_skip, List.append_assoc]

theorem take_taken (taken rest : Text) :
    (taken ++ rest).take ((taken ++ rest).length - rest.length) = taken := by
  rw [List.length_append, Nat.add_sub_cancel, List.take_left]

/-- ``[^\n`]*\n`` -/
theorem run_info {k : Cursor CodePoint -> Option β} {c : Cursor CodePoint} {line : Text}
    {rest : List Text} (hrest : c.rest = line ++ moreLines rest)
    (hline : (0x0A : CodePoint) ∉ line) :
    run (.seq (star isInfo) (.char (fun c => c = 0x0A))) c k =
      if line.contains 0x60 then none else nextLine k c line rest := by
  have hk : FailsOn isInfo c.groups (fun d => run (.char (fun c => c = 0x0A)) d k) := by
    intro d _ hd
    cases hd' : d.rest with
    | nil => exact run_char_nil _ hd' k
    | cons a more =>
        rw [hd'] at hd
        have ha : ¬a = 0x0A ∧ ¬a = 0x60 := by simpa [isInfo] using hd
        dsimp only
        rw [run_char_cons _ hd']
        simp [ha.left]
  rw [run_seq, run_star hk rfl hrest (moreLines_boundary rest)]
  cases hinfo : line.dropWhile isInfo with
  | nil =>
      have hall := List.dropWhile_eq_nil_iff.mp hinfo
      have hnot : line.contains 0x60 = false := by
        rw [List.contains_eq_mem, decide_eq_false_iff_not]
        intro hmem
        cases hall _ hmem
      rw [List.takeWhile_eq_self_iff.mpr hall, hnot, List.nil_append]
      cases rest with
      | nil => exact run_char_nil _ rfl k
      | cons next rest =>
          rw [run_char_cons _ rfl, if_pos (decide_eq_true rfl), Cursor.skip_skip]
          rfl
  | cons a more =>
      have hmem : a ∈ line := (List.dropWhile_sublist isInfo).subset (by rw [hinfo]; simp)
      have hnot : isInfo a = false := by
        have h := List.head?_dropWhile_not isInfo line
        rw [hinfo] at h
        simpa using h
      have hnl : a ≠ 0x0A := fun h => hline (by rw [← h]; exact hmem)
      have htick : a = 0x60 := by
        have h : a = 0x0A ∨ a = 0x60 := by
          simpa [isInfo, Decidable.or_iff_not_imp_left] using hnot
        exact h.resolve_left hnl
      have hcontains : line.contains 0x60 = true := by
        rw [List.contains_eq_mem, decide_eq_true_eq, ← htick]
        exact hmem
      rw [hcontains, List.cons_append, run_char_cons _ rfl]
      simp [hnl]

theorem matchWord_append {w s taken rest : Text} (h : matchWord w s = some (taken, rest)) :
    s = taken ++ rest := by
  induction w generalizing s taken with
  | nil =>
      cases h
      rfl
  | cons letter w ih =>
      cases s with
      | nil => cases h
      | cons c s =>
          rw [matchWord] at h
          by_cases hc : matchesLetter letter c = true
          · rw [if_pos hc] at h
            rcases Option.map_eq_some_iff.mp h with ⟨found, hfound, heq⟩
            cases heq
            rw [ih hfound]
            rfl
          · rw [if_neg hc] at h
            cases h

theorem matchWord_line {w tail : Text}
    (hw : w.all (fun letter => !matchesLetter letter 0x0A) = true)
    (htail : isLineBoundary tail.head? = true) (line : Text) :
    matchWord w (line ++ tail) =
      (matchWord w line).map (fun found => (found.1, found.2 ++ tail)) := by
  induction w generalizing line with
  | nil => rfl
  | cons letter w ih =>
      cases line with
      | nil =>
          cases tail with
          | nil => rfl
          | cons c tail =>
              have hc : c = 0x0A := by simpa [isLineBoundary] using htail
              have hletter : matchesLetter letter 0x0A = false := by
                simpa using List.all_eq_true.mp hw letter List.mem_cons_self
              rw [List.nil_append, matchWord, hc, hletter]
              rfl
      | cons c line =>
          have hw' : w.all (fun letter => !matchesLetter letter 0x0A) = true := by
            rw [List.all_cons, Bool.and_eq_true] at hw
            exact hw.right
          rw [List.cons_append, matchWord, matchWord, ih hw']
          by_cases hc : matchesLetter letter c = true
          · rw [if_pos hc, if_pos hc, Option.map_map, Option.map_map]
            rfl
          · rw [if_neg hc, if_neg hc]
            rfl

theorem run_word (w : Text) (c : Cursor CodePoint) (k : Cursor CodePoint -> Option β) :
    run (word w) c k = (matchWord w c.rest).bind (fun found => k (c.skip found.1 found.2)) := by
  induction w generalizing c with
  | nil =>
      show k c = k (c.skip [] c.rest)
      rw [Cursor.skip_nil]
  | cons letter w ih =>
      rw [word, run_seq]
      cases hrest : c.rest with
      | nil =>
          rw [run_char_nil _ hrest]
          rfl
      | cons a rest =>
          rw [run_char_cons _ hrest, matchWord]
          by_cases ha : matchesLetter letter a = true
          · rw [if_pos ha, if_pos ha, ih, Option.bind_map]
            apply congrArg
            funext found
            show k ((c.skip [a] rest).skip found.1 found.2) = _
            rw [Cursor.skip_skip]
            rfl
          · rw [if_neg ha, if_neg ha]
            rfl

theorem mermaid_eq : text "mermaid" = [0x6D, 0x65, 0x72, 0x6D, 0x61, 0x69, 0x64] := by decide

theorem manim_eq : text "manim" = [0x6D, 0x61, 0x6E, 0x69, 0x6D] := by decide

theorem val_of_matchesLetter {letter c : CodePoint} (hletter : letter ≠ 0x69)
    (h : matchesLetter letter c = true) : c.val = letter.val ∨ c.val + 0x20 = letter.val := by
  have hcases : c = letter ∨ c.val + 0x20 = letter.val := by
    simpa [matchesLetter, hletter] using h
  rcases hcases with rfl | hval
  · exact Or.inl rfl
  · exact Or.inr hval

theorem matchWord_exclusive {s : Text} {found : Text × Text}
    (h : matchWord (text "mermaid") s = some found) : matchWord (text "manim") s = none := by
  rw [mermaid_eq] at h
  rw [manim_eq]
  rcases s with _ | ⟨c, _ | ⟨d, s⟩⟩
  · rfl
  · unfold matchWord
    by_cases hc : matchesLetter 0x6D c = true
    · rw [if_pos hc]
      rfl
    · rw [if_neg hc]
  · have hd : matchesLetter 0x65 d = true := by
      rw [matchWord, matchWord] at h
      by_cases hd : matchesLetter 0x65 d = true
      · exact hd
      · rw [if_neg hd] at h
        simp at h
    have hnot : ¬matchesLetter 0x61 d = true := by
      intro hd'
      have he : d.val = 0x65 ∨ d.val + 0x20 = 0x65 :=
        val_of_matchesLetter (by decide) hd
      have ha : d.val = 0x61 ∨ d.val + 0x20 = 0x61 :=
        val_of_matchesLetter (by decide) hd'
      omega
    rw [matchWord, matchWord, if_neg hnot]
    simp

/-- ``(?![A-Za-z0-9_-])[^\n`]*\n`` -/
def afterLang : Expression :=
  .seq (.ahead (fun c => !c.any isWordCharacter))
    (.seq (star isInfo) (.char (fun c => c = 0x0A)))

theorem run_afterLang {k : Cursor CodePoint -> Option β} {c : Cursor CodePoint} {line : Text}
    {rest : List Text} (hrest : c.rest = line ++ moreLines rest)
    (hline : (0x0A : CodePoint) ∉ line) :
    run afterLang c k =
      if line.head?.any isWordCharacter || line.contains 0x60 then none
      else nextLine k c line rest := by
  have hhead : c.rest.head?.any isWordCharacter = line.head?.any isWordCharacter := by
    rw [hrest]
    cases line with
    | cons a line => rfl
    | nil =>
        cases rest with
        | nil => rfl
        | cons next rest => rfl
  unfold afterLang
  rw [run_seq, run_ahead, hhead, run_info hrest hline]
  cases line.head?.any isWordCharacter with
  | true => rfl
  | false => rfl

/-- What is left of a line behind the language of a fence. -/
def infoOf (found : Text × Text) : Option Text :=
  if found.2.head?.any isWordCharacter || found.2.contains 0x60 then none else some found.1

theorem languageOf_eq (s : Text) :
    languageOf s =
      ((matchWord (text "mermaid") (s.dropWhile isBlankOrTab)).or
        (matchWord (text "manim") (s.dropWhile isBlankOrTab))).bind infoOf := by
  unfold languageOf
  dsimp only
  cases (matchWord (text "mermaid") (s.dropWhile isBlankOrTab)).or
      (matchWord (text "manim") (s.dropWhile isBlankOrTab)) with
  | none => rfl
  | some found => rfl

theorem run_word_line {k : Cursor CodePoint -> Option β} {c : Cursor CodePoint} {w line : Text}
    {rest : List Text} (hw : w.all (fun letter => !matchesLetter letter 0x0A) = true)
    (hrest : c.rest = line ++ moreLines rest) (hline : (0x0A : CodePoint) ∉ line) :
    run (word w) c (fun d => run afterLang
        (d.capture 3 (c.rest.take (c.rest.length - d.rest.length))) k) =
      ((matchWord w line).bind infoOf).bind (fun lang =>
        nextLine k (c.capture 3 lang) line rest) := by
  rw [run_word, hrest, matchWord_line hw (moreLines_boundary rest), Option.bind_map]
  cases hfound : matchWord w line with
  | none => rfl
  | some found =>
      have hsplit := matchWord_append hfound
      have hmore : (0x0A : CodePoint) ∉ found.2 :=
        fun h => hline (by rw [hsplit]; exact List.mem_append_right found.1 h)
      have hgroup : (line ++ moreLines rest).take
          ((line ++ moreLines rest).length - (found.2 ++ moreLines rest).length) = found.1 := by
        rw [hsplit, List.append_assoc]
        exact take_taken found.1 _
      show run _ ((c.skip found.1 (found.2 ++ moreLines rest)).capture 3 _) k =
        (infoOf found).bind _
      rw [run_afterLang rfl hmore, Cursor.skip_rest, hgroup, Cursor.capture_skip,
        nextLine_skip, ← hsplit]
      unfold infoOf
      by_cases h : (found.2.head?.any isWordCharacter || found.2.contains 0x60) = true
      · rw [if_pos h, if_pos h]
        rfl
      · rw [if_neg h, if_neg h]
        rfl

theorem run_lang {k : Cursor CodePoint -> Option β} {c : Cursor CodePoint} {line : Text}
    {rest : List Text} (hrest : c.rest = line ++ moreLines rest)
    (hline : (0x0A : CodePoint) ∉ line) :
    run (.seq lang afterLang) c k =
      (((matchWord (text "mermaid") line).or (matchWord (text "manim") line)).bind infoOf).bind
        (fun lang => nextLine k (c.capture 3 lang) line rest) := by
  unfold lang
  rw [run_seq, run_group, run_alt, run_word_line (by rw [mermaid_eq]; decide) hrest hline,
    run_word_line (by rw [manim_eq]; decide) hrest hline]
  cases hmermaid : matchWord (text "mermaid") line with
  | none => rfl
  | some found =>
      rw [matchWord_exclusive hmermaid, Option.bind_none, Option.bind_none, Option.or_none,
        Option.or_none]

theorem lang_fails {p : CodePoint -> Bool} (groups : Nat -> Option Text)
    (k : Cursor CodePoint -> Option β)
    (hp : forall a, p a = true -> isBlankOrTab a = true ∨ isFenceCharacter a = true) :
    FailsOn p groups (fun d => run lang d k) := by
  intro d _ hd
  cases hrest : d.rest with
  | nil =>
      rw [hrest] at hd
      cases hd
  | cons a more =>
      rw [hrest] at hd
      have ha : a = 0x20 ∨ a = 0x09 ∨ a = 0x60 ∨ a = 0x7E := by
        rcases hp a hd with h | h
        · have h : a = 0x20 ∨ a = 0x09 := by simpa [isBlankOrTab] using h
          exact h.elim Or.inl (fun h => Or.inr (Or.inl h))
        · have h : a = 0x60 ∨ a = 0x7E := by simpa [isFenceCharacter] using h
          exact Or.inr (Or.inr h)
      have hletter : matchesLetter 0x6D a = false := by
        rcases ha with rfl | rfl | rfl | rfl <;> decide
      dsimp only
      unfold lang
      rw [run_group, run_alt, run_word, run_word, hrest, mermaid_eq, manim_eq, matchWord,
        matchWord, hletter]
      rfl

/-- The expression from behind the fence to the end of the line. -/
def afterFence : Expression := .seq (star isBlankOrTab) (.seq lang afterLang)

theorem run_afterFence {k : Cursor CodePoint -> Option β} {c : Cursor CodePoint} {line : Text}
    {rest : List Text} (hrest : c.rest = line ++ moreLines rest)
    (hline : (0x0A : CodePoint) ∉ line) :
    run afterFence c k =
      (languageOf line).bind (fun lang => nextLine k (c.capture 3 lang) line rest) := by
  have hk : FailsOn isBlankOrTab c.groups (fun d => run (.seq lang afterLang) d k) :=
    lang_fails c.groups (fun d => run afterLang d k) (fun a ha => Or.inl ha)
  have hdrop : (0x0A : CodePoint) ∉ line.dropWhile isBlankOrTab :=
    fun h => hline ((List.dropWhile_sublist _).subset h)
  unfold afterFence
  rw [run_seq, run_star hk rfl hrest (moreLines_boundary rest), run_lang rfl hdrop,
    languageOf_eq]
  apply congrArg
  funext lang
  rw [Cursor.capture_skip, nextLine_skip, List.takeWhile_append_dropWhile]

theorem afterFence_fails (groups : Nat -> Option Text) (k : Cursor CodePoint -> Option β) :
    FailsOn isFenceCharacter groups (fun d => run afterFence d k) := by
  intro d hd hfence
  have hblank := (head_fence hfence).left
  dsimp only
  unfold afterFence star
  rw [run_seq, run_many_none hblank, run_seq]
  exact lang_fails groups (fun d => run afterLang d k) (fun a ha => Or.inr ha) d hd hfence

/-- At least three of the character, and what follows them. -/
def fenceFor (fence : CodePoint) (s : Text) : Option (Text × Text) :=
  if 3 ≤ (s.takeWhile (fun c => c = fence)).length then
    some (s.takeWhile (fun c => c = fence), s.dropWhile (fun c => c = fence))
  else none

theorem fenceFor_ne {fence a : CodePoint} {rest : Text} (h : a ≠ fence) :
    fenceFor fence (a :: rest) = none := by
  unfold fenceFor
  rw [List.takeWhile_cons_of_neg (by simpa using h)]
  rfl

theorem fenceOf_cons (a : CodePoint) (rest : Text) :
    fenceOf (a :: rest) = if isFenceCharacter a then fenceFor a (a :: rest) else none := by
  unfold fenceOf fenceFor
  by_cases h : isFenceCharacter a = true
  · rw [if_pos h]
    simp [h]
  · rw [if_neg h]
    simp [h]

theorem fenceOf_eq (s : Text) : fenceOf s = (fenceFor 0x60 s).or (fenceFor 0x7E s) := by
  cases s with
  | nil => rfl
  | cons a rest =>
      rw [fenceOf_cons]
      by_cases htick : a = 0x60
      · subst htick
        rw [@fenceFor_ne 0x7E 0x60 rest (by decide), Option.or_none]
        rfl
      · rw [fenceFor_ne htick, Option.none_or]
        by_cases htilde : a = 0x7E
        · subst htilde
          rfl
        · rw [fenceFor_ne htilde, if_neg (by simp [isFenceCharacter, htick, htilde])]

theorem fenceFor_append {fence : CodePoint} {s : Text} {found : Text × Text}
    (h : fenceFor fence s = some found) : s = found.1 ++ found.2 := by
  unfold fenceFor at h
  by_cases hlong : 3 ≤ (s.takeWhile (fun c => c = fence)).length
  · rw [if_pos hlong] at h
    cases h
    exact List.takeWhile_append_dropWhile.symm
  · rw [if_neg hlong] at h
    cases h

theorem fenceFor_exclusive {s : Text} {found : Text × Text}
    (h : fenceFor 0x60 s = some found) : fenceFor 0x7E s = none := by
  cases s with
  | nil => rfl
  | cons a rest =>
      apply fenceFor_ne
      rintro rfl
      rw [fenceFor_ne (by decide)] at h
      cases h

theorem run_fenceRun {k : Cursor CodePoint -> Option β} {c : Cursor CodePoint} {line : Text}
    {rest : List Text} {f : CodePoint} (hf : isFenceCharacter f = true)
    (hrest : c.rest = line ++ moreLines rest) (hline : (0x0A : CodePoint) ∉ line) :
    run (fenceRun f) c (fun d => run afterFence
        (d.capture 2 (c.rest.take (c.rest.length - d.rest.length))) k) =
      (fenceFor f line).bind (fun found => (languageOf found.2).bind (fun lang =>
        nextLine k ((c.capture 2 found.1).capture 3 lang) line rest)) := by
  have hk : FailsOn (fun d => decide (d = f)) c.groups (fun d => run afterFence
      (d.capture 2 (c.rest.take (c.rest.length - d.rest.length))) k) := by
    intro d _ hd
    apply afterFence_fails _ k (d.capture 2 _) rfl
    show d.rest.head?.any isFenceCharacter = true
    cases hhead : d.rest.head? with
    | none => rw [hhead] at hd; cases hd
    | some a =>
        rw [hhead] at hd
        have ha : a = f := by simpa using hd
        rw [ha]
        exact hf
  have hnl : decide ((0x0A : CodePoint) = f) = false := by
    rw [decide_eq_false_iff_not]
    rintro rfl
    cases hf
  have hallowed : allowed 3 none (line.takeWhile (fun d => decide (d = f))).length <->
      3 ≤ (line.takeWhile (fun d => decide (d = f))).length := by
    unfold allowed
    simp
  unfold fenceRun
  rw [run_many_greedy hk, hrest, takeWhile_line hnl (moreLines_boundary rest),
    dropWhile_line hnl (moreLines_boundary rest)]
  unfold fenceFor
  by_cases hlong : 3 ≤ (line.takeWhile (fun d => decide (d = f))).length
  · have hdrop : (0x0A : CodePoint) ∉ line.dropWhile (fun d => decide (d = f)) :=
      fun h => hline ((List.dropWhile_sublist _).subset h)
    have hgroup : (line ++ moreLines rest).take ((line ++ moreLines rest).length -
        (line.dropWhile (fun d => decide (d = f)) ++ moreLines rest).length) =
        line.takeWhile (fun d => decide (d = f)) := by
      have hsplit := List.takeWhile_append_dropWhile (p := fun d => decide (d = f)) (l := line)
      have h := take_taken (line.takeWhile (fun d => decide (d = f)))
        (line.dropWhile (fun d => decide (d = f)) ++ moreLines rest)
      rw [← List.append_assoc, hsplit] at h
      exact h
    rw [if_pos (hallowed.mpr hlong), if_pos hlong, Cursor.skip_rest, hgroup, Cursor.capture_skip,
      run_afterFence rfl hdrop]
    show (languageOf _).bind _ = (languageOf _).bind _
    apply congrArg
    funext lang
    rw [Cursor.capture_skip, nextLine_skip, List.takeWhile_append_dropWhile]
  · rw [if_neg (fun h => hlong (hallowed.mp h)), if_neg hlong]
    rfl

theorem run_fence {k : Cursor CodePoint -> Option β} {c : Cursor CodePoint} {line : Text}
    {rest : List Text} (hrest : c.rest = line ++ moreLines rest)
    (hline : (0x0A : CodePoint) ∉ line) :
    run (.seq (.group 2 (.alt (fenceRun 0x60) (fenceRun 0x7E))) afterFence) c k =
      (fenceOf line).bind (fun found => (languageOf found.2).bind (fun lang =>
        nextLine k ((c.capture 2 found.1).capture 3 lang) line rest)) := by
  rw [run_seq, run_group, run_alt, run_fenceRun rfl hrest hline, run_fenceRun rfl hrest hline,
    fenceOf_eq]
  cases hticks : fenceFor 0x60 line with
  | none => rfl
  | some found =>
      rw [fenceFor_exclusive hticks, Option.bind_none, Option.or_none, Option.or_none]

theorem fence_fails (groups : Nat -> Option Text) (k : Cursor CodePoint -> Option β) :
    FailsOn isBlank groups (fun d => run
      (.seq (.group 2 (.alt (fenceRun 0x60) (fenceRun 0x7E))) afterFence) d k) := by
  intro d _ hd
  rcases exists_lines d.rest with ⟨line, rest, _, hrest, hlines⟩
  dsimp only
  rw [run_fence hrest (hlines line List.mem_cons_self)]
  cases line with
  | nil => rfl
  | cons a line =>
      have ha : a = 0x20 := by
        rw [hrest] at hd
        simpa [isBlank] using hd
      rw [fenceOf_cons, ha]
      rfl

theorem run_opening {k : Cursor CodePoint -> Option β} {c : Cursor CodePoint} {line : Text}
    {rest : List Text} (hprev : isLineBoundary c.prev = true)
    (hrest : c.rest = line ++ moreLines rest) (hline : (0x0A : CodePoint) ∉ line) :
    run opening c k =
      (FencedBlock.opening line).bind (fun found =>
        nextLine k (((c.capture 1 (line.takeWhile isBlank)).capture 2 found.1).capture 3 found.2)
          line rest) := by
  have hk : FailsOn isBlank c.groups (fun d => run
      (.seq (.group 2 (.alt (fenceRun 0x60) (fenceRun 0x7E))) afterFence)
      (d.capture 1 (c.rest.take (c.rest.length - d.rest.length))) k) := by
    intro d _ hd
    exact fence_fails _ k (d.capture 1 _) rfl hd
  have hdrop : (0x0A : CodePoint) ∉ line.dropWhile isBlank :=
    fun h => hline ((List.dropWhile_sublist _).subset h)
  have hgroup : (line ++ moreLines rest).take ((line ++ moreLines rest).length -
      (line.dropWhile isBlank ++ moreLines rest).length) = line.takeWhile isBlank := by
    have h := take_taken (line.takeWhile isBlank) (line.dropWhile isBlank ++ moreLines rest)
    rw [← List.append_assoc, List.takeWhile_append_dropWhile] at h
    exact h
  have hopening : opening = .seq lineStart (.seq (.group 1 indent)
      (.seq (.group 2 (.alt (fenceRun 0x60) (fenceRun 0x7E))) afterFence)) := rfl
  unfold FencedBlock.opening
  rw [hopening, unindent_eq, lineStart, run_seq, run_behind, if_pos hprev, run_seq, run_group,
    indent, run_many_greedy hk, hrest, takeWhile_line rfl (moreLines_boundary rest),
    dropWhile_line rfl (moreLines_boundary rest)]
  by_cases hshort : allowed 0 (some 3) (line.takeWhile isBlank).length
  · rw [if_pos hshort, if_pos hshort, Cursor.skip_rest, hgroup, Cursor.capture_skip,
      run_fence rfl hdrop, Option.bind_some, Option.bind_assoc]
    apply congrArg
    funext found
    rw [Option.bind_map]
    apply congrArg
    funext lang
    show nextLine k (Cursor.capture (Cursor.capture (Cursor.skip _ _ _) _ _) _ _) _ _ =
      nextLine k _ line rest
    rw [Cursor.capture_skip, Cursor.capture_skip, nextLine_skip,
      List.takeWhile_append_dropWhile]
  · rw [if_neg hshort, if_neg hshort]
    rfl

theorem run_opening_inside (k : Cursor CodePoint -> Option β) {c : Cursor CodePoint}
    (hprev : isLineBoundary c.prev = false) : run opening c k = none := by
  unfold opening lineStart
  rw [run_seq, run_behind, hprev]
  rfl

/-!
# Matches
-/

theorem isFence_of_fenceFor {f : CodePoint} (hf : isFenceCharacter f = true) {s : Text}
    {found : Text × Text} (h : fenceFor f s = some found) : IsFence found.1 := by
  unfold fenceFor at h
  by_cases hlong : 3 ≤ (s.takeWhile (fun c => c = f)).length
  · rw [if_pos hlong] at h
    cases h
    constructor
    · rintro hnil
      rw [show (s.takeWhile (fun c => c = f), s.dropWhile (fun c => c = f)).1 =
        s.takeWhile (fun c => c = f) from rfl] at hnil
      rw [hnil] at hlong
      exact absurd hlong (by decide)
    · intro c hc
      have hcf : c = f := by simpa using List.mem_takeWhile_imp hc
      rw [hcf]
      exact hf
  · rw [if_neg hlong] at h
    cases h

theorem isFence_of_fenceOf {s : Text} {found : Text × Text} (h : fenceOf s = some found) :
    IsFence found.1 := by
  rw [fenceOf_eq] at h
  rcases Option.or_eq_some_iff.mp h with h | ⟨_, h⟩
  · exact isFence_of_fenceFor rfl h
  · exact isFence_of_fenceFor rfl h

theorem isFence_of_opening {line : Text} {found : Text × Text}
    (h : FencedBlock.opening line = some found) : IsFence found.1 := by
  rcases Option.bind_eq_some_iff.mp h with ⟨s, _, h⟩
  rcases Option.bind_eq_some_iff.mp h with ⟨run, hrun, h⟩
  rcases Option.map_eq_some_iff.mp h with ⟨lang, _, rfl⟩
  have hfence := isFence_of_fenceOf hrun
  exact hfence

/-- What the expression takes at a line, given the lines behind it. -/
def look (line : Text) (rest : List Text) : Option (Text × Nat) :=
  (FencedBlock.opening line).bind (fun found =>
    (rest.findIdx? (closes found.1)).map (fun n => (found.2.flatMap lowerCharacter, n)))

/-- The block of a line and the lines behind it, the first of them at this place. -/
def blockFrom (pos : Nat) (line : Text) (rest : List Text) (kind : Text) (n : Nat) :
    LocatedBlock :=
  { kind := kind
    body := bodyOf (rest.take n)
    start := pos
    stop := pos + (closedLines (line :: rest.take (n + 1))).length - 1 }

theorem split_findIdx {p : Text -> Bool} {lines : List Text} {n : Nat}
    (h : lines.findIdx? p = some n) :
    exists closer, lines = lines.take n ++ closer :: lines.drop (n + 1) ∧
      lines.take (n + 1) = lines.take n ++ [closer] ∧ p closer = true ∧
      forall l, l ∈ lines.take n -> p l = false := by
  rcases List.findIdx?_eq_some_iff_getElem.mp h with ⟨hlt, hcloser, hbefore⟩
  refine ⟨lines[n], ?_, ?_, hcloser, ?_⟩
  · rw [← List.drop_eq_getElem_cons hlt, List.take_append_drop]
  · rw [List.take_add_one, List.getElem?_eq_getElem hlt]
    rfl
  · intro l hl
    rcases List.mem_take_iff_getElem.mp hl with ⟨j, hj, rfl⟩
    have h := hbefore j (by omega)
    simpa using h

theorem run_fence_eq (c : Cursor CodePoint) :
    run fence c some =
      run opening c (fun d => run anything d (afterBody d.rest)) := rfl

theorem matchAt_line {prev : Option CodePoint} {pos : Nat} {line : Text} {rest : List Text}
    (hprev : isLineBoundary prev = true)
    (hlines : forall l, l ∈ line :: rest -> (0x0A : CodePoint) ∉ l) :
    (matchAt fence prev pos (line ++ moreLines rest)).map blockOf =
      (look line rest).map (fun taken => blockFrom pos line rest taken.1 taken.2) := by
  unfold matchAt
  rw [run_fence_eq, run_opening hprev rfl (hlines line List.mem_cons_self)]
  unfold look
  cases hopening : FencedBlock.opening line with
  | none => rfl
  | some found =>
      have hfence := isFence_of_opening hopening
      rw [Option.bind_some, Option.bind_some]
      cases rest with
      | nil => rfl
      | cons next rest =>
          have hlater : forall l, l ∈ next :: rest -> (0x0A : CodePoint) ∉ l :=
            fun l hl => hlines l (List.mem_cons_of_mem line hl)
          unfold nextLine
          dsimp only
          cases hfind : (next :: rest).findIdx? (closes found.1) with
          | none =>
              rw [@body_open found.1 _ _ _ _ rfl hfence _ rfl hlater
                (List.findIdx?_eq_none_iff.mp hfind)]
              · rfl
              · simp [Cursor.skip, isLineBoundary]
          | some n =>
              rcases split_findIdx hfind with ⟨closer, hsplit, htake, hcloser, hbefore⟩
              rw [@body_closed found.1 _ _ _ _ _ _ _ rfl hfence _ rfl hlater hsplit hbefore hcloser]
              · have hbody := take_taken (closedLines ((next :: rest).take n))
                  (closer ++ moreLines ((next :: rest).drop (n + 1)))
                rw [← lines_split hsplit] at hbody
                have hlength : (closedLines (line :: (next :: rest).take (n + 1))).length =
                    (line ++ [0x0A]).length + ((closedLines ((next :: rest).take n) ++ closer).length
                      + 1) := by
                  rw [htake]
                  simp only [closedLines, List.flatMap_cons, List.flatMap_append,
                    List.flatMap_nil, List.append_nil, List.length_append, List.length_cons,
                    List.length_nil]
                  omega
                rw [Cursor.skip_rest, hbody, Option.map_some, Option.map_some, Option.map_some,
                  Option.map_some]
                unfold blockFrom
                rw [hlength]
                dsimp only
                rw [Nat.add_sub_assoc (by omega), Nat.add_sub_assoc (by omega),
                  Nat.add_sub_cancel, ← Nat.add_assoc]
                rfl
              · simp [Cursor.skip, isLineBoundary]

end FenceExpression
end ConversationService
