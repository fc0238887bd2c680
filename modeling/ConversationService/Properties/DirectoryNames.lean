import ConversationService.Library.Trimming
import ConversationService.Properties.ArchiveNames

/-!
# Names for every platform

A slug has only safe characters, is not too long and starts and ends with a letter or a digit.
It is not the name of a device, but it may be such a name with something behind a dot, which
is the same device on Windows.
-/

namespace ConversationService

open Python Trimming

namespace Naming

/-- A letter or a digit: what is safe and no edge. -/
def isWord (c : CodePoint) : Bool :=
  isSafe c && !isEdge c

/-- Everything else. -/
def isGap (c : CodePoint) : Bool :=
  !isWord c

/-- What Windows looks at: the part before the first dot. -/
def stem (name : Text) : Text :=
  name.takeWhile (fun c => c ≠ 0x2E)

/-- A name that a directory can have on every platform. -/
structure IsPortable (name : Text) : Prop where
  safe : forall c, c ∈ name -> isSafe c = true
  first : exists c rest, name = c :: rest ∧ isEdge c = false
  last : exists front c, name = front ++ [c] ∧ isEdge c = false
  noDevice : stem name ∉ windowsReserved

/-!
# Replacing what is unsafe
-/

theorem isEdge_of_not_isWord {c : CodePoint} (hsafe : isSafe c = true)
    (h : isWord c = false) : isEdge c = true := by
  unfold isWord at h
  rw [hsafe, Bool.true_and, Bool.not_eq_false'] at h
  exact h

theorem isWord_eq_true_iff {c : CodePoint} :
    isWord c = true <-> isSafe c = true ∧ isEdge c = false := by
  unfold isWord
  rw [Bool.and_eq_true, Bool.not_eq_true']

theorem replaceUnsafe_safe (dash : Bool) {c : CodePoint} (h : isSafe c = true) (rest : Text) :
    replaceUnsafe dash (c :: rest) = c :: replaceUnsafe false rest := by
  rw [replaceUnsafe, if_pos h]

theorem replaceUnsafe_append {front : Text} (h : forall c, c ∈ front -> isSafe c = true)
    (rest : Text) : replaceUnsafe false (front ++ rest) = front ++ replaceUnsafe false rest := by
  induction front with
  | nil => rfl
  | cons c front ih =>
      rw [List.cons_append, replaceUnsafe_safe false (h c List.mem_cons_self),
        ih (fun d hd => h d (List.mem_cons_of_mem _ hd)), List.cons_append]

theorem replaceUnsafe_front {front rest s : Text} (h : forall c, c ∈ front -> c ≠ 0x2D)
    (hs : replaceUnsafe false s = front ++ rest) :
    exists s', s = front ++ s' ∧ replaceUnsafe false s' = rest := by
  induction front generalizing s with
  | nil => exact ⟨s, rfl, hs⟩
  | cons c front ih =>
      cases s with
      | nil => cases hs
      | cons d s =>
          by_cases hd : isSafe d = true
          · rw [replaceUnsafe_safe false hd, List.cons_append] at hs
            rcases List.cons.inj hs with ⟨rfl, htail⟩
            rcases ih (fun c hc => h c (List.mem_cons_of_mem _ hc)) htail with ⟨s', rfl, hrest⟩
            exact ⟨s', rfl, hrest⟩
          · rw [replaceUnsafe, if_neg hd] at hs
            exact absurd (List.cons.inj hs).left.symm (h c List.mem_cons_self)

theorem replaceUnsafe_split (dash : Bool) (s : Text) :
    (replaceUnsafe dash s).takeWhile isEdge =
        replaceUnsafe dash (s.takeWhile isGap) ∧
      (replaceUnsafe dash s).dropWhile isEdge =
        replaceUnsafe false (s.dropWhile isGap) := by
  induction s generalizing dash with
  | nil => exact ⟨rfl, rfl⟩
  | cons c rest ih =>
      by_cases hsafe : isSafe c = true
      · rcases ih false with ⟨htake, hdrop⟩
        cases hword : isWord c with
        | true =>
            have hedge : ¬(isEdge c = true) := by
              rw [(isWord_eq_true_iff.mp hword).right]
              exact Bool.false_ne_true
            have hstays : ¬(isGap c = true) := by
              unfold isGap
              rw [hword]
              exact Bool.false_ne_true
            rw [replaceUnsafe_safe dash hsafe, List.takeWhile_cons_of_neg hedge,
              List.dropWhile_cons_of_neg hedge, List.takeWhile_cons_of_neg hstays,
              List.dropWhile_cons_of_neg hstays, replaceUnsafe_safe false hsafe]
            exact ⟨rfl, rfl⟩
        | false =>
            have hedge := isEdge_of_not_isWord hsafe hword
            have hpassed : isGap c = true := by rw [isGap, hword, Bool.not_false]
            rw [replaceUnsafe_safe dash hsafe, List.takeWhile_cons_of_pos hedge,
              List.dropWhile_cons_of_pos hedge, List.takeWhile_cons_of_pos hpassed,
              List.dropWhile_cons_of_pos hpassed, replaceUnsafe_safe dash hsafe, htake, hdrop]
            exact ⟨rfl, rfl⟩
      · rcases ih true with ⟨htake, hdrop⟩
        have hpassed : isGap c = true := by
          rw [Bool.not_eq_true] at hsafe
          rw [isGap, isWord, hsafe, Bool.false_and, Bool.not_false]
        rw [List.takeWhile_cons_of_pos hpassed, List.dropWhile_cons_of_pos hpassed,
          replaceUnsafe, if_neg hsafe, replaceUnsafe, if_neg hsafe]
        cases dash with
        | true => exact ⟨htake, hdrop⟩
        | false =>
            have hedge : isEdge 0x2D = true := rfl
            rw [if_neg Bool.false_ne_true, List.singleton_append,
              List.takeWhile_cons_of_pos hedge, List.dropWhile_cons_of_pos hedge, htake, hdrop]
            exact ⟨rfl, rfl⟩

section Slugs

variable (nfkd : Text -> Text)

/-- The text of a title from its first letter or digit on. -/
def words (s : Text) : Text :=
  (asciiText nfkd s).dropWhile isGap

/-- What `slug` has before it looks for reserved names. -/
def cleaned (s : Text) (maxLen : Nat) : Text :=
  ((replaceUnsafe false (words nfkd s)).take maxLen).rdropWhile isEdge

theorem head_words {s : Text} {c : CodePoint} {rest : Text} (h : words nfkd s = c :: rest) :
    isWord c = true := by
  have hhead := List.head?_dropWhile_not isGap (asciiText nfkd s)
  unfold words at h
  rw [h] at hhead
  simpa [isGap] using hhead

theorem dropWhile_replaceUnsafe_words (s : Text) (n : Nat) :
    ((replaceUnsafe false (words nfkd s)).take n).dropWhile isEdge =
      (replaceUnsafe false (words nfkd s)).take n := by
  cases hwords : words nfkd s with
  | nil => rw [replaceUnsafe, List.take_nil, List.dropWhile_nil]
  | cons c rest =>
      rcases isWord_eq_true_iff.mp (head_words nfkd hwords) with ⟨hsafe, hedge⟩
      rw [replaceUnsafe_safe false hsafe]
      cases n with
      | zero => rfl
      | succ n =>
          rw [List.take_succ_cons, List.dropWhile_cons_of_neg]
          rw [hedge]
          exact Bool.false_ne_true

theorem slug_eq (s : Text) (maxLen : Nat) (fallback : Text) :
    slug nfkd s maxLen fallback =
      if (cleaned nfkd s maxLen).isEmpty || windowsReserved.contains (cleaned nfkd s maxLen) then
        fallback
      else cleaned nfkd s maxLen := by
  have hwords : (replaceUnsafe false (asciiText nfkd s)).dropWhile isEdge =
      replaceUnsafe false (words nfkd s) := (replaceUnsafe_split false (asciiText nfkd s)).right
  have hfront : (replaceUnsafe false (words nfkd s)).rdropWhile isEdge <+:
      replaceUnsafe false (words nfkd s) := List.rdropWhile_prefix _ _
  have hcut : ((replaceUnsafe false (words nfkd s)).rdropWhile isEdge).take maxLen =
      (replaceUnsafe false (words nfkd s)).take
        (min maxLen ((replaceUnsafe false (words nfkd s)).rdropWhile isEdge).length) := by
    rw [← List.take_take, ← List.prefix_iff_eq_take.mp hfront]
  have hcleaned : stripBy isEdge
      ((stripBy isEdge (replaceUnsafe false (asciiText nfkd s))).take maxLen) =
        cleaned nfkd s maxLen := by
    show ((((replaceUnsafe false (asciiText nfkd s)).dropWhile isEdge).rdropWhile isEdge).take
      maxLen |>.dropWhile isEdge).rdropWhile isEdge = _
    rw [hwords, hcut, dropWhile_replaceUnsafe_words, ← hcut, rdropWhile_take_rdropWhile]
    rfl
  unfold slug
  rw [hcleaned]

/-!
# Devices
-/

theorem isWord_reserved : forall device, device ∈ windowsReserved ->
    forall c, c ∈ device -> isWord c = true := by
  have hall : windowsReserved.all (fun device => device.all isWord) = true := by decide
  intro device hdevice
  exact List.all_eq_true.mp (List.all_eq_true.mp hall device hdevice)

theorem not_mem_reserved {device : Text} (h : device ∈ windowsReserved) {c : CodePoint}
    (hc : isWord c = false) : c ∉ device := by
  intro hmem
  rw [isWord_reserved device h c hmem] at hc
  cases hc

theorem stem_cases (name : Text) :
    stem name = name ∨ exists rest, name = stem name ++ 0x2E :: rest := by
  induction name with
  | nil => exact Or.inl rfl
  | cons c name ih =>
      unfold stem at ih ⊢
      by_cases hc : c = 0x2E
      · rw [hc, List.takeWhile_cons_of_neg (by decide)]
        exact Or.inr ⟨name, rfl⟩
      · have hkeep : decide (c ≠ 0x2E) = true := decide_eq_true hc
        rw [List.takeWhile_cons, if_pos hkeep]
        rcases ih with heq | ⟨rest, hrest⟩
        · exact Or.inl (by rw [heq])
        · exact Or.inr ⟨rest, congrArg (List.cons c) hrest⟩

theorem stem_dot {front : Text} (h : 0x2E ∉ front) (rest : Text) :
    stem (front ++ 0x2E :: rest) = front := by
  unfold stem
  rw [List.takeWhile_append_of_pos, List.takeWhile_cons_of_neg (by decide), List.append_nil]
  intro c hc
  exact decide_eq_true (fun heq => h (heq ▸ hc))

/--
The title starts with the name of a device and a dot, apart from what is no letter and no digit,
and the next letter or digit is among the characters that are kept.
-/
def NamesDevice (s : Text) (maxLen : Nat) : Prop :=
  exists device rest, device ∈ windowsReserved ∧ words nfkd s = device ++ 0x2E :: rest ∧
    (exists c, c ∈ rest ∧ isWord c = true) ∧
    device.length + 1 + (replaceUnsafe false (rest.takeWhile isGap)).length < maxLen

theorem cleaned_prefix (s : Text) (maxLen : Nat) :
    cleaned nfkd s maxLen <+: replaceUnsafe false (words nfkd s) :=
  (List.rdropWhile_prefix _ _).trans (List.take_prefix _ _)

theorem length_cleaned (s : Text) (maxLen : Nat) : (cleaned nfkd s maxLen).length ≤ maxLen :=
  (List.rdropWhile_prefix _ _).length_le.trans (List.length_take_le _ _)

theorem exists_first {p : CodePoint -> Bool} {s : Text} (h : exists c, c ∈ s ∧ p c = false) :
    exists front c rest, s = front ++ c :: rest ∧ (forall d, d ∈ front -> p d = true) ∧
      p c = false := by
  induction s with
  | nil =>
      rcases h with ⟨c, hc, _⟩
      cases hc
  | cons d s ih =>
      cases hd : p d with
      | false => exact ⟨[], d, s, rfl, fun x hx => absurd hx List.not_mem_nil, hd⟩
      | true =>
          have hrest : exists c, c ∈ s ∧ p c = false := by
            rcases h with ⟨c, hc, hpc⟩
            rcases List.mem_cons.mp hc with rfl | hc
            · rw [hd] at hpc
              cases hpc
            · exact ⟨c, hc, hpc⟩
          rcases ih hrest with ⟨front, c, rest, rfl, hfront, hc⟩
          refine ⟨d :: front, c, rest, rfl, ?_, hc⟩
          intro x hx
          rcases List.mem_cons.mp hx with rfl | hx
          · exact hd
          · exact hfront x hx

theorem replaceUnsafe_cut {s front rest : Text} {c : CodePoint}
    (hs : replaceUnsafe false s = front ++ c :: rest)
    (hfront : forall d, d ∈ front -> isEdge d = true) (hc : isEdge c = false) :
    replaceUnsafe false (s.takeWhile isGap) = front ∧ exists d, d ∈ s ∧ isWord d = true := by
  rcases replaceUnsafe_split false s with ⟨htake, hdrop⟩
  have hedge : ¬(isEdge c = true) := by
    rw [hc]
    exact Bool.false_ne_true
  rw [hs, List.takeWhile_append_of_pos hfront, List.takeWhile_cons_of_neg hedge,
    List.append_nil] at htake
  rw [hs, List.dropWhile_append_of_pos hfront, List.dropWhile_cons_of_neg hedge] at hdrop
  constructor
  · exact htake.symm
  · cases hwords : s.dropWhile isGap with
    | nil =>
        rw [hwords] at hdrop
        cases hdrop
    | cons d more =>
        have hhead := List.head?_dropWhile_not isGap s
        rw [hwords] at hhead
        have hword : isWord d = true := by simpa [isGap] using hhead
        have hmem : d ∈ s.dropWhile isGap := by
          rw [hwords]
          exact List.mem_cons_self
        exact ⟨d, (List.dropWhile_suffix isGap).subset hmem, hword⟩

theorem namesDevice_of_cleaned {s : Text} {maxLen : Nat}
    (hstem : stem (cleaned nfkd s maxLen) ∈ windowsReserved)
    (hname : cleaned nfkd s maxLen ∉ windowsReserved) : NamesDevice nfkd s maxLen := by
  rcases stem_cases (cleaned nfkd s maxLen) with heq | ⟨rest, hcleaned⟩
  · rw [heq] at hstem
    exact absurd hstem hname
  rcases cleaned_prefix nfkd s maxLen with ⟨tail, htail⟩
  have hlength := length_cleaned nfkd s maxLen
  generalize stem (cleaned nfkd s maxLen) = device at hstem hcleaned
  have hnodash : forall c, c ∈ device ++ [0x2E] -> c ≠ 0x2D := by
    rintro c hc rfl
    rcases List.mem_append.mp hc with hc | hc
    · exact not_mem_reserved hstem rfl hc
    · cases List.mem_singleton.mp hc
  -- the last character of the name is no edge, so it stands behind the dot
  have hrest : exists c, c ∈ rest ∧ isEdge c = false := by
    have hne : cleaned nfkd s maxLen ≠ [] := by
      rw [hcleaned]
      exact List.append_ne_nil_of_right_ne_nil _ (List.cons_ne_nil _ _)
    rcases exists_last hne with ⟨front, c, hlast, hc⟩
    have hcut : device ++ [0x2E] ++ rest = front ++ [c] := by
      rw [List.append_assoc, List.singleton_append, ← hcleaned]
      exact hlast
    cases rest using List.reverseRecOn with
    | nil =>
        rw [List.append_nil] at hcut
        have hdot := (List.append_inj_right' hcut rfl)
        cases List.cons.inj hdot |>.left
        cases hc
    | append_singleton rest d =>
        rw [← List.append_assoc] at hcut
        have hd := (List.append_inj_right' hcut rfl)
        cases List.cons.inj hd |>.left
        exact ⟨c, List.mem_append_right _ List.mem_cons_self, hc⟩
  rcases exists_first hrest with ⟨gap, c, more, rfl, hgap, hc⟩
  have hwhole : replaceUnsafe false (words nfkd s) =
      (device ++ [0x2E]) ++ (gap ++ c :: (more ++ tail)) := by
    rw [← htail, hcleaned]
    simp only [List.append_assoc, List.cons_append, List.nil_append]
  rcases replaceUnsafe_front hnodash hwhole with ⟨behind, hwords, hbehind⟩
  rcases replaceUnsafe_cut hbehind hgap hc with ⟨hcut, hword⟩
  refine ⟨device, behind, hstem, ?_, hword, ?_⟩
  · rw [hwords, List.append_assoc, List.singleton_append]
  · rw [hcut]
    rw [hcleaned] at hlength
    simp only [List.length_append, List.length_cons] at hlength
    omega

theorem cleaned_of_namesDevice {s : Text} {maxLen : Nat} (h : NamesDevice nfkd s maxLen) :
    stem (cleaned nfkd s maxLen) ∈ windowsReserved ∧
      cleaned nfkd s maxLen ∉ windowsReserved := by
  rcases h with ⟨device, rest, hdevice, hwords, ⟨d, hd, hword⟩, hlength⟩
  have hsafe : forall c, c ∈ device ++ [0x2E] -> isSafe c = true := by
    intro c hc
    rcases List.mem_append.mp hc with hc | hc
    · exact (isWord_eq_true_iff.mp (isWord_reserved device hdevice c hc)).left
    · rw [List.mem_singleton.mp hc]
      rfl
  rcases replaceUnsafe_split false rest with ⟨htake, hdrop⟩
  generalize replaceUnsafe false (rest.takeWhile isGap) = gap at htake hlength
  cases hbehind : rest.dropWhile isGap with
  | nil =>
      have hgap := List.dropWhile_eq_nil_iff.mp hbehind d hd
      rw [isGap, hword] at hgap
      cases hgap
  | cons c more =>
      have hhead := List.head?_dropWhile_not isGap rest
      rw [hbehind] at hhead
      have hc : isWord c = true := by simpa [isGap] using hhead
      rcases isWord_eq_true_iff.mp hc with ⟨hsafec, hedge⟩
      rw [hbehind, replaceUnsafe_safe false hsafec] at hdrop
      have hall : replaceUnsafe false rest = gap ++ c :: replaceUnsafe false more := by
        rw [← htake, ← hdrop, List.takeWhile_append_dropWhile]
      have hwhole : replaceUnsafe false (words nfkd s) =
          (device ++ 0x2E :: gap) ++ c :: replaceUnsafe false more := by
        have hdot : words nfkd s = (device ++ [0x2E]) ++ rest := by
          rw [hwords, List.append_assoc, List.singleton_append]
        rw [hdot, replaceUnsafe_append hsafe, hall]
        simp only [List.append_assoc, List.cons_append, List.nil_append]
      have hfits : (device ++ 0x2E :: gap).length < maxLen := by
        rw [List.length_append, List.length_cons]
        omega
      rcases Nat.exists_eq_add_of_lt hfits with ⟨k, hk⟩
      have hkept : (c :: (replaceUnsafe false more).take k).rdropWhile isEdge ≠ [] := by
        intro hnil
        have hall := List.rdropWhile_eq_nil_iff.mp hnil c List.mem_cons_self
        rw [hedge] at hall
        cases hall
      have hcleaned : cleaned nfkd s maxLen = device ++ 0x2E ::
          (gap ++ (c :: (replaceUnsafe false more).take k).rdropWhile isEdge) := by
        have hcut : maxLen = (device ++ 0x2E :: gap).length + (k + 1) := hk
        unfold cleaned
        rw [hwhole, hcut, List.take_length_add_append, List.take_succ_cons,
          rdropWhile_append_of_ne_nil _ hkept, List.append_assoc, List.cons_append]
      have hdot : 0x2E ∉ device := not_mem_reserved hdevice rfl
      rw [hcleaned]
      constructor
      · rw [stem_dot hdot]
        exact hdevice
      · intro hmem
        exact not_mem_reserved hmem (c := 0x2E) rfl
          (List.mem_append_right _ List.mem_cons_self)

/-!
# Portable names
-/

theorem isSafe_conversation : forall c, c ∈ text "conversation" -> isSafe c = true :=
  List.all_eq_true.mp (by decide)

theorem slug_cases (s : Text) (maxLen : Nat) :
    (slug nfkd s maxLen (text "conversation") = text "conversation" ∧
        (cleaned nfkd s maxLen = [] ∨ cleaned nfkd s maxLen ∈ windowsReserved)) ∨
      (slug nfkd s maxLen (text "conversation") = cleaned nfkd s maxLen ∧
        cleaned nfkd s maxLen ≠ [] ∧ cleaned nfkd s maxLen ∉ windowsReserved) := by
  rw [slug_eq]
  split
  · rename_i h
    rw [Bool.or_eq_true, List.isEmpty_iff, List.contains_iff_mem] at h
    exact Or.inl ⟨rfl, h⟩
  · rename_i h
    rw [Bool.or_eq_true, List.isEmpty_iff, List.contains_iff_mem, not_or] at h
    exact Or.inr ⟨rfl, h⟩

theorem first_slug (s : Text) (maxLen : Nat) :
    exists c rest, slug nfkd s maxLen (text "conversation") = c :: rest ∧ isEdge c = false := by
  rcases slug_cases nfkd s maxLen with ⟨heq, _⟩ | ⟨heq, hne, _⟩
  · rw [heq]
    exact ⟨0x63, text "onversation", rfl, rfl⟩
  · rw [heq]
    rcases cleaned_prefix nfkd s maxLen with ⟨tail, htail⟩
    cases hcleaned : cleaned nfkd s maxLen with
    | nil => exact absurd hcleaned hne
    | cons c rest =>
        rw [hcleaned] at htail
        cases hwords : words nfkd s with
        | nil =>
            rw [hwords] at htail
            cases htail
        | cons d more =>
            rcases isWord_eq_true_iff.mp (head_words nfkd hwords) with ⟨hsafe, hedge⟩
            rw [hwords, replaceUnsafe_safe false hsafe] at htail
            cases (List.cons.inj htail).left
            exact ⟨c, rest, rfl, hedge⟩

theorem last_slug (s : Text) (maxLen : Nat) :
    exists front c, slug nfkd s maxLen (text "conversation") = front ++ [c] ∧
      isEdge c = false := by
  rcases slug_cases nfkd s maxLen with ⟨heq, _⟩ | ⟨heq, hne, _⟩
  · rw [heq]
    exact ⟨text "conversatio", 0x6E, rfl, rfl⟩
  · rw [heq]
    exact exists_last hne

theorem length_slug (s : Text) {maxLen : Nat} (h : 12 ≤ maxLen) :
    (slug nfkd s maxLen (text "conversation")).length ≤ maxLen := by
  rcases slug_cases nfkd s maxLen with ⟨heq, _⟩ | ⟨heq, _⟩
  · rw [heq]
    exact h
  · rw [heq]
    exact length_cleaned nfkd s maxLen

theorem slug_not_mem_reserved (s : Text) (maxLen : Nat) :
    slug nfkd s maxLen (text "conversation") ∉ windowsReserved := by
  rcases slug_cases nfkd s maxLen with ⟨heq, _⟩ | ⟨heq, _, hname⟩
  · rw [heq]
    decide
  · rw [heq]
    exact hname

/-- The stem of a slug is a device exactly if the title names one. -/
theorem stem_slug_iff (s : Text) (maxLen : Nat) :
    stem (slug nfkd s maxLen (text "conversation")) ∈ windowsReserved <->
      NamesDevice nfkd s maxLen := by
  constructor
  · intro hstem
    rcases slug_cases nfkd s maxLen with ⟨heq, _⟩ | ⟨heq, _, hname⟩
    · rw [heq] at hstem
      exact absurd hstem (by decide)
    · rw [heq] at hstem
      exact namesDevice_of_cleaned nfkd hstem hname
  · intro h
    rcases cleaned_of_namesDevice nfkd h with ⟨hstem, hname⟩
    rcases slug_cases nfkd s maxLen with ⟨_, hnil | hmem⟩ | ⟨heq, _⟩
    · rw [hnil] at hstem
      exact absurd hstem (by decide)
    · exact absurd hmem hname
    · rw [heq]
      exact hstem

theorem isPortable_slug_iff (s : Text) (maxLen : Nat) :
    IsPortable (slug nfkd s maxLen (text "conversation")) <-> ¬NamesDevice nfkd s maxLen := by
  rw [← stem_slug_iff]
  constructor
  · exact fun h => h.noDevice
  · intro hstem
    exact
      { safe := isSafe_slug nfkd s maxLen isSafe_conversation
        first := first_slug nfkd s maxLen
        last := last_slug nfkd s maxLen
        noDevice := hstem }

theorem conversationDir_eq (title : Option Text) (id : UUID) :
    conversationDir nfkd title id =
      slug nfkd (title.getD []) 40 (text "conversation") ++ 0x2D :: id.hex.take 8 := by
  have hdash : text "-" = [0x2D] := rfl
  unfold conversationDir
  rw [shortId_eq, hdash, List.append_assoc, List.singleton_append]

theorem isWord_smallDigit {c : CodePoint} (h : IsSmallDigit c) : isWord c = true := by
  rw [isWord_eq_true_iff]
  constructor
  · exact (isSafe_smallDigit h).left
  · cases hedge : isEdge c with
    | false => rfl
    | true =>
        unfold isEdge at hedge
        rw [Bool.or_eq_true, Bool.or_eq_true, decide_eq_true_eq, decide_eq_true_eq,
          decide_eq_true_eq] at hedge
        rcases hedge with (rfl | rfl) | rfl
        · exact absurd h.right (by decide)
        · exact absurd h.right (by decide)
        · exact absurd h.right (by decide)

theorem stem_conversationDir_iff (title : Option Text) (id : UUID) :
    stem (conversationDir nfkd title id) ∈ windowsReserved <->
      stem (slug nfkd (title.getD []) 40 (text "conversation")) ∈ windowsReserved := by
  rw [conversationDir_eq]
  have hreserved := slug_not_mem_reserved nfkd (title.getD []) 40
  generalize slug nfkd (title.getD []) 40 (text "conversation") = name at hreserved
  rcases stem_cases name with heq | ⟨rest, hname⟩
  · have hdot : 0x2E ∉ name := by
      rw [← heq]
      intro hmem
      exact absurd (List.mem_takeWhile_imp hmem) (by decide)
    have hall : stem (name ++ 0x2D :: id.hex.take 8) = name ++ 0x2D :: id.hex.take 8 := by
      apply List.takeWhile_eq_self_iff.mpr
      intro c hc
      apply decide_eq_true
      rintro rfl
      rcases List.mem_append.mp hc with hc | hc
      · exact hdot hc
      · rcases List.mem_cons.mp hc with hc | hc
        · cases hc
        · exact UUID.not_mem_hex rfl (List.mem_of_mem_take hc)
    rw [heq, hall]
    constructor
    · intro hmem
      exact absurd (List.mem_append_right _ List.mem_cons_self) (not_mem_reserved hmem rfl)
    · exact fun hmem => absurd hmem hreserved
  · have hdot : 0x2E ∉ stem name :=
      fun hmem => absurd (List.mem_takeWhile_imp hmem) (by decide)
    have hsame : stem (name ++ 0x2D :: id.hex.take 8) = stem name := by
      conv_lhs => rw [hname]
      rw [List.append_assoc, List.cons_append, stem_dot hdot]
    rw [hsame]

theorem isPortable_conversationDir_iff (title : Option Text) (id : UUID) :
    IsPortable (conversationDir nfkd title id) <-> ¬NamesDevice nfkd (title.getD []) 40 := by
  rw [← stem_slug_iff, ← stem_conversationDir_iff nfkd title id]
  constructor
  · exact fun h => h.noDevice
  · intro hstem
    have hid : id.hex.take 8 ≠ [] := by
      intro hnil
      have hlength := congrArg List.length hnil
      rw [List.length_take, UUID.length_hex] at hlength
      cases hlength
    have hdigit : forall c, c ∈ id.hex.take 8 -> isEdge c = false := fun c hc =>
      (isWord_eq_true_iff.mp
        (isWord_smallDigit (smallDigit_hex id c (List.mem_of_mem_take hc)))).right
    exact
      { safe := (dirName_conversationDir nfkd title id).safe
        first := by
          rcases first_slug nfkd (title.getD []) 40 with ⟨c, rest, heq, hc⟩
          rw [conversationDir_eq, heq]
          exact ⟨c, _, rfl, hc⟩
        last := by
          refine ⟨slug nfkd (title.getD []) 40 (text "conversation") ++
            0x2D :: (id.hex.take 8).dropLast, (id.hex.take 8).getLast hid, ?_, ?_⟩
          · rw [conversationDir_eq, List.append_assoc, List.cons_append,
              List.dropLast_append_getLast hid]
          · exact hdigit _ (List.getLast_mem hid)
        noDevice := hstem }

/-- What is said of the names that are made of a title. -/
structure SafeNames (title : Option Text) (id : UUID) : Prop where
  directory : IsPortable (conversationDir nfkd title id)
  length : (conversationDir nfkd title id).length ≤ 49
  suffix : exists front, conversationDir nfkd title id = front ++ text "-" ++ id.hex.take 8
  slugName : IsPortable (slug nfkd (title.getD []) 40 (text "conversation"))
  slugLength : (slug nfkd (title.getD []) 40 (text "conversation")).length ≤ 40

/-- The names are safe exactly if the title does not name a device with something behind a dot. -/
theorem safeNames_iff (title : Option Text) (id : UUID) :
    SafeNames nfkd title id <-> ¬NamesDevice nfkd (title.getD []) 40 := by
  constructor
  · exact fun h => (isPortable_slug_iff nfkd (title.getD []) 40).mp h.slugName
  · intro h
    have hslug : (slug nfkd (title.getD []) 40 (text "conversation")).length ≤ 40 :=
      length_slug nfkd (title.getD []) (by decide)
    exact
      { directory := (isPortable_conversationDir_iff nfkd title id).mpr h
        length := by
          rw [conversationDir_eq, List.length_append, List.length_cons, List.length_take,
            UUID.length_hex]
          omega
        suffix := ⟨_, congrArg (fun hex => _ ++ text "-" ++ hex) (shortId_eq id)⟩
        slugName := (isPortable_slug_iff nfkd (title.getD []) 40).mpr h
        slugLength := hslug }

end Slugs

/-- Windows takes the directory of a conversation called `con.txt` for the console. -/
theorem console_not_safeNames : ¬SafeNames id (some (text "con.txt")) (.ofInt 0x12345678) := by
  intro h
  exact h.directory.noDevice (by decide)

end Naming
end ConversationService
