import ConversationService.Properties.ArchivePlaces
import ConversationService.Python.UuidText

/-!
# The names of directories

The name of a directory has only safe characters and ends with a hexadecimal digit. A name
that is taken gets an `x` behind it, so the number of these is the number of conversations
of that name that were put into the same directory before.
-/

namespace ConversationService

open Python

namespace Naming

/-!
# Slugs
-/

theorem isSafe_replaceUnsafe (dash : Bool) (s : Text) :
    forall c, c ∈ replaceUnsafe dash s -> isSafe c = true := by
  induction s generalizing dash with
  | nil => exact fun c hc => absurd hc List.not_mem_nil
  | cons a rest ih =>
      intro c hc
      unfold replaceUnsafe at hc
      by_cases ha : isSafe a = true
      · rw [if_pos ha] at hc
        rcases List.mem_cons.mp hc with rfl | hrest
        · exact ha
        · exact ih false c hrest
      · rw [if_neg ha] at hc
        rcases List.mem_append.mp hc with hdash | hrest
        · cases dash with
          | true => exact absurd hdash List.not_mem_nil
          | false =>
              rw [List.mem_singleton.mp hdash]
              rfl
        · exact ih true c hrest

theorem stripBy_sublist (remove : CodePoint -> Bool) (s : Text) :
    List.Sublist (stripBy remove s) s := by
  unfold stripBy
  have h := (List.dropWhile_sublist remove (l := (s.dropWhile remove).reverse)).reverse
  rw [List.reverse_reverse] at h
  exact h.trans (List.dropWhile_sublist remove)

variable (nfkd : Text -> Text)

theorem isSafe_slug (s : Text) (maxLen : Nat) {fallback : Text}
    (hfallback : forall c, c ∈ fallback -> isSafe c = true) :
    forall c, c ∈ slug nfkd s maxLen fallback -> isSafe c = true := by
  intro c hc
  unfold slug at hc
  dsimp only at hc
  split at hc
  · exact hfallback c hc
  · apply isSafe_replaceUnsafe false (asciiText nfkd s)
    exact (stripBy_sublist isEdge _).subset ((List.take_sublist _ _).subset
      ((stripBy_sublist isEdge _).subset hc))

theorem shortId_eq (id : UUID) : shortId id = id.hex.take 8 := by
  unfold shortId removeAll
  have hdash : text "-" = [0x2D] := rfl
  rw [hdash, UUID.removeAllFrom_single, UUID.filter_dash_toText]

theorem isSafe_smallDigit {c : CodePoint} (h : IsSmallDigit c) : isSafe c = true ∧ c ≠ 0x78 := by
  rcases Option.isSome_iff_exists.mp h.right with ⟨d, hd⟩
  have hval := smallDigit_val h hd
  have hlt := hexValue_lt hd
  have hrange : (0x30 ≤ c.val ∧ c.val ≤ 0x39) ∨ (0x61 ≤ c.val ∧ c.val ≤ 0x66) := by
    rw [hval]
    split
    · omega
    · omega
  constructor
  · unfold isSafe
    rcases hrange with h | h
    · simp [h]
    · have h' : c.val ≤ 0x7A := by omega
      simp [h, h']
  · rintro rfl
    rcases hrange with h | h
    · exact absurd h.right (by decide)
    · exact absurd h.right (by decide)

/-- What is known of the name of a directory. -/
structure DirName (name : Text) : Prop where
  safe : forall c, c ∈ name -> isSafe c = true
  last : exists init d, name = init ++ [d] ∧ d ≠ 0x78
  long : 8 < name.length

theorem dirName_conversationDir (title : Option Text) (id : UUID) :
    DirName (conversationDir nfkd title id) := by
  have hshort : (shortId id).length = 8 := by
    rw [shortId_eq, List.length_take, UUID.length_hex]
    rfl
  have hdigit : forall c, c ∈ shortId id -> IsSmallDigit c := by
    intro c hc
    rw [shortId_eq] at hc
    exact smallDigit_hex id c (List.mem_of_mem_take hc)
  have hfallback : forall c, c ∈ text "conversation" -> isSafe c = true :=
    List.all_eq_true.mp (by decide)
  refine ⟨?_, ?_, ?_⟩
  · intro c hc
    unfold conversationDir at hc
    rcases List.mem_append.mp hc with hc | hc
    · rcases List.mem_append.mp hc with hc | hc
      · exact isSafe_slug nfkd _ _ hfallback c hc
      · rw [List.mem_singleton.mp hc]
        rfl
    · exact (isSafe_smallDigit (hdigit c hc)).left
  · have hne : shortId id ≠ [] := by
      intro hnil
      rw [hnil] at hshort
      cases hshort
    refine ⟨slug nfkd (title.getD []) 40 (text "conversation") ++ text "-" ++
      (shortId id).dropLast, (shortId id).getLast hne, ?_, ?_⟩
    · unfold conversationDir
      rw [List.append_assoc _ _ [_], List.dropLast_append_getLast hne]
    · exact (isSafe_smallDigit (hdigit _ (List.getLast_mem hne))).right
  · unfold conversationDir
    rw [List.length_append, List.length_append, hshort]
    have hdash : (text "-").length = 1 := rfl
    omega

end Naming

namespace ExportArchive

open Naming ParentLinks

/-!
# Names with `x` behind them
-/

def exes (n : Nat) : Text := List.replicate n 0x78

theorem exes_inj {name name' : Text} {n n' : Nat} (hname : DirName name)
    (hname' : DirName name') (h : name ++ exes n = name' ++ exes n') : name = name' ∧ n = n' := by
  have hdrop : forall {name : Text}, DirName name -> forall n,
      (name ++ exes n).rdropWhile (fun c => c = 0x78) = name := by
    intro name hname n
    rcases hname.last with ⟨init, d, rfl, hd⟩
    induction n with
    | zero =>
        unfold exes
        rw [List.replicate_zero, List.append_nil]
        exact List.rdropWhile_concat_neg _ _ _ (by simpa using hd)
    | succ n ih =>
        unfold exes at ih ⊢
        rw [List.replicate_succ', ← List.append_assoc]
        rw [List.rdropWhile_concat_pos _ _ _ (by simp)]
        exact ih
  have hsame : name = name' := by
    rw [← hdrop hname n, h, hdrop hname' n']
  subst hsame
  refine ⟨rfl, ?_⟩
  have hlength := congrArg List.length (List.append_cancel_left h)
  simpa [exes] using hlength

def inDir (base name : Text) : Text := base ++ text "/" ++ name

theorem inDir_inj {base base' name name' : Text} (hname : (0x2F : CodePoint) ∉ name)
    (hname' : (0x2F : CodePoint) ∉ name') (h : inDir base name = inDir base' name') :
    base = base' ∧ name = name' := by
  have hlast : forall {base name : Text}, (0x2F : CodePoint) ∉ name ->
      (inDir base name).rtakeWhile (fun c => c ≠ 0x2F) = name := by
    intro base name hname
    unfold inDir List.rtakeWhile
    rw [List.reverse_append, List.reverse_append, List.takeWhile_append_of_pos]
    · simp [text]
    · intro c hc
      have hne : c ≠ 0x2F := fun h => hname (by rw [← h]; exact List.mem_reverse.mp hc)
      simpa using hne
  have hsame : name = name' := by
    rw [← @hlast base name hname, h, hlast hname']
  subst hsame
  unfold inDir at h
  exact ⟨List.append_cancel_right (List.append_cancel_right h), rfl⟩

theorem no_slash {name : Text} (hname : DirName name) (n : Nat) :
    (0x2F : CodePoint) ∉ name ++ exes n := by
  intro hmem
  rcases List.mem_append.mp hmem with h | h
  · cases hname.safe _ h
  · cases List.eq_of_mem_replicate h

theorem freshPath_succ (used : List Text) (base : Text) (tries : Nat) (name : Text) :
    freshPath used base (tries + 1) name =
      if used.contains (inDir base name) then freshPath used base tries (name ++ text "x")
      else inDir base name := rfl

theorem freshPath_eq {used : List Text} {base name : Text} {m : Nat}
    (htaken : forall k, k < m -> inDir base (name ++ exes k) ∈ used)
    (hfree : inDir base (name ++ exes m) ∉ used) (tries : Nat) {j : Nat} (hj : j ≤ m)
    (htries : m ≤ j + tries) :
    freshPath used base tries (name ++ exes j) = inDir base (name ++ exes m) := by
  induction tries generalizing j with
  | zero =>
      have hjm : j = m := by omega
      rw [hjm]
      rfl
  | succ tries ih =>
      rw [freshPath_succ]
      by_cases hjm : j = m
      · subst hjm
        rw [if_neg]
        rw [List.contains_iff_mem]
        exact hfree
      · have hnext : (name ++ exes j) ++ text "x" = name ++ exes (j + 1) := by
          unfold exes
          rw [List.append_assoc, List.replicate_succ']
          rfl
        rw [if_pos (List.contains_iff_mem.mpr (htaken j (by omega))), hnext]
        exact ih (by omega) (by omega)

/-!
# The directories of a plan
-/

section Dirs

variable (nfkd : Text -> Text) (conversations : List ExportConversation)

theorem dirName_isName (id : UUID) : DirName (dirName nfkd conversations id) :=
  dirName_conversationDir nfkd _ id

/-- The conversations of that name that are put into the same place. -/
def sameName (placed : List (UUID × Option UUID)) (q : Option UUID) (name : Text) : Nat :=
  (placed.filter (fun e => e.2 = q ∧ dirName nfkd conversations e.1 = name)).length

/-- What the plan is when some conversations have been placed. -/
structure Planned (placed : List (UUID × Option UUID)) (plan : Plan) : Prop where
  keys : plan.keys = (placed.map Prod.fst).reverse
  used : forall path, path ∈ plan.used <-> exists a, a ∈ placed.map Prod.fst ∧ plan.dir a = path
  length : plan.used.length = placed.length
  nodup : (placed.map Prod.fst).Nodup
  closed : forall before a p after, placed = before ++ (a, some p) :: after ->
    p ∈ before.map Prod.fst
  path : forall before a q after, placed = before ++ (a, q) :: after ->
    plan.dir a = inDir (baseOf plan q) (dirName nfkd conversations a ++
      exes (sameName nfkd conversations before q (dirName nfkd conversations a)))

variable {nfkd conversations} {placed : List (UUID × Option UUID)} {plan : Plan}

theorem sameName_append (before after : List (UUID × Option UUID)) (q : Option UUID)
    (name : Text) :
    sameName nfkd conversations (before ++ after) q name =
      sameName nfkd conversations before q name + sameName nfkd conversations after q name := by
  unfold sameName
  rw [List.filter_append, List.length_append]

theorem sameName_cons (a : UUID) (q : Option UUID) (after : List (UUID × Option UUID)) :
    sameName nfkd conversations ((a, q) :: after) q (dirName nfkd conversations a) =
      sameName nfkd conversations after q (dirName nfkd conversations a) + 1 := by
  unfold sameName
  rw [List.filter_cons_of_pos (by simp), List.length_cons]

theorem split_cases {α : Type} {before before' after after' : List α} {x y : α}
    (h : before ++ x :: after = before' ++ y :: after') :
    (before = before' ∧ x = y) ∨
      (exists mid, before' = before ++ x :: mid) ∨ exists mid, before = before' ++ y :: mid := by
  rcases List.append_eq_append_iff.mp h with ⟨mid, hbefore, hrest⟩ | ⟨mid, hbefore, hrest⟩
  · cases mid with
    | nil =>
        rw [List.append_nil] at hbefore
        exact Or.inl ⟨hbefore.symm, (List.cons.inj hrest).left⟩
    | cons z mid =>
        rcases List.cons.inj hrest with ⟨rfl, _⟩
        exact Or.inr (Or.inl ⟨mid, hbefore⟩)
  · cases mid with
    | nil =>
        rw [List.append_nil] at hbefore
        exact Or.inl ⟨hbefore, (List.cons.inj hrest).left.symm⟩
    | cons z mid =>
        rcases List.cons.inj hrest with ⟨rfl, _⟩
        exact Or.inr (Or.inr ⟨mid, hbefore⟩)

theorem sameName_inj {before before' after after' : List (UUID × Option UUID)} {a a' : UUID}
    {q : Option UUID} (h : before ++ (a, q) :: after = before' ++ (a', q) :: after')
    (hname : dirName nfkd conversations a = dirName nfkd conversations a')
    (hcount : sameName nfkd conversations before q (dirName nfkd conversations a) =
      sameName nfkd conversations before' q (dirName nfkd conversations a')) : a = a' := by
  rcases split_cases h with ⟨_, heq⟩ | ⟨mid, hmid⟩ | ⟨mid, hmid⟩
  · exact (Prod.mk.inj heq).left
  · rw [hmid, sameName_append, ← hname, sameName_cons] at hcount
    omega
  · rw [hmid, sameName_append, hname, sameName_cons] at hcount
    omega

theorem exists_place {a : UUID} (ha : a ∈ placed.map Prod.fst) :
    exists q before after, placed = before ++ (a, q) :: after := by
  rcases List.mem_map.mp ha with ⟨⟨a', q⟩, hmem, rfl⟩
  rcases List.append_of_mem hmem with ⟨before, after, hplaced⟩
  exact ⟨q, before, after, hplaced⟩

theorem base_ne_top (plan : Plan) (p : UUID) : baseOf plan (some p) ≠ baseOf plan none := by
  intro h
  have hmem : (0x2F : CodePoint) ∈ baseOf plan (some p) := by
    show (0x2F : CodePoint) ∈ plan.dir p ++ text "/branches"
    exact List.mem_append_right _ (by decide)
  rw [h] at hmem
  have hnot : (0x2F : CodePoint) ∉ text "conversations" := by decide
  exact hnot hmem

theorem dir_shorter (h : Planned nfkd conversations placed plan) {a p : UUID}
    {before after : List (UUID × Option UUID)} (hplaced : placed = before ++ (a, some p) :: after) :
    (plan.dir p).length < (plan.dir a).length := by
  rw [h.path before a (some p) after hplaced]
  show _ < (plan.dir p ++ text "/branches" ++ text "/" ++ _).length
  have hbranches : (text "/branches").length = 9 := rfl
  simp only [List.length_append, hbranches]
  omega

/-- Different conversations have different directories. -/
theorem dir_injective (h : Planned nfkd conversations placed plan) {a a' : UUID}
    (ha : a ∈ placed.map Prod.fst) (ha' : a' ∈ placed.map Prod.fst)
    (heq : plan.dir a = plan.dir a') : a = a' := by
  rcases exists_place ha with ⟨q, before, after, hplaced⟩
  rcases exists_place ha' with ⟨q', before', after', hplaced'⟩
  have hpath := h.path before a q after hplaced
  have hpath' := h.path before' a' q' after' hplaced'
  rcases inDir_inj (no_slash (dirName_isName nfkd conversations a) _)
    (no_slash (dirName_isName nfkd conversations a') _) (hpath.symm.trans (heq.trans hpath'))
    with ⟨hbase, hlast⟩
  rcases exes_inj (dirName_isName nfkd conversations a) (dirName_isName nfkd conversations a')
    hlast with ⟨hname, hcount⟩
  have hq : q = q' := by
    cases q with
    | none =>
        cases q' with
        | none => rfl
        | some p' => exact absurd hbase.symm (base_ne_top plan p')
    | some p =>
        cases q' with
        | none => exact absurd hbase (base_ne_top plan p)
        | some p' =>
            have hp := h.closed before a p after hplaced
            have hp' := h.closed before' a' p' after' hplaced'
            have hmem : p ∈ placed.map Prod.fst := by
              rw [hplaced, List.map_append]
              exact List.mem_append_left _ hp
            have hmem' : p' ∈ placed.map Prod.fst := by
              rw [hplaced', List.map_append]
              exact List.mem_append_left _ hp'
            have hshort := dir_shorter h hplaced
            rw [dir_injective h hmem hmem' (List.append_cancel_right hbase)]
  subst hq
  exact sameName_inj (hplaced.symm.trans hplaced') hname hcount
termination_by (plan.dir a).length

theorem exists_nth {q : Option UUID} {name : Text} {k : Nat}
    (hk : k < sameName nfkd conversations placed q name) :
    exists before a after, placed = before ++ (a, q) :: after ∧
      dirName nfkd conversations a = name ∧ sameName nfkd conversations before q name = k := by
  induction placed generalizing k with
  | nil => exact absurd hk (Nat.not_lt_zero k)
  | cons e rest ih =>
      by_cases he : e.2 = q ∧ dirName nfkd conversations e.1 = name
      · have hcons : forall before, sameName nfkd conversations (e :: before) q name =
            sameName nfkd conversations before q name + 1 := by
          intro before
          unfold sameName
          rw [List.filter_cons_of_pos (by simpa using he), List.length_cons]
        cases k with
        | zero =>
            refine ⟨[], e.1, rest, ?_, he.right, rfl⟩
            rw [← he.left]
            rfl
        | succ k =>
            rw [hcons] at hk
            rcases ih (Nat.lt_of_succ_lt_succ hk) with ⟨before, a, after, hrest, hname, hcount⟩
            exact ⟨e :: before, a, after, by rw [hrest]; rfl, hname, by rw [hcons, hcount]⟩
      · have hcons : forall before, sameName nfkd conversations (e :: before) q name =
            sameName nfkd conversations before q name := by
          intro before
          unfold sameName
          rw [List.filter_cons_of_neg (by simpa using he)]
        rw [hcons] at hk
        rcases ih hk with ⟨before, a, after, hrest, hname, hcount⟩
        exact ⟨e :: before, a, after, by rw [hrest]; rfl, hname, by rw [hcons, hcount]⟩

theorem mem_used_iff (h : Planned nfkd conversations placed plan) {q : Option UUID}
    (hq : forall p, q = some p -> p ∈ placed.map Prod.fst) {name : Text} (hname : DirName name)
    (k : Nat) :
    inDir (baseOf plan q) (name ++ exes k) ∈ plan.used <->
      k < sameName nfkd conversations placed q name := by
  rw [h.used]
  constructor
  · rintro ⟨a, ha, hdir⟩
    rcases exists_place ha with ⟨q', before, after, hplaced⟩
    rw [h.path before a q' after hplaced] at hdir
    rcases inDir_inj (no_slash (dirName_isName nfkd conversations a) _) (no_slash hname k) hdir
      with ⟨hbase, hlast⟩
    rcases exes_inj (dirName_isName nfkd conversations a) hname hlast with ⟨hsame, hcount⟩
    have hqq : q' = q := by
      cases q with
      | none =>
          cases q' with
          | none => rfl
          | some p' => exact absurd hbase (base_ne_top plan p')
      | some p =>
          cases q' with
          | none => exact absurd hbase.symm (base_ne_top plan p)
          | some p' =>
              have hp' := h.closed before a p' after hplaced
              have hmem' : p' ∈ placed.map Prod.fst := by
                rw [hplaced, List.map_append]
                exact List.mem_append_left _ hp'
              rw [dir_injective h hmem' (hq p rfl) (List.append_cancel_right hbase)]
    subst hqq hsame
    rw [hplaced, sameName_append, sameName_cons]
    omega
  · intro hk
    rcases exists_nth hk with ⟨before, a, after, hplaced, hsame, hcount⟩
    have hmem : a ∈ placed.map Prod.fst := by
      rw [hplaced, List.map_append, List.map_cons]
      exact List.mem_append_right _ List.mem_cons_self
    refine ⟨a, hmem, ?_⟩
    rw [h.path before a q after hplaced, hsame, hcount]

theorem planned_empty (nfkd : Text -> Text) (conversations : List ExportConversation) :
    Planned nfkd conversations [] .empty := by
  refine ⟨rfl, ?_, rfl, List.nodup_nil, ?_, ?_⟩
  · intro path
    constructor
    · intro hmem
      exact absurd hmem List.not_mem_nil
    · rintro ⟨a, ha, _⟩
      exact absurd ha List.not_mem_nil
  · intro before a p after h
    exact absurd h.symm (List.append_ne_nil_of_right_ne_nil _ (List.cons_ne_nil _ _))
  · intro before a q after h
    exact absurd h.symm (List.append_ne_nil_of_right_ne_nil _ (List.cons_ne_nil _ _))

theorem split_concat {α : Type} {l before after : List α} {x y : α}
    (h : l ++ [x] = before ++ y :: after) :
    (before = l ∧ y = x) ∨ exists after', l = before ++ y :: after' := by
  rcases split_cases h with ⟨hbefore, heq⟩ | ⟨mid, hmid⟩ | ⟨mid, hmid⟩
  · exact Or.inl ⟨hbefore.symm, heq.symm⟩
  · have hlength := congrArg List.length h
    rw [hmid] at hlength
    simp only [List.length_append, List.length_cons, List.length_nil] at hlength
    omega
  · exact Or.inr ⟨mid, hmid⟩

theorem dir_next (h : Planned nfkd conversations placed plan) {a : UUID} {q : Option UUID}
    (hq : forall p, q = some p -> p ∈ placed.map Prod.fst) :
    (addOne nfkd conversations plan (a, q)).dir a =
      inDir (baseOf plan q) (dirName nfkd conversations a ++
        exes (sameName nfkd conversations placed q (dirName nfkd conversations a))) := by
  have hname := dirName_isName nfkd conversations a
  have hle : sameName nfkd conversations placed q (dirName nfkd conversations a) ≤
      plan.used.length := by
    rw [h.length]
    exact List.length_filter_le _ _
  have hfresh := freshPath_eq (j := 0)
    (fun k hk => (mem_used_iff h hq hname k).mpr hk)
    (fun hmem => Nat.lt_irrefl _ ((mem_used_iff h hq hname _).mp hmem)) plan.used.length
    (Nat.zero_le _) (by omega)
  rw [show dirName nfkd conversations a ++ exes 0 = dirName nfkd conversations a from
    List.append_nil _] at hfresh
  unfold addOne
  rw [Plan.dir_add_self]
  exact hfresh

theorem planned_step (h : Planned nfkd conversations placed plan) {a : UUID} {q : Option UUID}
    (hnew : a ∉ placed.map Prod.fst) (hq : forall p, q = some p -> p ∈ placed.map Prod.fst) :
    Planned nfkd conversations (placed ++ [(a, q)]) (addOne nfkd conversations plan (a, q)) := by
  have hdir := dir_next (a := a) h hq
  have hold : forall {p}, p ∈ placed.map Prod.fst ->
      (addOne nfkd conversations plan (a, q)).dir p = plan.dir p := by
    intro p hp
    apply Plan.dir_add_of_ne
    rintro rfl
    exact hnew hp
  have hbase : forall {q' : Option UUID}, (forall p, q' = some p -> p ∈ placed.map Prod.fst) ->
      baseOf (addOne nfkd conversations plan (a, q)) q' = baseOf plan q' := by
    intro q' hq'
    cases q' with
    | none => rfl
    | some p =>
        show (addOne nfkd conversations plan (a, q)).dir p ++ _ = plan.dir p ++ _
        rw [hold (hq' p rfl)]
  have hbefore : forall {before b p after}, placed = before ++ (b, some p) :: after ->
      p ∈ placed.map Prod.fst := by
    intro before b p after hplaced
    have hp := h.closed before b p after hplaced
    rw [hplaced, List.map_append]
    exact List.mem_append_left _ hp
  refine ⟨?_, ?_, ?_, ?_, ?_, ?_⟩
  · show a :: plan.keys = _
    rw [h.keys, List.map_append, List.reverse_append]
    rfl
  · intro path
    have hmem : path ∈ (addOne nfkd conversations plan (a, q)).used <->
        path = (addOne nfkd conversations plan (a, q)).dir a ∨ path ∈ plan.used := by
      unfold addOne
      rw [Plan.dir_add_self]
      exact List.mem_cons
    rw [hmem, h.used, List.map_append]
    constructor
    · rintro (rfl | ⟨b, hb, rfl⟩)
      · exact ⟨a, List.mem_append_right _ (List.mem_singleton_self a), rfl⟩
      · exact ⟨b, List.mem_append_left _ hb, hold hb⟩
    · rintro ⟨b, hb, rfl⟩
      rcases List.mem_append.mp hb with hb | hb
      · exact Or.inr ⟨b, hb, (hold hb).symm⟩
      · rw [List.mem_singleton.mp hb]
        exact Or.inl rfl
  · show (plan.used.length + 1) = _
    rw [h.length, List.length_append, List.length_singleton]
  · rw [List.map_append, List.map_singleton]
    exact List.nodup_append.mpr ⟨h.nodup, List.nodup_singleton a, by
      intro b hb c hc
      rw [List.mem_singleton.mp hc]
      rintro rfl
      exact hnew hb⟩
  · intro before b p after hsplit
    rcases split_concat hsplit with ⟨rfl, heq⟩ | ⟨after', hplaced⟩
    · exact hq p (Prod.mk.inj heq).right.symm
    · exact h.closed before b p after' hplaced
  · intro before b q' after hsplit
    rcases split_concat hsplit with ⟨rfl, heq⟩ | ⟨after', hplaced⟩
    · cases heq
      rw [hbase hq]
      exact hdir
    · have hb : b ∈ placed.map Prod.fst := by
        rw [hplaced, List.map_append, List.map_cons]
        exact List.mem_append_right _ List.mem_cons_self
      rw [hold hb, hbase, h.path before b q' after' hplaced]
      rintro p rfl
      exact hbefore hplaced

theorem planned_walk {out : List (UUID × Option UUID)} (hnodup : (out.map Prod.fst).Nodup)
    (hclosed : forall before a p after, out = before ++ (a, some p) :: after ->
      p ∈ before.map Prod.fst) :
    Planned nfkd conversations out (out.foldl (addOne nfkd conversations) .empty) := by
  induction out using List.reverseRecOn with
  | nil => exact planned_empty nfkd conversations
  | append_singleton out e ih =>
      rcases e with ⟨a, q⟩
      rw [List.map_append, List.map_singleton] at hnodup
      have hparts := List.nodup_append.mp hnodup
      have hplanned := ih hparts.left (fun before b p after hsplit =>
        hclosed before b p (after ++ [(a, q)]) (by rw [hsplit]; simp))
      rw [List.foldl_append]
      apply planned_step hplanned
      · intro hmem
        exact hparts.right.right a hmem a (List.mem_singleton_self a) rfl
      · rintro p rfl
        exact hclosed out a p [] rfl

end Dirs

end ExportArchive
end ConversationService
