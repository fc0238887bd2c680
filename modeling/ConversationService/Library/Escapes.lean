import Mathlib.Data.List.DropRight

/-!
# Text put into a template

A text is made of a template and of what is put into it, whose special characters are escaped.
Each character is marked with where it comes from. As long as what is put in is escaped to its
end, the structure of the text is that of the template.
-/

namespace ConversationService
namespace Escapes

/-- Where a character of a text comes from. -/
inductive Origin where
  | template
  | title
  /-- put in front of a character of a title -/
  | escape
deriving DecidableEq, Repr

/-- The characters of a markup language that matter. -/
structure Markup (α : Type) where
  esc : α
  /-- what an escape in front takes the meaning from -/
  escapable : α -> Bool
  /-- what has a meaning -/
  special : α -> Bool
  lineEnd : α -> Bool
  special_esc : special esc = true
  escapable_of_special : forall c, special c = true -> escapable c = true
  not_escapable_lineEnd : forall c, lineEnd c = true -> escapable c = false

abbrev Marked (α : Type) : Type := List (α × Origin)

section Marks

variable {α : Type} [DecidableEq α]

def text (m : Marked α) : List α := m.map Prod.fst

def template (s : List α) : Marked α := s.map (fun c => (c, .template))

/-- What is left without the titles. -/
def outline (m : Marked α) : List α := text (m.filter (fun c => c.2 = .template))

variable (k : Markup α)

/-- An escape is open behind a character. -/
def opens (pending : Bool) (c : α) : Bool :=
  !(pending && k.escapable c) && c = k.esc

/-- The structure of a text: its line ends, and the special characters that are not escaped. -/
def scan : Bool -> List α -> List α
  | _, [] => []
  | pending, c :: rest =>
      if pending && k.escapable c then scan false rest
      else if c = k.esc then scan true rest
      else if k.special c || k.lineEnd c then c :: scan false rest
      else scan false rest

/--
The titles in a text are escaped: a character of a title is neither special nor a line end, or
there is an escape for it, and no escape of the template is open before it.
-/
inductive Neutral : Bool -> Marked α -> Prop where
  | nil {pending : Bool} : Neutral pending []
  | template {pending : Bool} {c : α} {rest : Marked α} (more : Neutral (opens k pending c) rest) :
      Neutral pending ((c, .template) :: rest)
  | plain {c : α} {rest : Marked α} (special : k.special c = false)
      (lineEnd : k.lineEnd c = false) (more : Neutral false rest) :
      Neutral false ((c, .title) :: rest)
  | escaped {c : α} {rest : Marked α} (special : k.special c = true)
      (more : Neutral false rest) : Neutral false ((k.esc, .escape) :: (c, .title) :: rest)

/-- What is said of a text with titles in it. -/
structure KeepsStructure (m : Marked α) : Prop where
  /-- a title stays on its line -/
  oneLine : forall c, (c, Origin.title) ∈ m -> k.lineEnd c = false
  /-- a special character of a title has an escape in front of it -/
  escaped : forall front c back, m = front ++ (c, Origin.title) :: back -> k.special c = true ->
    exists front', front = front' ++ [(k.esc, Origin.escape)]
  /-- an escape is followed by a special character of a title -/
  closed : forall front e back, m = front ++ (e, Origin.escape) :: back ->
    e = k.esc ∧ exists c back', back = (c, Origin.title) :: back' ∧ k.special c = true
  structure_eq : scan k false (text m) = scan k false (outline m)

end Marks

/-!
# Texts put together
-/

section Append

variable {α : Type}

theorem text_append (x y : Marked α) : text (x ++ y) = text x ++ text y :=
  List.map_append

theorem text_template (s : List α) : text (template s) = s := by
  unfold text template
  rw [List.map_map]
  exact List.map_id s

theorem template_append (s t : List α) : template (s ++ t) = template s ++ template t :=
  List.map_append

end Append

section Neutral

variable {α : Type} [DecidableEq α] {k : Markup α}

theorem opens_of_ne {c : α} (h : c ≠ k.esc) (pending : Bool) : opens k pending c = false := by
  unfold opens
  rw [decide_eq_false h, Bool.and_false]

theorem neutral_template (pending : Bool) (s : List α) : Neutral k pending (template s) := by
  induction s generalizing pending with
  | nil => exact .nil
  | cons c s ih => exact .template (ih (opens k pending c))

theorem neutral_append {pending : Bool} {x y : Marked α} (hx : Neutral k pending x)
    (hy : forall pending, Neutral k pending y) : Neutral k pending (x ++ y) := by
  induction hx with
  | nil => exact hy _
  | template _ ih => exact .template ih
  | plain hspecial hline _ ih => exact .plain hspecial hline ih
  | escaped hspecial _ ih => exact .escaped hspecial ih

theorem neutral_behind {s : List α} {c : α} {y : Marked α} (hs : s.getLast? = some c)
    (hc : c ≠ k.esc) (hy : Neutral k false y) (pending : Bool) :
    Neutral k pending (template s ++ y) := by
  rcases List.getLast?_eq_some_iff.mp hs with ⟨front, rfl⟩
  clear hs
  induction front generalizing pending with
  | nil =>
      apply Neutral.template
      rw [opens_of_ne hc]
      exact hy
  | cons d front ih => exact .template (ih (opens k pending d))

/-!
# Trimmed texts
-/

theorem neutral_dropWhile {p : α × Origin -> Bool} {pending : Bool} {x : Marked α}
    (hp : forall o, p (k.esc, o) = false) (hx : Neutral k pending x) (hpending : pending = false) :
    Neutral k false (x.dropWhile p) := by
  induction hx with
  | nil => exact .nil
  | @template pending c rest hrest ih =>
      subst hpending
      by_cases hc : p (c, .template) = true
      · have hne : c ≠ k.esc := by
          rintro rfl
          rw [hp] at hc
          cases hc
        rw [List.dropWhile_cons_of_pos hc]
        exact ih (opens_of_ne hne false)
      · rw [List.dropWhile_cons_of_neg hc]
        exact .template hrest
  | @plain c rest hspecial hline hrest ih =>
      by_cases hc : p (c, .title) = true
      · rw [List.dropWhile_cons_of_pos hc]
        exact ih rfl
      · rw [List.dropWhile_cons_of_neg hc]
        exact .plain hspecial hline hrest
  | escaped hspecial hrest _ =>
      rw [List.dropWhile_cons_of_neg (by rw [hp]; exact Bool.false_ne_true)]
      exact .escaped hspecial hrest

theorem neutral_front {pending : Bool} {x y : Marked α} (h : Neutral k pending (x ++ y))
    (hy : forall c rest, y = (c, .title) :: rest -> k.special c = false) :
    Neutral k pending x := by
  generalize hxy : x ++ y = z at h
  induction h generalizing x with
  | nil =>
      rw [(List.append_eq_nil_iff.mp hxy).left]
      exact .nil
  | template _ ih =>
      cases x with
      | nil => exact .nil
      | cons a x =>
          rcases List.cons.inj hxy with ⟨rfl, hrest⟩
          exact .template (ih hrest)
  | plain hspecial hline _ ih =>
      cases x with
      | nil => exact .nil
      | cons a x =>
          rcases List.cons.inj hxy with ⟨rfl, hrest⟩
          exact .plain hspecial hline (ih hrest)
  | @escaped c rest hspecial _ ih =>
      cases x with
      | nil => exact .nil
      | cons a x =>
          rcases List.cons.inj hxy with ⟨rfl, hrest⟩
          cases x with
          | nil =>
              have hplain := hy c rest hrest
              rw [hspecial] at hplain
              cases hplain
          | cons b x =>
              rcases List.cons.inj hrest with ⟨rfl, htail⟩
              exact .escaped hspecial (ih htail)

theorem neutral_rdropWhile {p : α × Origin -> Bool} {pending : Bool} {x : Marked α}
    (hp : forall c o, k.special c = true -> p (c, o) = false) (hx : Neutral k pending x) :
    Neutral k pending (x.rdropWhile p) := by
  have hsplit : x.rdropWhile p ++ x.rtakeWhile p = x := List.rdropWhile_append_rtakeWhile
  rw [← hsplit] at hx
  apply neutral_front hx
  intro c rest hback
  have hmem : (c, Origin.title) ∈ x.rtakeWhile p := by
    rw [hback]
    exact List.mem_cons_self
  have hdropped := List.mem_rtakeWhile_imp hmem
  cases hspecial : k.special c with
  | false => rfl
  | true =>
      rw [hp c .title hspecial] at hdropped
      cases hdropped

/-!
# The structure of a neutral text
-/

theorem scan_neutral {pending : Bool} {m : Marked α} (h : Neutral k pending m) :
    scan k pending (text m) = scan k pending (outline m) := by
  induction h with
  | nil => rfl
  | @template pending c rest hrest ih =>
      have hrest : scan k (opens k pending c) (text rest) =
          scan k (opens k pending c) (outline rest) := ih
      have hkept : outline ((c, Origin.template) :: rest) = c :: outline rest := rfl
      rw [hkept]
      show scan k pending (c :: text rest) = _
      rw [scan, scan]
      unfold opens at hrest
      by_cases hcovered : (pending && k.escapable c) = true
      · rw [if_pos hcovered, if_pos hcovered]
        rw [hcovered] at hrest
        exact hrest
      · rw [if_neg hcovered, if_neg hcovered]
        rw [Bool.not_eq_true] at hcovered
        rw [hcovered, Bool.not_false, Bool.true_and] at hrest
        by_cases hesc : c = k.esc
        · rw [if_pos hesc, if_pos hesc]
          rw [decide_eq_true hesc] at hrest
          exact hrest
        · rw [if_neg hesc, if_neg hesc]
          rw [decide_eq_false hesc] at hrest
          rw [hrest]
  | @plain c rest hspecial hline hrest ih =>
      have hne : c ≠ k.esc := by
        rintro rfl
        rw [k.special_esc] at hspecial
        cases hspecial
      have hkept : outline ((c, Origin.title) :: rest) = outline rest := rfl
      rw [hkept, ← ih]
      show scan k false (c :: text rest) = _
      rw [scan, Bool.false_and, if_neg Bool.false_ne_true, if_neg hne, hspecial, hline,
        Bool.or_false, if_neg Bool.false_ne_true]
  | @escaped c rest hspecial hrest ih =>
      have hkept : outline ((k.esc, Origin.escape) :: (c, Origin.title) :: rest) =
          outline rest := rfl
      rw [hkept, ← ih]
      show scan k false (k.esc :: c :: text rest) = _
      rw [scan, Bool.false_and, if_neg Bool.false_ne_true, if_pos rfl, scan,
        k.escapable_of_special c hspecial, Bool.and_true, if_pos rfl]

theorem escaped_of_neutral {pending : Bool} {m : Marked α} (h : Neutral k pending m)
    {front back : Marked α} {c : α} (hm : m = front ++ (c, .title) :: back)
    (hspecial : k.special c = true) : exists front', front = front' ++ [(k.esc, .escape)] := by
  induction h generalizing front with
  | nil => cases (List.append_eq_nil_iff.mp hm.symm).right
  | template _ ih =>
      cases front with
      | nil => cases (List.cons.inj hm).left
      | cons a front =>
          rcases ih (List.cons.inj hm).right with ⟨front', rfl⟩
          exact ⟨a :: front', rfl⟩
  | plain hplain _ _ ih =>
      cases front with
      | nil =>
          cases (List.cons.inj hm).left
          rw [hspecial] at hplain
          cases hplain
      | cons a front =>
          rcases ih (List.cons.inj hm).right with ⟨front', rfl⟩
          exact ⟨a :: front', rfl⟩
  | escaped _ _ ih =>
      cases front with
      | nil => cases (List.cons.inj hm).left
      | cons a front =>
          rcases List.cons.inj hm with ⟨rfl, hrest⟩
          cases front with
          | nil => exact ⟨[], rfl⟩
          | cons b front =>
              rcases ih (List.cons.inj hrest).right with ⟨front', rfl⟩
              exact ⟨(k.esc, .escape) :: b :: front', rfl⟩

theorem closed_of_neutral {pending : Bool} {m : Marked α} (h : Neutral k pending m)
    {front back : Marked α} {e : α} (hm : m = front ++ (e, .escape) :: back) :
    e = k.esc ∧ exists c back', back = (c, .title) :: back' ∧ k.special c = true := by
  induction h generalizing front with
  | nil => cases (List.append_eq_nil_iff.mp hm.symm).right
  | template _ ih =>
      cases front with
      | nil => cases (List.cons.inj hm).left
      | cons a front => exact ih (List.cons.inj hm).right
  | plain _ _ _ ih =>
      cases front with
      | nil => cases (List.cons.inj hm).left
      | cons a front => exact ih (List.cons.inj hm).right
  | escaped hspecial _ ih =>
      cases front with
      | nil =>
          rcases List.cons.inj hm with ⟨heq, rfl⟩
          cases heq
          exact ⟨rfl, _, _, rfl, hspecial⟩
      | cons a front =>
          rcases List.cons.inj hm with ⟨rfl, hrest⟩
          cases front with
          | nil => cases (List.cons.inj hrest).left
          | cons b front => exact ih (List.cons.inj hrest).right

theorem oneLine_of_neutral {pending : Bool} {m : Marked α} (h : Neutral k pending m) {c : α}
    (hc : (c, Origin.title) ∈ m) : k.lineEnd c = false := by
  induction h with
  | nil => cases hc
  | template _ ih =>
      rcases List.mem_cons.mp hc with heq | hc
      · cases heq
      · exact ih hc
  | plain _ hline _ ih =>
      rcases List.mem_cons.mp hc with heq | hc
      · cases heq
        exact hline
      · exact ih hc
  | @escaped d rest hspecial _ ih =>
      rcases List.mem_cons.mp hc with heq | hc
      · cases heq
      rcases List.mem_cons.mp hc with heq | hc
      · cases heq
        cases hline : k.lineEnd c with
        | false => rfl
        | true =>
            have hnot := k.not_escapable_lineEnd c hline
            rw [k.escapable_of_special c hspecial] at hnot
            cases hnot
      · exact ih hc

/-- Titles that are escaped leave the structure of the text as it is. -/
theorem keepsStructure_of_neutral {m : Marked α} (h : Neutral k false m) :
    KeepsStructure k m where
  oneLine := fun _ hc => oneLine_of_neutral h hc
  escaped := fun _ _ _ hm hspecial => escaped_of_neutral h hm hspecial
  closed := fun _ _ _ hm => closed_of_neutral h hm
  structure_eq := scan_neutral h

end Neutral

end Escapes
end ConversationService
