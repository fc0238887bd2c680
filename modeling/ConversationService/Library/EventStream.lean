import Mathlib.Data.List.Basic

/-!
# Event streams

The text of server-sent events, and what a client reads of it. A line ends with a line
feed, with a carriage return or with both. A line is a field or a comment, and an empty
one hands over the event that the fields before it have built up. What a client has been
handed does not depend on how the text is cut into pieces, and where a text of comments and
events breaks off, the client has a prefix of the events and the id of the last of them.
The byte order mark that a text may start with is left out.
-/

namespace ConversationService
namespace EventStream

variable {χ : Type}

/-- The characters that separate the parts of a text, and the names of its fields. -/
structure Format (χ : Type) where
  lf : χ
  cr : χ
  colon : χ
  space : χ
  nul : χ
  data : List χ
  id : List χ
  event : List χ
  /-- a comment and the value of a field stay on their line -/
  colonInLine : colon ≠ lf ∧ colon ≠ cr
  spaceInLine : space ≠ lf ∧ space ≠ cr
  dataName : data ≠ [] ∧ forall c, c ∈ data -> c ≠ lf ∧ c ≠ cr ∧ c ≠ colon
  idName : id ≠ [] ∧ forall c, c ∈ id -> c ≠ lf ∧ c ≠ cr ∧ c ≠ colon
  names : data ≠ id

/-- The text stays on its line. -/
def InLine (f : Format χ) (s : List χ) : Prop :=
  forall c, c ∈ s -> c ≠ f.lf ∧ c ≠ f.cr

theorem InLine.of_prefix {s t : List χ} (ht : InLine f t) (h : s <+: t) : InLine f s :=
  fun c hc => ht c (h.subset hc)

theorem prefix_of_append {s t u : List χ} (h : u <+: s ++ t) :
    u <+: s ∨ exists v, u = s ++ v ∧ v <+: t := by
  rcases List.prefix_or_prefix_of_prefix h (List.prefix_append s t) with hshort | hlong
  · exact Or.inl hshort
  · rcases hlong with ⟨v, rfl⟩
    exact Or.inr ⟨v, rfl, (List.prefix_append_right_inj s).mp h⟩

/-- An event as it is handed over. -/
structure Event (χ : Type) where
  type : List χ
  data : List χ
  lastId : List χ

/-- The unfinished line of a client, and the fields of the unfinished event. -/
structure Client (χ : Type) where
  line : List χ
  afterCr : Bool
  data : List χ
  type : List χ
  id : List χ
  /-- the id that the client names when it connects again -/
  lastId : List χ

namespace Client

/-- A client at the start of a line, with nothing of an event. -/
def idle (lastId : List χ) : Client χ := ⟨[], false, [], [], lastId, lastId⟩

variable [DecidableEq χ]

def field (f : Format χ) (k : Client χ) (name value : List χ) : Client χ :=
  if name = f.data then { k with data := k.data ++ value ++ [f.lf] }
  else if name = f.id then (if f.nul ∈ value then k else { k with id := value })
  else if name = f.event then { k with type := value }
  else k

/-- The value of a field, behind the colon and one space. -/
def valueOf (f : Format χ) (behind : List χ) : List χ :=
  if behind.head? = some f.space then behind.tail else behind

/-- The event that an empty line hands over, if there is one. -/
def dispatch (k : Client χ) : Client χ × Option (Event χ) :=
  if k.data = [] then ({ k with type := [], lastId := k.id }, none)
  else
    ({ k with data := [], type := [], lastId := k.id },
      some ⟨k.type, k.data.dropLast, k.id⟩)

/-- The line has ended. -/
def endLine (f : Format χ) (k : Client χ) : Client χ × Option (Event χ) :=
  let next : Client χ := { k with line := [], afterCr := false }
  if k.line = [] then next.dispatch
  else if k.line.head? = some f.colon then (next, none)
  else
    (next.field f (k.line.takeWhile (fun c => c ≠ f.colon))
      (valueOf f (k.line.dropWhile (fun c => c ≠ f.colon)).tail), none)

def step (f : Format χ) (k : Client χ) (c : χ) : Client χ × Option (Event χ) :=
  if c = f.lf then
    if k.afterCr then ({ k with afterCr := false }, none) else k.endLine f
  else if c = f.cr then ({ (k.endLine f).1 with afterCr := true }, (k.endLine f).2)
  else ({ k with line := k.line ++ [c], afterCr := false }, none)

/-- A piece of the text is read. -/
def read (f : Format χ) : Client χ -> List χ -> Client χ × List (Event χ)
  | k, [] => (k, [])
  | k, c :: rest =>
      ((read f (k.step f c).1 rest).1, (k.step f c).2.toList ++ (read f (k.step f c).1 rest).2)

variable {f : Format χ}

theorem read_cons (k : Client χ) (c : χ) (rest : List χ) :
    read f k (c :: rest) =
      ((read f (k.step f c).1 rest).1,
        (k.step f c).2.toList ++ (read f (k.step f c).1 rest).2) := rfl

theorem read_append (k : Client χ) (s t : List χ) :
    read f k (s ++ t) =
      ((read f (read f k s).1 t).1, (read f k s).2 ++ (read f (read f k s).1 t).2) := by
  induction s generalizing k with
  | nil => rfl
  | cons c rest ih => rw [List.cons_append, read_cons, ih, read_cons, List.append_assoc]

/-- The pieces of a text are read one after the other. -/
def readPieces (f : Format χ) : Client χ -> List (List χ) -> Client χ × List (Event χ)
  | k, [] => (k, [])
  | k, piece :: rest =>
      ((readPieces f (read f k piece).1 rest).1,
        (read f k piece).2 ++ (readPieces f (read f k piece).1 rest).2)

/-- How a text is cut does not matter. -/
theorem readPieces_eq (k : Client χ) (pieces : List (List χ)) :
    readPieces f k pieces = read f k pieces.flatten := by
  induction pieces generalizing k with
  | nil => rfl
  | cons piece rest ih =>
      show ((readPieces f (read f k piece).1 rest).1,
        (read f k piece).2 ++ (readPieces f (read f k piece).1 rest).2) = _
      rw [ih, List.flatten_cons, read_append]

/-!
# Lines
-/

theorem read_inLine {k : Client χ} (hcr : k.afterCr = false) {s : List χ}
    (hs : InLine f s) : read f k s = ({ k with line := k.line ++ s }, []) := by
  induction s generalizing k with
  | nil =>
      rw [List.append_nil]
      rfl
  | cons c rest ih =>
      rcases hs c List.mem_cons_self with ⟨hlf, hcr'⟩
      have hstep : k.step f c = ({ k with line := k.line ++ [c], afterCr := false }, none) := by
        unfold step
        rw [if_neg hlf, if_neg hcr']
      rw [read_cons, hstep, ih rfl (fun d hd => hs d (List.mem_cons_of_mem c hd))]
      dsimp only
      rw [List.append_assoc, <- hcr]
      rfl

theorem read_line {k : Client χ} (hcr : k.afterCr = false) {s : List χ} (hs : InLine f s)
    (rest : List χ) :
    read f k (s ++ f.lf :: rest) =
      ((read f (endLine f { k with line := k.line ++ s }).1 rest).1,
        (endLine f { k with line := k.line ++ s }).2.toList ++
          (read f (endLine f { k with line := k.line ++ s }).1 rest).2) := by
  have hstep : step f { k with line := k.line ++ s } f.lf =
      endLine f { k with line := k.line ++ s } := by
    unfold step
    rw [if_pos rfl, hcr]
    rfl
  rw [read_append, read_inLine hcr hs, read_cons, hstep]
  rfl

theorem endLine_comment {k : Client χ} {s : List χ} (h : k.line = f.colon :: s) :
    k.endLine f = ({ k with line := [], afterCr := false }, none) := by
  unfold endLine
  rw [h]
  dsimp only
  rw [if_neg (List.cons_ne_nil _ _), List.head?_cons, if_pos rfl]

theorem endLine_field {k : Client χ} {name value : List χ} (hname : name ≠ [])
    (hcolon : forall c, c ∈ name -> c ≠ f.colon)
    (h : k.line = name ++ f.colon :: f.space :: value) :
    k.endLine f = (field f { k with line := [], afterCr := false } name value, none) := by
  have hall : forall c, c ∈ name -> decide (c ≠ f.colon) = true :=
    fun c hc => decide_eq_true (hcolon c hc)
  have hstop : decide (f.colon ≠ f.colon) = false := decide_eq_false (fun hne => hne rfl)
  have htake : (name ++ f.colon :: f.space :: value).takeWhile (fun c => c ≠ f.colon) =
      name := by
    rw [List.takeWhile_append_of_pos hall, List.takeWhile_cons_of_neg (by simp)]
    exact List.append_nil name
  have hdrop : (name ++ f.colon :: f.space :: value).dropWhile (fun c => c ≠ f.colon) =
      f.colon :: f.space :: value := by
    rw [List.dropWhile_append_of_pos hall, List.dropWhile_cons_of_neg (by simp)]
  have hhead : (name ++ f.colon :: f.space :: value).head? ≠ some f.colon := by
    cases name with
    | nil => exact absurd rfl hname
    | cons c rest => exact fun heq => hcolon c List.mem_cons_self (Option.some.inj heq)
  unfold endLine
  rw [h]
  dsimp only
  rw [if_neg (by simp), if_neg hhead, htake, hdrop, List.tail_cons]
  unfold valueOf
  rw [List.head?_cons, if_pos rfl, List.tail_cons]

theorem endLine_nonempty {k : Client χ} (h : k.line ≠ []) :
    (k.endLine f).2 = none ∧ (k.endLine f).1.lastId = k.lastId ∧
      (k.endLine f).1.line = [] ∧ (k.endLine f).1.afterCr = false := by
  unfold endLine
  dsimp only
  rw [if_neg h]
  split
  · exact ⟨rfl, rfl, rfl, rfl⟩
  · unfold field
    repeat' split
    all_goals exact ⟨rfl, rfl, rfl, rfl⟩

theorem read_lines {lines : List (List χ)}
    (hlines : forall l, l ∈ lines -> l ≠ [] ∧ InLine f l) {k : Client χ} (hline : k.line = [])
    (hcr : k.afterCr = false) {t : List χ}
    (ht : t <+: lines.flatMap (fun l => l ++ [f.lf])) :
    (read f k t).2 = [] ∧ (read f k t).1.lastId = k.lastId := by
  induction lines generalizing k t with
  | nil =>
      rw [List.flatMap_nil, List.prefix_nil] at ht
      rw [ht]
      exact ⟨rfl, rfl⟩
  | cons l lines ih =>
      rcases hlines l List.mem_cons_self with ⟨hne, hin⟩
      rw [List.flatMap_cons, List.append_assoc] at ht
      rcases prefix_of_append ht with hpart | ⟨more, rfl, hmore⟩
      · rw [read_inLine hcr (hin.of_prefix hpart)]
        exact ⟨rfl, rfl⟩
      · rcases List.prefix_cons_iff.mp hmore with rfl | ⟨rest, rfl, hrest⟩
        · rw [List.append_nil, read_inLine hcr hin]
          exact ⟨rfl, rfl⟩
        · have hended := endLine_nonempty (f := f)
            (show ({ k with line := k.line ++ l } : Client χ).line ≠ [] by
              rw [hline]
              exact hne)
          rcases hended with ⟨hnone, hlast, hempty, hno⟩
          rcases ih (fun l' hl' => hlines l' (List.mem_cons_of_mem l hl')) hempty hno hrest with
            ⟨hevents, hid⟩
          rw [read_line hcr hin, hnone]
          exact ⟨hevents, hid.trans hlast⟩

end Client

/-!
# Comments and events
-/

/-- What a server writes: a comment, or an event with its data on one line. -/
inductive Block (χ : Type) where
  | comment (text : List χ)
  | message (id : Option (List χ)) (data : List χ)

namespace Block

variable {f : Format χ}

def fieldLine (f : Format χ) (name value : List χ) : List χ :=
  name ++ f.colon :: f.space :: value

/-- The lines of a block; an empty one follows them. -/
def lines (f : Format χ) : Block χ -> List (List χ)
  | .comment text => [f.colon :: text]
  | .message id data =>
      (id.map (fieldLine f f.id)).toList ++ [fieldLine f f.data data]

def text (f : Format χ) (b : Block χ) : List χ :=
  (b.lines f).flatMap (fun l => l ++ [f.lf]) ++ [f.lf]

/-- The parts of a block stay on their lines, and the id can be kept. -/
def Clean (f : Format χ) : Block χ -> Prop
  | .comment text => InLine f text
  | .message id data =>
      InLine f data ∧ forall value, id = some value -> InLine f value ∧ f.nul ∉ value

/-- The id that a client keeps behind the block. -/
def idAfter (lastId : List χ) : Block χ -> List χ
  | .comment _ => lastId
  | .message id _ => id.getD lastId

/-- The event of a block. -/
def event? (lastId : List χ) : Block χ -> Option (Event χ)
  | .comment _ => none
  | .message id data => some ⟨[], data, id.getD lastId⟩

theorem inLine_fieldLine {name value : List χ}
    (hname : forall c, c ∈ name -> c ≠ f.lf ∧ c ≠ f.cr ∧ c ≠ f.colon) (hvalue : InLine f value) :
    InLine f (fieldLine f name value) := by
  intro c hc
  rcases List.mem_append.mp hc with h | h
  · exact ⟨(hname c h).left, (hname c h).right.left⟩
  · rcases List.mem_cons.mp h with rfl | h
    · exact f.colonInLine
    · rcases List.mem_cons.mp h with rfl | h
      · exact f.spaceInLine
      · exact hvalue c h

theorem lines_inLine {b : Block χ} (h : b.Clean f) :
    forall l, l ∈ b.lines f -> l ≠ [] ∧ InLine f l := by
  intro l hl
  cases b with
  | comment text =>
      rw [List.mem_singleton.mp hl]
      refine ⟨List.cons_ne_nil _ _, ?_⟩
      intro c hc
      rcases List.mem_cons.mp hc with rfl | hc
      · exact f.colonInLine
      · exact h c hc
  | message id data =>
      have hne : forall name value : List χ, fieldLine f name value ≠ [] := by
        intro name value
        unfold fieldLine
        simp
      rcases List.mem_append.mp hl with hid | hdata
      · rcases Option.mem_toList.mp hid with hsome
        rcases Option.map_eq_some_iff.mp hsome with ⟨value, hvalue, rfl⟩
        exact ⟨hne _ _, inLine_fieldLine f.idName.right (h.right value hvalue).left⟩
      · rw [List.mem_singleton.mp hdata]
        exact ⟨hne _ _, inLine_fieldLine f.dataName.right h.left⟩

variable [DecidableEq χ]

open Client

theorem read_empty {k : Client χ} (hline : k.line = []) (hcr : k.afterCr = false)
    (rest : List χ) :
    read f k (f.lf :: rest) =
      ((read f (dispatch { k with line := [], afterCr := false }).1 rest).1,
        (dispatch { k with line := [], afterCr := false }).2.toList ++
          (read f (dispatch { k with line := [], afterCr := false }).1 rest).2) := by
  have hstep : k.step f f.lf = dispatch { k with line := [], afterCr := false } := by
    unfold step endLine
    rw [if_pos rfl, hcr, if_neg Bool.false_ne_true, if_pos hline]
  rw [read_cons, hstep]

theorem read_data {data id lastId : List χ} (hdata : InLine f data) :
    read f ⟨[], false, [], [], id, lastId⟩ (fieldLine f f.data data ++ [f.lf] ++ [f.lf]) =
      (idle id, [⟨[], data, id⟩]) := by
  rw [List.append_assoc]
  show read f _ (fieldLine f f.data data ++ f.lf :: [f.lf]) = _
  rw [read_line rfl (inLine_fieldLine f.dataName.right hdata),
    endLine_field f.dataName.left (fun c hc => (f.dataName.right c hc).right.right) rfl]
  unfold field
  dsimp only
  rw [if_pos rfl, read_empty rfl rfl]
  unfold dispatch
  dsimp only
  rw [if_neg (by simp), List.nil_append, List.dropLast_concat]
  rfl

theorem read_text {b : Block χ} (h : b.Clean f) (lastId : List χ) :
    read f (idle lastId) (b.text f) = (idle (b.idAfter lastId), (b.event? lastId).toList) := by
  cases b with
  | comment text =>
      show read f (idle lastId) ((f.colon :: text ++ [f.lf] ++ []) ++ [f.lf]) = _
      have hin : InLine f (f.colon :: text) := (lines_inLine h _ List.mem_cons_self).right
      rw [List.append_nil, List.append_assoc]
      show read f (idle lastId) ((f.colon :: text) ++ f.lf :: [f.lf]) = _
      rw [read_line rfl hin, endLine_comment rfl, read_empty rfl rfl]
      rfl
  | message id data =>
      cases id with
      | none =>
          show read f _ ((fieldLine f f.data data ++ [f.lf] ++ []) ++ [f.lf]) = _
          rw [List.append_nil]
          exact read_data h.left
      | some value =>
          rcases h.right value rfl with ⟨hin, hnul⟩
          show read f _ ((fieldLine f f.id value ++ [f.lf] ++
            (fieldLine f f.data data ++ [f.lf] ++ [])) ++ [f.lf]) = _
          rw [List.append_nil, List.append_assoc, List.append_assoc]
          show read f _ (fieldLine f f.id value ++ f.lf ::
            (fieldLine f f.data data ++ [f.lf] ++ [f.lf])) = _
          rw [read_line rfl (inLine_fieldLine f.idName.right hin),
            endLine_field f.idName.left (fun c hc => (f.idName.right c hc).right.right) rfl]
          unfold field
          rw [if_neg (fun heq => f.names heq.symm), if_pos rfl, if_neg hnul]
          show ((read f ⟨[], false, [], [], value, lastId⟩ _).1,
            [] ++ (read f ⟨[], false, [], [], value, lastId⟩ _).2) = _
          rw [read_data h.left]
          rfl

theorem read_part {b : Block χ} (h : b.Clean f) (lastId : List χ) {t : List χ}
    (ht : t <+: b.text f) :
    t = b.text f ∨ (read f (idle lastId) t).2 = [] ∧
      (read f (idle lastId) t).1.lastId = lastId := by
  unfold text at ht ⊢
  rcases List.prefix_concat_iff.mp ht with hall | hpart
  · exact Or.inl hall
  · exact Or.inr (read_lines (lines_inLine h) rfl rfl hpart)

end Block

/-- The events of some blocks. -/
def events : List χ -> List (Block χ) -> List (Event χ)
  | _, [] => []
  | lastId, b :: rest => (b.event? lastId).toList ++ events (b.idAfter lastId) rest

def idAfter : List χ -> List (Block χ) -> List χ
  | lastId, [] => lastId
  | lastId, b :: rest => idAfter (b.idAfter lastId) rest

variable [DecidableEq χ] {f : Format χ}

theorem read_all {blocks : List (Block χ)} (h : forall b, b ∈ blocks -> b.Clean f)
    (lastId : List χ) :
    Client.read f (.idle lastId) (blocks.flatMap (Block.text f)) =
      (.idle (idAfter lastId blocks), events lastId blocks) := by
  induction blocks generalizing lastId with
  | nil => rfl
  | cons b blocks ih =>
      rw [List.flatMap_cons, Client.read_append, Block.read_text (h b List.mem_cons_self),
        ih (fun b' hb' => h b' (List.mem_cons_of_mem b hb'))]
      rfl

/-- Where the text of some blocks breaks off, the client has the events of the first of them. -/
theorem read_cut {blocks : List (Block χ)} (h : forall b, b ∈ blocks -> b.Clean f)
    (lastId : List χ) {t : List χ} (ht : t <+: blocks.flatMap (Block.text f)) :
    exists done, done <+: blocks ∧
      (Client.read f (.idle lastId) t).2 = events lastId done ∧
      (Client.read f (.idle lastId) t).1.lastId = idAfter lastId done := by
  induction blocks generalizing lastId t with
  | nil =>
      rw [List.flatMap_nil, List.prefix_nil] at ht
      rw [ht]
      exact ⟨[], List.prefix_rfl, rfl, rfl⟩
  | cons b blocks ih =>
      have hb := h b List.mem_cons_self
      rw [List.flatMap_cons] at ht
      rcases prefix_of_append ht with hpart | ⟨rest, rfl, hrest⟩
      · rcases Block.read_part hb lastId hpart with rfl | ⟨hnone, hlast⟩
        · refine ⟨[b], ⟨blocks, rfl⟩, ?_, ?_⟩
          · rw [Block.read_text hb]
            exact (List.append_nil _).symm
          · rw [Block.read_text hb]
            rfl
        · exact ⟨[], List.nil_prefix, hnone, hlast⟩
      · rcases ih (fun b' hb' => h b' (List.mem_cons_of_mem b hb')) (b.idAfter lastId) hrest with
          ⟨done, hdone, hevents, hlast⟩
        refine ⟨b :: done, (List.prefix_cons_inj b).mpr hdone, ?_, ?_⟩
        · rw [Client.read_append, Block.read_text hb]
          dsimp only
          rw [hevents]
          rfl
        · rw [Client.read_append, Block.read_text hb]
          exact hlast

end EventStream
end ConversationService
