import ConversationService.Properties.CursorTexts

/-!
# JSON on the wire

What `json.dumps` writes by default is ASCII, and `json.loads` reads the value back from it.
Only a text in which a high surrogate stands before a low one is not read as it was: the two
are read as one character.
-/

namespace ConversationService

open Python

namespace Pagination

open Fingerprint (IsFloat IsValueEnd IsValueStart isBlank readHex readUnicode readEscape
  readString readValue readItems readMembers skipBlanks skipBlanks_start readString_escape
  readValue_plain readValue_number readNumber_intText readNumber_float intText_start
  isValueStart_number isValueEnd_comma isValueEnd_bracket isValueEnd_brace dumpsFloat
  dumpsFloat_start dumpsFloat_finite isFloatText_start json_induction dictOf_eq_self isDigit
  IsInteger IsFraction IsSign IsExponent IsFloatText isInteger_intText intText_eq)

/-!
# Characters
-/

def isHigh (c : CodePoint) : Bool := 0xD800 ≤ c.val && c.val ≤ 0xDBFF

def isLow (c : CodePoint) : Bool := 0xDC00 ≤ c.val && c.val ≤ 0xDFFF

/-- No surrogates stand as a pair in the text. -/
def Unpaired (s : Text) : Prop :=
  s.IsChain (fun c d => ¬(isHigh c = true ∧ isLow d = true))

theorem readHex_hex4 {n : Nat} (hn : n < 0x10000) (rest : Text) :
    readHex (hex4 n ++ rest) = some (n, rest) := by
  have h3 := UUID.hexValue_digitChar (n / 4096 % 16) (Nat.mod_lt _ (by decide))
  have h2 := UUID.hexValue_digitChar (n / 256 % 16) (Nat.mod_lt _ (by decide))
  have h1 := UUID.hexValue_digitChar (n / 16 % 16) (Nat.mod_lt _ (by decide))
  have h0 := UUID.hexValue_digitChar (n % 16) (Nat.mod_lt _ (by decide))
  show readHex (_ :: _ :: _ :: _ :: rest) = _
  simp only [readHex, h3, h2, h1, h0, Option.bind_some, Option.map_some]
  congr 2
  omega

/-- What comes next is not read as the second half of a pair. -/
def NoLowNext (rest : Text) : Prop :=
  (text "\\u").isPrefixOf rest = true ->
    exists m more, readHex (rest.drop 2) = some (m, more) ∧ ¬(0xDC00 ≤ m ∧ m ≤ 0xDFFF)

theorem readUnicode_hex4 {n : Nat} (hn : n < 0x10000) {rest : Text}
    (hrest : 0xD800 ≤ n ∧ n ≤ 0xDBFF -> NoLowNext rest) :
    readUnicode (hex4 n ++ rest) = some (Fin.ofNat 0x110000 n, rest) := by
  unfold readUnicode
  rw [readHex_hex4 hn]
  dsimp only
  split
  · rename_i h
    rcases hrest ⟨h.left, h.right.left⟩ h.right.right with ⟨m, more, hread, hnot⟩
    rw [hread]
    dsimp only
    rw [if_neg hnot]
  · rfl

theorem ofNat_val (c : CodePoint) : Fin.ofNat 0x110000 c.val = c :=
  Fin.ext (Nat.mod_eq_of_lt c.isLt)

theorem readUnicode_halves {hi lo : Nat} (hhi : 0xD800 ≤ hi ∧ hi ≤ 0xDBFF)
    (hlo : 0xDC00 ≤ lo ∧ lo ≤ 0xDFFF) (rest : Text) :
    readUnicode (hex4 hi ++ (text "\\u" ++ hex4 lo ++ rest)) =
      some (Fin.ofNat 0x110000 (0x10000 + (hi - 0xD800) * 0x400 + (lo - 0xDC00)), rest) := by
  have hprefix : (text "\\u").isPrefixOf (text "\\u" ++ hex4 lo ++ rest) = true := by
    rw [List.append_assoc, List.isPrefixOf_iff_prefix]
    exact List.prefix_append _ _
  have hdrop : (text "\\u" ++ hex4 lo ++ rest).drop 2 = hex4 lo ++ rest := by
    rw [List.append_assoc]
    exact List.drop_left' rfl
  unfold readUnicode
  rw [readHex_hex4 (by omega)]
  dsimp only
  rw [if_pos ⟨hhi.left, hhi.right, hprefix⟩, hdrop, readHex_hex4 (by omega)]
  dsimp only
  rw [if_pos hlo]

theorem readUnicode_pair {c : CodePoint} (hc : 0x10000 ≤ c.val) (rest : Text) :
    readUnicode (hex4 (0xD800 + (c.val - 0x10000) / 0x400) ++
        (text "\\u" ++ hex4 (0xDC00 + (c.val - 0x10000) % 0x400) ++ rest)) =
      some (c, rest) := by
  have hlt : c.val < 0x110000 := c.isLt
  rw [readUnicode_halves (by omega) (by omega)]
  have hsum : 0x10000 + (0xD800 + (c.val - 0x10000) / 0x400 - 0xD800) * 0x400 +
      (0xDC00 + (c.val - 0x10000) % 0x400 - 0xDC00) = c.val := by omega
  rw [hsum, ofNat_val]

theorem readString_unicode (rounds : Nat) {s rest : Text} {c : CodePoint}
    (h : readUnicode s = some (c, rest)) :
    readString (rounds + 1) (text "\\u" ++ s) =
      (readString rounds rest).map (fun more => (c :: more.1, more.2)) := by
  have htext : text "\\u" = [0x5C, 0x75] := by decide
  rw [htext]
  show readString (rounds + 1) (0x5C :: 0x75 :: s) = _
  rw [readString, if_neg (by decide), if_pos rfl, readEscape, if_pos rfl, h]
  rfl

/-- The ways to write a character. -/
inductive WrittenAs : CodePoint -> Text -> Prop where
  | escaped {e c : CodePoint} : e ≠ 0x75 -> 0x20 ≤ e.val ∧ e.val ≤ 0x7E ->
      Fingerprint.unescaped e = some c -> WrittenAs c [0x5C, e]
  | plain {c : CodePoint} : c ≠ 0x22 -> c ≠ 0x5C -> 0x20 ≤ c.val ∧ c.val ≤ 0x7E ->
      WrittenAs c [c]
  | unicode {c : CodePoint} : c.val < 0x10000 -> WrittenAs c (text "\\u" ++ hex4 c.val)
  | pair {c : CodePoint} : 0x10000 ≤ c.val ->
      WrittenAs c (text "\\u" ++ hex4 (0xD800 + (c.val - 0x10000) / 0x400) ++
        (text "\\u" ++ hex4 (0xDC00 + (c.val - 0x10000) % 0x400)))

theorem writtenAs_dumpsChar (c : CodePoint) : WrittenAs c (dumpsChar c) := by
  unfold dumpsChar
  split
  · rename_i h
    exact .escaped (e := 0x22) (by decide) (by decide) (by rw [h]; rfl)
  split
  · rename_i h
    exact .escaped (e := 0x5C) (by decide) (by decide) (by rw [h]; rfl)
  split
  · rename_i h
    exact .escaped (e := 0x62) (by decide) (by decide) (by rw [h]; rfl)
  split
  · rename_i h
    exact .escaped (e := 0x74) (by decide) (by decide) (by rw [h]; rfl)
  split
  · rename_i h
    exact .escaped (e := 0x6E) (by decide) (by decide) (by rw [h]; rfl)
  split
  · rename_i h
    exact .escaped (e := 0x66) (by decide) (by decide) (by rw [h]; rfl)
  split
  · rename_i h
    exact .escaped (e := 0x72) (by decide) (by decide) (by rw [h]; rfl)
  split
  · rename_i hquote hbackslash _ _ _ _ _ hplain
    exact .plain hquote hbackslash hplain
  split
  · rename_i hsmall
    exact .unicode hsmall
  · rename_i hlarge
    exact .pair (Nat.not_lt.mp hlarge)

theorem readString_writtenAs {c : CodePoint} {s : Text} (h : WrittenAs c s) (rounds : Nat)
    {rest : Text} (hrest : isHigh c = true -> NoLowNext rest) :
    readString (rounds + 1) (s ++ rest) =
      (readString rounds rest).map (fun more => (c :: more.1, more.2)) := by
  cases h with
  | escaped he _ hc => exact readString_escape he hc rounds rest
  | plain hquote hbackslash hplain =>
      rw [List.singleton_append, readString, if_neg hquote, if_neg hbackslash,
        if_neg (Nat.not_lt.mpr hplain.left)]
  | unicode hsmall =>
      rw [List.append_assoc]
      apply readString_unicode
      rw [readUnicode_hex4 hsmall, ofNat_val]
      intro hhigh
      apply hrest
      unfold isHigh
      rw [decide_eq_true hhigh.left, decide_eq_true hhigh.right]
      rfl
  | pair hlarge =>
      rw [List.append_assoc, List.append_assoc]
      exact readString_unicode rounds (readUnicode_pair hlarge rest)

/-!
# Texts
-/

theorem noLowNext_of_ne {c d : CodePoint} {rest : Text} (h : c ≠ 0x5C ∨ d ≠ 0x75) :
    NoLowNext (c :: d :: rest) := by
  intro hprefix
  have htext : text "\\u" = [0x5C, 0x75] := by decide
  rw [htext, List.isPrefixOf_cons_cons, List.isPrefixOf_cons_cons] at hprefix
  rcases Bool.and_eq_true_iff.mp hprefix with ⟨hc, hmore⟩
  rcases Bool.and_eq_true_iff.mp hmore with ⟨hd, _⟩
  rcases h with h | h
  · exact absurd (eq_of_beq hc).symm h
  · exact absurd (eq_of_beq hd).symm h

theorem noLowNext_head {c : CodePoint} {rest : Text} (h : c ≠ 0x5C) :
    NoLowNext (c :: rest) := by
  cases rest with
  | nil =>
      intro hprefix
      have htext : text "\\u" = [0x5C, 0x75] := by decide
      rw [htext, List.isPrefixOf_cons_cons, List.isPrefixOf_cons_nil, Bool.and_false] at hprefix
      cases hprefix
  | cons d rest => exact noLowNext_of_ne (Or.inl h)

theorem noLowNext_hex4 {n : Nat} (hn : n < 0x10000) (hlow : ¬(0xDC00 ≤ n ∧ n ≤ 0xDFFF))
    (rest : Text) : NoLowNext (text "\\u" ++ (hex4 n ++ rest)) := by
  intro _
  have hdrop : (text "\\u" ++ (hex4 n ++ rest)).drop 2 = hex4 n ++ rest :=
    List.drop_left' rfl
  rw [hdrop]
  exact ⟨n, rest, readHex_hex4 hn rest, hlow⟩

theorem noLowNext_writtenAs {c : CodePoint} {s : Text} (h : WrittenAs c s)
    (hc : isLow c = false) (rest : Text) : NoLowNext (s ++ rest) := by
  have hlow : ¬(0xDC00 ≤ c.val ∧ c.val ≤ 0xDFFF) := by
    rintro ⟨h, h'⟩
    unfold isLow at hc
    rw [decide_eq_true h, decide_eq_true h'] at hc
    cases hc
  cases h with
  | escaped he _ _ => exact noLowNext_of_ne (Or.inr he)
  | plain _ hbackslash _ => exact noLowNext_head hbackslash
  | unicode hsmall =>
      rw [List.append_assoc]
      exact noLowNext_hex4 hsmall hlow rest
  | pair hlarge =>
      have hlt : c.val < 0x110000 := c.isLt
      rw [List.append_assoc, List.append_assoc]
      exact noLowNext_hex4 (by omega) (by omega) _

theorem readString_flatMap {s : Text} (hs : Unpaired s) {rounds : Nat}
    (hrounds : s.length < rounds) (rest : Text) :
    readString rounds (s.flatMap dumpsChar ++ 0x22 :: rest) = some (s, rest) := by
  induction s generalizing rounds with
  | nil =>
      cases rounds with
      | zero => exact absurd hrounds (Nat.not_lt_zero _)
      | succ rounds => rfl
  | cons c s ih =>
      cases rounds with
      | zero => exact absurd hrounds (Nat.not_lt_zero _)
      | succ rounds =>
          have hnext : isHigh c = true -> NoLowNext (s.flatMap dumpsChar ++ 0x22 :: rest) := by
            intro hhigh
            cases s with
            | nil => exact noLowNext_head (by decide)
            | cons d s =>
                have hpair := (List.isChain_cons_cons.mp hs).left
                have hlow : isLow d = false := by
                  rw [<- Bool.not_eq_true]
                  exact fun h => hpair ⟨hhigh, h⟩
                rw [List.flatMap_cons, List.append_assoc]
                exact noLowNext_writtenAs (writtenAs_dumpsChar d) hlow _
          rw [List.flatMap_cons, List.append_assoc,
            readString_writtenAs (writtenAs_dumpsChar c) rounds hnext,
            ih hs.of_cons (Nat.lt_of_succ_lt_succ hrounds)]
          rfl

theorem dumpsText_eq (s : Text) : dumpsText s = 0x22 :: (s.flatMap dumpsChar ++ [0x22]) := rfl

theorem length_dumpsChar (c : CodePoint) : 1 ≤ (dumpsChar c).length := by
  unfold dumpsChar
  repeat' split
  all_goals simp [text]

theorem length_flatMap_dumpsChar (s : Text) : s.length ≤ (s.flatMap dumpsChar).length := by
  induction s with
  | nil => exact Nat.le_refl 0
  | cons c s ih =>
      have hc := length_dumpsChar c
      rw [List.flatMap_cons, List.length_append, List.length_cons]
      omega

/-!
# Values
-/

section Values

variable {float : Text -> Text}

/-- A value that is read back from what is written of it. -/
inductive IsWire (float : Text -> Text) : Json -> Prop where
  | null : IsWire float .null
  | bool (b : Bool) : IsWire float (.bool b)
  | int {n : Int} : (intText n.natAbs).length ≤ 4300 -> IsWire float (.int n)
  | float {repr : Text} : IsFloat float repr -> IsWire float (.float repr)
  | str {s : Text} : Unpaired s -> IsWire float (.str s)
  | arr {items : List Json} : (forall item, item ∈ items -> IsWire float item) ->
      IsWire float (.arr items)
  | obj {fields : List (Text × Json)} : (fields.map Prod.fst).Nodup ->
      (forall field, field ∈ fields -> Unpaired field.1) ->
      (forall field, field ∈ fields -> IsWire float field.2) -> IsWire float (.obj fields)

theorem dumpsItems_eq (items : List Json) : dumpsItems items = items.map dumps := by
  induction items with
  | nil => rfl
  | cons item rest ih => rw [dumpsItems, ih, List.map_cons]

/-- A member of an object as it is written. -/
def dumpsMember (field : Text × Json) : Text :=
  dumpsText field.1 ++ text ": " ++ dumps field.2

theorem dumpsFields_eq (fields : List (Text × Json)) :
    dumpsFields fields = fields.map dumpsMember := by
  induction fields with
  | nil => rfl
  | cons field rest ih =>
      rcases field with ⟨key, value⟩
      rw [dumpsFields, ih, List.map_cons]
      rfl

theorem dumps_arr (items : List Json) :
    dumps (.arr items) = 0x5B :: (join (text ", ") (items.map dumps) ++ [0x5D]) := by
  rw [dumps, dumpsItems_eq]
  rfl

theorem dumps_obj (fields : List (Text × Json)) :
    dumps (.obj fields) = 0x7B :: (join (text ", ") (fields.map dumpsMember) ++ [0x7D]) := by
  rw [dumps, dumpsFields_eq]
  rfl

theorem dumps_start {v : Json} (h : IsWire float v) :
    exists c more, dumps v = c :: more ∧ IsValueStart c := by
  cases h with
  | null => exact ⟨0x6E, text "ull", by decide, by unfold IsValueStart; decide⟩
  | bool b =>
      cases b with
      | false => exact ⟨0x66, text "alse", by decide, by unfold IsValueStart; decide⟩
      | true => exact ⟨0x74, text "rue", by decide, by unfold IsValueStart; decide⟩
  | @int n _ =>
      rcases intText_start n with ⟨c, more, heq, hc⟩
      exact ⟨c, more, by rw [dumps, heq], isValueStart_number hc⟩
  | float hrepr =>
      rw [dumps]
      exact dumpsFloat_start hrepr
  | str _ => exact ⟨0x22, _, rfl, by unfold IsValueStart; decide⟩
  | @arr items _ =>
      rw [dumps_arr]
      exact ⟨0x5B, _, rfl, by unfold IsValueStart; decide⟩
  | @obj fields _ _ _ =>
      rw [dumps_obj]
      exact ⟨0x7B, _, rfl, by unfold IsValueStart; decide⟩

/-- What is said of a value and proved by induction: that it is read back. -/
def IsReadBack (float : Text -> Text) (v : Json) : Prop :=
  forall rounds rest, 2 * (dumps v).length ≤ rounds -> IsValueEnd rest ->
    readValue float rounds (dumps v ++ rest) = some (v, rest)

theorem skipBlanks_space {c : CodePoint} (hc : isBlank c = false) (more : Text) :
    skipBlanks (0x20 :: c :: more) = c :: more :=
  skipBlanks_start hc more

theorem join_items_start {items : List Json} (hne : items ≠ [])
    (hwire : forall item, item ∈ items -> IsWire float item) (rest : Text) :
    exists c more, join (text ", ") (items.map dumps) ++ rest = c :: more ∧
      IsValueStart c := by
  cases items with
  | nil => exact absurd rfl hne
  | cons item items =>
      rcases dumps_start (hwire item List.mem_cons_self) with ⟨c, more, heq, hc⟩
      cases items with
      | nil => exact ⟨c, more ++ rest, by rw [List.map_singleton, join, heq]; rfl, hc⟩
      | cons next items =>
          rw [List.map_cons, List.map_cons, join_cons_cons, heq]
          exact ⟨c, _, rfl, hc⟩

theorem readItems_dumps {items : List Json} (hne : items ≠ [])
    (hwire : forall item, item ∈ items -> IsWire float item)
    (hread : forall item, item ∈ items -> IsReadBack float item) {rounds : Nat} (rest : Text)
    (hrounds : 2 * (join (text ", ") (items.map dumps)).length + 2 ≤ rounds) :
    readItems float rounds (join (text ", ") (items.map dumps) ++ 0x5D :: rest) =
      some (items, rest) := by
  induction items generalizing rounds with
  | nil => exact absurd rfl hne
  | cons item items ih =>
      rcases Nat.exists_eq_succ_of_ne_zero (n := rounds) (by omega) with ⟨k, rfl⟩
      have hitem := hread item List.mem_cons_self
      cases items with
      | nil =>
          have hjoin : join (text ", ") ([item].map dumps) = dumps item := rfl
          rw [hjoin] at hrounds ⊢
          have hvalue := hitem k (0x5D :: rest) (by omega) (isValueEnd_bracket rest)
          rw [readItems, hvalue, Option.bind_some]
          dsimp only
          rw [skipBlanks_start (by decide)]
          rfl
      | cons next items =>
          have hjoin : join (text ", ") ((item :: next :: items).map dumps) =
              dumps item ++ 0x2C :: 0x20 :: join (text ", ") ((next :: items).map dumps) := by
            rw [List.map_cons, List.map_cons, join_cons_cons, List.append_assoc]
            rfl
          have hwire' := fun i hi => hwire i (List.mem_cons_of_mem item hi)
          rcases join_items_start (List.cons_ne_nil next items) hwire' (0x5D :: rest) with
            ⟨c, more, hstart, hc⟩
          rw [hjoin, List.length_append, List.length_cons, List.length_cons] at hrounds
          have hvalue := hitem k
            (0x2C :: 0x20 :: (join (text ", ") ((next :: items).map dumps) ++ 0x5D :: rest))
            (by omega) (isValueEnd_comma _)
          have hrest := @ih (List.cons_ne_nil _ _) hwire'
            (fun i hi => hread i (List.mem_cons_of_mem item hi)) k (by omega)
          rw [hjoin, List.append_assoc, List.cons_append, List.cons_append, readItems, hvalue,
            Option.bind_some]
          dsimp only
          rw [skipBlanks_start (by decide)]
          dsimp only
          rw [if_neg (by decide), if_pos rfl, hstart, skipBlanks_space hc.left, ← hstart, hrest]
          rfl

theorem dumpsMember_append (field : Text × Json) (rest : Text) :
    dumpsMember field ++ rest =
      0x22 :: (field.1.flatMap dumpsChar ++ 0x22 :: 0x3A :: 0x20 :: (dumps field.2 ++ rest)) := by
  unfold dumpsMember
  rw [dumpsText_eq]
  simp [text]

theorem length_dumpsMember (field : Text × Json) :
    field.1.length + (dumps field.2).length + 4 ≤ (dumpsMember field).length := by
  have hkey := length_flatMap_dumpsChar field.1
  have heq := congrArg List.length (dumpsMember_append field [])
  simp only [List.append_nil, List.length_cons, List.length_append] at heq
  omega

theorem readMembers_dumpsMember {field : Text × Json} (hkeyText : Unpaired field.1)
    (hwire : IsWire float field.2) (hread : IsReadBack float field.2) {rounds : Nat}
    (hrounds : 2 * (dumpsMember field).length ≤ rounds) {c : CodePoint} {rest : Text}
    (hc : isBlank c = false) (hend : IsValueEnd (c :: rest)) :
    readMembers float (rounds + 1) (dumpsMember field ++ c :: rest) =
      if c = 0x7D then some ([field], rest)
      else if c = 0x2C then
        (readMembers float rounds (skipBlanks rest)).map (fun members =>
          (field :: members.1, members.2))
      else none := by
  have hlength := length_dumpsMember field
  have hkey := @readString_flatMap field.1 hkeyText rounds (by omega)
    (0x3A :: 0x20 :: (dumps field.2 ++ c :: rest))
  have hvalue := hread rounds (c :: rest) (by omega) hend
  rcases dumps_start hwire with ⟨d, more, hstart, hd⟩
  have hskip : skipBlanks (0x20 :: (dumps field.2 ++ c :: rest)) = dumps field.2 ++ c :: rest := by
    rw [hstart]
    exact skipBlanks_space hd.left _
  rw [dumpsMember_append, readMembers, if_neg (not_not_intro rfl), hkey, Option.bind_some]
  dsimp only
  rw [skipBlanks_start (by decide)]
  dsimp only
  rw [if_neg (not_not_intro rfl), hskip, hvalue, Option.bind_some]
  dsimp only
  rw [skipBlanks_start hc]

theorem join_members_start (field : Text × Json) (fields : List (Text × Json)) (rest : Text) :
    exists more, join (text ", ") ((field :: fields).map dumpsMember) ++ rest =
      0x22 :: more := by
  cases fields with
  | nil => exact ⟨_, rfl⟩
  | cons next fields => exact ⟨_, rfl⟩

theorem readMembers_dumps {fields : List (Text × Json)} (hne : fields ≠ [])
    (hwire : forall field, field ∈ fields -> Unpaired field.1 ∧ IsWire float field.2)
    (hread : forall field, field ∈ fields -> IsReadBack float field.2) {rounds : Nat} (rest : Text)
    (hrounds : 2 * (join (text ", ") (fields.map dumpsMember)).length + 2 ≤ rounds) :
    readMembers float rounds (join (text ", ") (fields.map dumpsMember) ++ 0x7D :: rest) =
      some (fields, rest) := by
  induction fields generalizing rounds with
  | nil => exact absurd rfl hne
  | cons field fields ih =>
      rcases Nat.exists_eq_succ_of_ne_zero (n := rounds) (by omega) with ⟨k, rfl⟩
      have hfield := hread field List.mem_cons_self
      rcases hwire field List.mem_cons_self with ⟨hkey, hvalue⟩
      cases fields with
      | nil =>
          have hjoin : join (text ", ") ([field].map dumpsMember) = dumpsMember field := rfl
          rw [hjoin] at hrounds ⊢
          rw [readMembers_dumpsMember hkey hvalue hfield (by omega) (by decide)
            (isValueEnd_brace rest), if_pos rfl]
      | cons next fields =>
          have hjoin : join (text ", ") ((field :: next :: fields).map dumpsMember) =
              dumpsMember field ++ 0x2C :: 0x20 ::
                join (text ", ") ((next :: fields).map dumpsMember) := by
            rw [List.map_cons, List.map_cons, join_cons_cons, List.append_assoc]
            rfl
          rcases join_members_start next fields (0x7D :: rest) with ⟨more, hstart⟩
          rw [hjoin, List.length_append, List.length_cons, List.length_cons] at hrounds
          have hrest := @ih (List.cons_ne_nil _ _)
            (fun f hf => hwire f (List.mem_cons_of_mem field hf))
            (fun f hf => hread f (List.mem_cons_of_mem field hf)) k (by omega)
          rw [hjoin, List.append_assoc, List.cons_append, List.cons_append,
            readMembers_dumpsMember hkey hvalue hfield (by omega) (by decide)
              (isValueEnd_comma _),
            if_neg (by decide), if_pos rfl, hstart, skipBlanks_space (by decide), <- hstart, hrest]
          rfl

theorem readValue_float {repr : Text} (h : IsFloat float repr) :
    IsReadBack float (.float repr) := by
  intro rounds rest hrounds hrest
  have hpos : 0 < (dumpsFloat repr).length := by
    rcases dumpsFloat_start h with ⟨c, more, heq, _⟩
    rw [heq]
    exact Nat.succ_pos _
  rw [dumps] at hrounds ⊢
  rcases Nat.exists_eq_succ_of_ne_zero (n := rounds) (by omega) with ⟨k, rfl⟩
  cases h with
  | nan => exact readValue_plain (by decide) k _
  | infinity => exact readValue_plain (by decide) k _
  | minusInfinity => exact readValue_plain (by decide) k _
  | finite hrepr hfloat =>
      rw [dumpsFloat_finite hrepr]
      exact readValue_number (isFloatText_start hrepr) (readNumber_float hrepr hfloat hrest) k

theorem readValue_arr {items : List Json} (hwire : forall item, item ∈ items -> IsWire float item)
    (hread : forall item, item ∈ items -> IsReadBack float item) :
    IsReadBack float (.arr items) := by
  intro rounds rest hrounds _
  have hdumps : dumps (.arr items) ++ rest =
      0x5B :: (join (text ", ") (items.map dumps) ++ 0x5D :: rest) := by
    rw [dumps_arr, List.cons_append, List.append_assoc]
    rfl
  have hlength := congrArg List.length hdumps
  simp only [List.length_append, List.length_cons] at hlength
  rcases Nat.exists_eq_succ_of_ne_zero (n := rounds) (by omega) with ⟨k, rfl⟩
  rw [hdumps, readValue, if_neg (by decide), if_pos rfl]
  by_cases hnil : items = []
  · rw [hnil]
    rfl
  · rcases join_items_start hnil hwire (0x5D :: rest) with ⟨c, more, hstart, hc⟩
    have hne : (c :: more).head? ≠ some 0x5D := fun h => hc.right.left (Option.some.inj h)
    have hitems := @readItems_dumps float items hnil hwire hread k rest (by omega)
    rw [hstart] at hitems ⊢
    rw [skipBlanks_start hc.left]
    dsimp only
    rw [if_neg hne, hitems]
    rfl

theorem readValue_obj {fields : List (Text × Json)} (hkeys : (fields.map Prod.fst).Nodup)
    (hwire : forall field, field ∈ fields -> Unpaired field.1 ∧ IsWire float field.2)
    (hread : forall field, field ∈ fields -> IsReadBack float field.2) :
    IsReadBack float (.obj fields) := by
  intro rounds rest hrounds _
  have hdumps : dumps (.obj fields) ++ rest =
      0x7B :: (join (text ", ") (fields.map dumpsMember) ++ 0x7D :: rest) := by
    rw [dumps_obj, List.cons_append, List.append_assoc]
    rfl
  have hlength := congrArg List.length hdumps
  simp only [List.length_append, List.length_cons] at hlength
  rcases Nat.exists_eq_succ_of_ne_zero (n := rounds) (by omega) with ⟨k, rfl⟩
  rw [hdumps, readValue, if_neg (by decide), if_neg (by decide), if_pos rfl]
  cases fields with
  | nil => rfl
  | cons field more =>
      have hmembers := @readMembers_dumps float _ (List.cons_ne_nil field more) hwire hread k rest
        (by omega)
      rcases join_members_start field more (0x7D :: rest) with ⟨tail, hstart⟩
      have hne : ((0x22 : CodePoint) :: tail).head? ≠ some 0x7D :=
        fun h => absurd (Option.some.inj h) (by decide)
      rw [hstart] at hmembers ⊢
      rw [skipBlanks_start (by decide)]
      dsimp only
      rw [if_neg hne, hmembers, Option.map_some, dictOf_eq_self hkeys]

theorem readValue_dumps {v : Json} (h : IsWire float v) : IsReadBack float v := by
  induction v using json_induction with
  | null =>
      rintro (_ | rounds) rest hrounds _
      · exact absurd hrounds (by decide)
      · exact readValue_plain (by decide) rounds _
  | bool b =>
      rintro (_ | rounds) rest hrounds _
      · cases b with
        | false => exact absurd hrounds (by decide)
        | true => exact absurd hrounds (by decide)
      · cases b with
        | false => exact readValue_plain (by decide) rounds _
        | true => exact readValue_plain (by decide) rounds _
  | int n =>
      intro rounds rest hrounds hrest
      rcases intText_start n with ⟨c, more, heq, hc⟩
      have hpos : 0 < (intText n).length := by
        rw [heq]
        exact Nat.succ_pos _
      rw [dumps] at hrounds ⊢
      rcases Nat.exists_eq_succ_of_ne_zero (n := rounds) (by omega) with ⟨k, rfl⟩
      cases h with
      | int hlength =>
          exact readValue_number ⟨c, more, heq, hc⟩ (readNumber_intText hlength hrest) k
  | float repr =>
      cases h with
      | float hrepr => exact readValue_float hrepr
  | str s =>
      cases h with
      | str hs =>
          intro rounds rest hrounds _
          have hlength := length_flatMap_dumpsChar s
          have hdumps : dumps (.str s) ++ rest =
              0x22 :: (s.flatMap dumpsChar ++ 0x22 :: rest) := by
            rw [dumps, dumpsText_eq, List.cons_append, List.append_assoc]
            rfl
          have hlonger := congrArg List.length hdumps
          simp only [List.length_append, List.length_cons] at hlonger
          rcases Nat.exists_eq_succ_of_ne_zero (n := rounds) (by omega) with ⟨k, rfl⟩
          rw [hdumps, readValue, if_pos rfl, readString_flatMap hs (by omega)]
          rfl
  | arr items ih =>
      cases h with
      | arr hwire =>
          exact readValue_arr hwire (fun item hitem => ih item hitem (hwire item hitem))
  | obj fields ih =>
      cases h with
      | obj hkeys htexts hwire =>
          exact readValue_obj hkeys (fun field hfield => ⟨htexts field hfield, hwire field hfield⟩)
            (fun field hfield => ih field hfield (hwire field hfield))

/-- `json.loads(json.dumps(v)) == v` -/
theorem loads_dumps {v : Json} (h : IsWire float v) :
    Fingerprint.loads float (dumps v) = some v := by
  have hread := readValue_dumps h (2 * (dumps v).length + 2) [] (by omega)
    (fun c hc => by cases hc)
  rcases dumps_start h with ⟨c, more, heq, hc⟩
  have hmark : (dumps v).head? ≠ some 0xFEFF := by
    rw [heq]
    exact fun h => hc.right.right (Option.some.inj h)
  have hskip : skipBlanks (dumps v) = dumps v := by
    rw [heq]
    exact skipBlanks_start hc.left more
  rw [List.append_nil] at hread
  unfold Fingerprint.loads
  rw [if_neg hmark, hskip, hread]
  rfl

end Values

/-!
# What is written is printable
-/

def Printable (s : Text) : Prop :=
  forall c, c ∈ s -> 0x20 ≤ c.val ∧ c.val ≤ 0x7E

theorem printable_of_all {s : Text}
    (h : s.all (fun c => 0x20 ≤ c.val && c.val ≤ 0x7E) = true) : Printable s := by
  intro c hc
  have hboth := List.all_eq_true.mp h c hc
  rw [Bool.and_eq_true, decide_eq_true_eq, decide_eq_true_eq] at hboth
  exact hboth

theorem Printable.append {s t : Text} (hs : Printable s) (ht : Printable t) :
    Printable (s ++ t) :=
  List.forall_mem_append.mpr ⟨hs, ht⟩

theorem Printable.cons {c : CodePoint} {s : Text} (hs : Printable s) (hc : Printable [c]) :
    Printable (c :: s) :=
  hc.append hs

theorem Printable.enclosed {c d : CodePoint} {s : Text} (hs : Printable s)
    (hends : Printable [c, d]) : Printable (c :: (s ++ [d])) :=
  List.forall_mem_cons.mpr ⟨hends c List.mem_cons_self,
    hs.append (List.forall_mem_cons.mp hends).right⟩

theorem printable_backslash : Printable [0x5C] := printable_of_all (by decide)

theorem printable_unicode : Printable (text "\\u") := printable_of_all (by decide)

theorem printable_digits {s : Text} (h : forall c, c ∈ s -> isDigit c = true) :
    Printable s := by
  intro c hc
  have hdigit := h c hc
  unfold isDigit at hdigit
  rw [Bool.and_eq_true, decide_eq_true_eq, decide_eq_true_eq] at hdigit
  omega

theorem printable_isInteger {s : Text} (h : IsInteger s) : Printable s := by
  cases h with
  | zero => exact printable_of_all (by decide)
  | digits _ hdigits => exact printable_digits hdigits

theorem printable_sign {s : Text} (h : IsSign s) : Printable s := by
  rcases h with rfl | rfl | rfl
  · exact printable_of_all (by decide)
  · exact printable_of_all (by decide)
  · exact printable_of_all (by decide)

theorem printable_intText (n : Int) : Printable (intText n) := by
  rw [intText_eq]
  refine Printable.append ?_ (printable_isInteger (isInteger_intText n.natAbs))
  split
  · exact printable_of_all (by decide)
  · exact printable_of_all (by decide)

theorem printable_isFloatText {s : Text} (h : IsFloatText s) : Printable s := by
  cases h with
  | @number minus digits fraction exponent hminus hdigits hfraction hexponent _ =>
      have hsign : IsSign minus := by
        rcases hminus with h | h
        · exact Or.inl h
        · exact Or.inr (Or.inl h)
      refine ((printable_sign hsign).append (printable_isInteger hdigits)).append ?_ |>.append ?_
      · cases hfraction with
        | none => exact printable_of_all (by decide)
        | some _ hmore => exact (printable_digits hmore).cons (printable_of_all (by decide))
      · cases hexponent with
        | none => exact printable_of_all (by decide)
        | @some e _ _ he hsign _ hmore =>
            have hletter : Printable [e] := by
              rcases he with rfl | rfl
              · exact printable_of_all (by decide)
              · exact printable_of_all (by decide)
            exact hletter.append ((printable_sign hsign).append (printable_digits hmore))

theorem printable_digitChar {n : Nat} (hn : n < 16) : Printable [digitChar n] := by
  have hall : forall d, d < 16 ->
      [digitChar d].all (fun c => 0x20 ≤ c.val && c.val ≤ 0x7E) = true := by decide
  exact printable_of_all (hall n hn)

theorem printable_hex4 (n : Nat) : Printable (hex4 n) := by
  have hdigit : forall m, Printable [digitChar (m % 16)] :=
    fun m => printable_digitChar (Nat.mod_lt m (by decide))
  exact (((hdigit n).cons (hdigit _)).cons (hdigit _)).cons (hdigit _)

theorem printable_writtenAs {c : CodePoint} {s : Text} (h : WrittenAs c s) : Printable s := by
  cases h with
  | escaped _ he _ => exact printable_backslash.append (List.forall_mem_singleton.mpr he)
  | plain _ _ hplain => exact List.forall_mem_singleton.mpr hplain
  | unicode _ => exact printable_unicode.append (printable_hex4 _)
  | pair _ =>
      exact (printable_unicode.append (printable_hex4 _)).append
        (printable_unicode.append (printable_hex4 _))

theorem printable_dumpsText (s : Text) : Printable (dumpsText s) := by
  refine Printable.enclosed ?_ (printable_of_all (by decide))
  intro c hc
  rcases List.mem_flatMap.mp hc with ⟨d, _, hd⟩
  exact printable_writtenAs (writtenAs_dumpsChar d) c hd

theorem printable_join {sep : Text} {parts : List Text} (hsep : Printable sep)
    (hparts : forall part, part ∈ parts -> Printable part) : Printable (join sep parts) := by
  intro c hc
  rcases mem_join hc with h | ⟨part, hpart, h⟩
  · exact hsep c h
  · exact hparts part hpart c h

/-- What is written of a value is printable ASCII, on one line; by induction on the value. -/
theorem printable_dumps {float : Text -> Text} {v : Json} (h : IsWire float v) :
    Printable (dumps v) := by
  induction v using json_induction with
  | null => exact printable_of_all (by decide)
  | bool b =>
      cases b with
      | false => exact printable_of_all (by decide)
      | true => exact printable_of_all (by decide)
  | int n =>
      rw [dumps]
      exact printable_intText n
  | float repr =>
      rw [dumps]
      cases h with
      | float hrepr =>
          cases hrepr with
          | nan => exact printable_of_all (by decide)
          | infinity => exact printable_of_all (by decide)
          | minusInfinity => exact printable_of_all (by decide)
          | finite htext _ =>
              rw [dumpsFloat_finite htext]
              exact printable_isFloatText htext
  | str s =>
      rw [dumps]
      exact printable_dumpsText s
  | arr items ih =>
      cases h with
      | arr hwire =>
          rw [dumps_arr]
          refine Printable.enclosed (printable_join (printable_of_all (by decide)) ?_)
            (printable_of_all (by decide))
          intro part hpart
          rcases List.mem_map.mp hpart with ⟨item, hitem, rfl⟩
          exact ih item hitem (hwire item hitem)
  | obj fields ih =>
      cases h with
      | obj _ _ hwire =>
          rw [dumps_obj]
          refine Printable.enclosed (printable_join (printable_of_all (by decide)) ?_)
            (printable_of_all (by decide))
          intro part hpart
          rcases List.mem_map.mp hpart with ⟨field, hfield, rfl⟩
          exact ((printable_dumpsText field.1).append (printable_of_all (by decide))).append
            (ih field hfield (hwire field hfield))

end Pagination
end ConversationService
