import ConversationService.Properties.JsonValues
import ConversationService.Python.Encoding

/-!
# JSON round trips

What is written as JSON is read as the same value, with its members in the order of their
keys.
-/

namespace ConversationService
namespace Fingerprint

open Python

/-!
# Numbers
-/

/-- A text that goes on behind a value, or ends there. -/
def IsValueEnd (rest : Text) : Prop :=
  forall c, rest.head? = some c -> c = 0x2C ∨ c = 0x5D ∨ c = 0x7D

section Numbers

theorem isDigit_digitChar : forall d, d < 10 -> isDigit (digitChar d) = true := by
  decide

theorem digit_digitChar : forall d, d < 10 -> (digitChar d).val - 0x30 = d := by
  decide

theorem digitChar_eq_zero : forall d, d < 10 -> digitChar d = 0x30 -> d = 0 := by
  decide

theorem isDigit_of_mem_digitsRev {fuel n : Nat} :
    forall c, c ∈ digitsRev 10 fuel n -> isDigit c = true := by
  induction fuel generalizing n with
  | zero =>
      intro c hc
      cases hc
  | succ fuel ih =>
      intro c hc
      rcases List.mem_cons.mp hc with rfl | hrest
      · exact isDigit_digitChar _ (Nat.mod_lt n (by omega))
      · split at hrest
        · cases hrest
        · exact ih c hrest

theorem digitsRev_last {fuel n : Nat} (hpos : 0 < n) (hfuel : n < 10 ^ fuel) :
    exists front c, digitsRev 10 fuel n = front ++ [c] ∧ c ≠ 0x30 := by
  induction fuel generalizing n with
  | zero => omega
  | succ fuel ih =>
      have hmod : n % 10 < 10 := Nat.mod_lt n (by omega)
      rw [digitsRev]
      split
      · rename_i hzero
        refine ⟨[], digitChar (n % 10), rfl, fun hc => ?_⟩
        have hd := digitChar_eq_zero _ hmod hc
        omega
      · rename_i hne
        have hlt : n / 10 < 10 ^ fuel :=
          Nat.div_lt_of_lt_mul (by rw [← Nat.pow_succ']; exact hfuel)
        rcases ih (Nat.pos_of_ne_zero hne) hlt with ⟨front, c, heq, hc⟩
        exact ⟨digitChar (n % 10) :: front, c, by rw [heq]; rfl, hc⟩

theorem decimal_concat (digits : Text) (c : CodePoint) :
    decimal (digits ++ [c]) = 10 * decimal digits + (c.val - 0x30) := by
  unfold decimal
  rw [List.foldl_append]
  rfl

theorem decimal_digitsRev {fuel n : Nat} (hfuel : n < 10 ^ fuel) :
    decimal (digitsRev 10 fuel n).reverse = n := by
  induction fuel generalizing n with
  | zero =>
      have hn : n = 0 := by simpa using hfuel
      rw [hn]
      rfl
  | succ fuel ih =>
      have hmod : n % 10 < 10 := Nat.mod_lt n (by omega)
      rw [digitsRev, List.reverse_cons, decimal_concat, digit_digitChar _ hmod]
      split
      · rename_i hzero
        have hnil : decimal ([] : Text).reverse = 0 := rfl
        rw [hnil]
        omega
      · have hlt : n / 10 < 10 ^ fuel :=
          Nat.div_lt_of_lt_mul (by rw [← Nat.pow_succ']; exact hfuel)
        rw [ih hlt]
        omega

theorem lt_ten_pow (n : Nat) : n < 10 ^ (n + 1) :=
  (Nat.lt_succ_self n).trans (Nat.lt_pow_self (by omega))

theorem intText_natCast (n : Nat) : intText n = (digitsRev 10 (n + 1) n).reverse := by
  unfold intText
  rw [Int.natAbs_natCast]
  exact if_neg (by omega)

theorem intText_eq (n : Int) :
    intText n = (if n < 0 then [0x2D] else []) ++ intText n.natAbs := by
  rw [intText_natCast]
  unfold intText
  split
  · rfl
  · rfl

theorem decimal_intText (n : Nat) : decimal (intText n) = n := by
  rw [intText_natCast, decimal_digitsRev (lt_ten_pow n)]

theorem isInteger_intText (n : Nat) : IsInteger (intText n) := by
  rw [intText_natCast]
  cases n with
  | zero => exact IsInteger.zero
  | succ n =>
      have hdigits := @isDigit_of_mem_digitsRev (n + 1 + 1) (n + 1)
      rcases digitsRev_last (Nat.succ_pos n) (lt_ten_pow (n + 1)) with ⟨front, c, heq, hc⟩
      rw [heq] at hdigits
      rw [heq, List.reverse_concat]
      apply IsInteger.digits hc
      intro d hd
      apply hdigits d
      simpa [or_comm] using hd

theorem digit_of_isInteger {digits : Text} (h : IsInteger digits) :
    exists c more, digits = c :: more ∧ isDigit c = true := by
  cases h with
  | zero => exact ⟨0x30, [], rfl, by decide⟩
  | @digits c more _ hdigits => exact ⟨c, more, rfl, hdigits c List.mem_cons_self⟩

def EndsDigits (rest : Text) : Prop := forall c, rest.head? = some c -> isDigit c = false

theorem takeWhile_digits {digits rest : Text} (h : forall d, d ∈ digits -> isDigit d = true)
    (hrest : EndsDigits rest) : (digits ++ rest).takeWhile isDigit = digits := by
  rw [List.takeWhile_append_of_pos h]
  cases rest with
  | nil => rw [List.takeWhile_nil, List.append_nil]
  | cons c rest =>
      rw [List.takeWhile_cons_of_neg (by rw [hrest c rfl]; exact Bool.false_ne_true),
        List.append_nil]

theorem dropWhile_digits {digits rest : Text} (h : forall d, d ∈ digits -> isDigit d = true)
    (hrest : EndsDigits rest) : (digits ++ rest).dropWhile isDigit = rest := by
  rw [List.dropWhile_append_of_pos h]
  cases rest with
  | nil => rfl
  | cons c rest =>
      exact List.dropWhile_cons_of_neg (by rw [hrest c rfl]; exact Bool.false_ne_true)

theorem readInteger_append {digits rest : Text} (h : IsInteger digits) (hrest : EndsDigits rest) :
    readInteger (digits ++ rest) = some (digits, rest) := by
  cases h with
  | zero => rfl
  | @digits c more hzero hdigits =>
      have hmore : forall d, d ∈ more -> isDigit d = true :=
        fun d hd => hdigits d (List.mem_cons_of_mem c hd)
      rw [List.cons_append, readInteger, if_neg hzero, if_pos (hdigits c List.mem_cons_self),
        takeWhile_digits hmore hrest, dropWhile_digits hmore hrest]

theorem readMinus_append {minus rest : Text} (h : minus = [] ∨ minus = [0x2D])
    (hrest : rest.head? ≠ some 0x2D) : readMinus (minus ++ rest) = (minus, rest) := by
  rcases h with rfl | rfl
  · cases rest with
    | nil => rfl
    | cons c rest =>
        have hc : c ≠ 0x2D := fun hc => hrest (by rw [hc]; rfl)
        rw [List.nil_append, readMinus, if_neg hc]
  · rfl

theorem readSign_append {sign rest : Text} (h : IsSign sign)
    (hrest : forall c, rest.head? = some c -> isDigit c = true) :
    readSign (sign ++ rest) = (sign, rest) := by
  rcases h with rfl | rfl | rfl
  · cases rest with
    | nil => rfl
    | cons c rest =>
        have hc : ¬(c = 0x2D ∨ c = 0x2B) := by
          have hdigit := hrest c rfl
          rintro (rfl | rfl)
          · exact absurd hdigit (by decide)
          · exact absurd hdigit (by decide)
        rw [List.nil_append, readSign, if_neg hc]
  · rfl
  · rfl

theorem readFraction_append {fraction rest : Text} (h : IsFraction fraction)
    (hrest : EndsDigits rest) (hpoint : rest.head? ≠ some 0x2E) :
    readFraction (fraction ++ rest) = (fraction, rest) := by
  cases h with
  | none =>
      cases rest with
      | nil => rfl
      | cons c rest =>
          have hc : c ≠ 0x2E := fun hc => hpoint (by rw [hc]; rfl)
          rw [List.nil_append, readFraction, if_neg (fun h => hc h.left)]
  | some hne hdigits =>
      rw [List.cons_append, readFraction, takeWhile_digits hdigits hrest, if_pos ⟨rfl, hne⟩,
        dropWhile_digits hdigits hrest]

theorem endsDigits_of_isValueEnd {rest : Text} (hrest : IsValueEnd rest) : EndsDigits rest := by
  intro c hc
  rcases hrest c hc with rfl | rfl | rfl
  · decide
  · decide
  · decide

theorem readExponent_append {exponent rest : Text} (h : IsExponent exponent)
    (hrest : IsValueEnd rest) : readExponent (exponent ++ rest) = (exponent, rest) := by
  have hends := endsDigits_of_isValueEnd hrest
  cases h with
  | none =>
      cases rest with
      | nil => rfl
      | cons c rest =>
          have hc : ¬(c = 0x65 ∨ c = 0x45) := by
            rcases hrest c rfl with rfl | rfl | rfl
            · decide
            · decide
            · decide
          rw [List.nil_append, readExponent]
          exact if_neg (fun h => hc h.left)
  | @some e sign digits he hsign hne hdigits =>
      have hhead : forall c, (digits ++ rest).head? = some c -> isDigit c = true := by
        intro c hc
        cases digits with
        | nil => exact absurd rfl hne
        | cons d digits =>
            rw [← Option.some.inj hc]
            exact hdigits d List.mem_cons_self
      have hsigned := readSign_append hsign hhead
      rw [List.cons_append, List.append_assoc, readExponent, hsigned]
      dsimp only
      rw [takeWhile_digits hdigits hends, dropWhile_digits hdigits hends, if_pos ⟨he, hne⟩]

theorem head_isInteger {digits rest : Text} (h : IsInteger digits) :
    exists c, (digits ++ rest).head? = some c ∧ isDigit c = true := by
  rcases digit_of_isInteger h with ⟨c, more, rfl, hc⟩
  exact ⟨c, rfl, hc⟩

theorem head_isInteger_ne_minus {digits rest : Text} (h : IsInteger digits) :
    (digits ++ rest).head? ≠ some 0x2D := by
  rcases @head_isInteger digits rest h with ⟨c, hc, hdigit⟩
  rw [hc]
  intro heq
  rw [Option.some.inj heq] at hdigit
  exact absurd hdigit (by decide)

variable {float : Text -> Text}

theorem readNumber_intText {n : Int} (hlength : (intText n.natAbs).length ≤ 4300) {rest : Text}
    (hrest : IsValueEnd rest) :
    readNumber float (intText n ++ rest) = some (.int n, rest) := by
  have hinteger := isInteger_intText n.natAbs
  have hfraction : readFraction rest = ([], rest) :=
    readFraction_append IsFraction.none (endsDigits_of_isValueEnd hrest) (by
      intro hpoint
      rcases hrest _ hpoint with h | h | h
      · exact absurd h (by decide)
      · exact absurd h (by decide)
      · exact absurd h (by decide))
  have hexponent : readExponent rest = ([], rest) := readExponent_append IsExponent.none hrest
  have hminus : readMinus (intText n ++ rest) =
      (if n < 0 then [0x2D] else [], intText n.natAbs ++ rest) := by
    rw [intText_eq n, List.append_assoc]
    apply readMinus_append
    · split
      · exact Or.inr rfl
      · exact Or.inl rfl
    · exact head_isInteger_ne_minus hinteger
  have hread := readInteger_append hinteger (endsDigits_of_isValueEnd hrest)
  have hvalue : readInt (if n < 0 then [0x2D] else []) (intText n.natAbs) = some (.int n) := by
    unfold readInt
    rw [if_neg (by omega), decimal_intText]
    split
    · rename_i hneg
      rw [List.isEmpty_cons, if_neg Bool.false_ne_true]
      congr 2
      omega
    · rename_i hpos
      rw [List.isEmpty_nil, if_pos rfl]
      congr 2
      omega
  unfold readNumber
  simp only [hminus, hread, hfraction, hexponent, hvalue, Option.bind_some, and_self, if_true,
    Option.map_some]

theorem head_isExponent {exponent rest : Text} (h : IsExponent exponent) (hrest : IsValueEnd rest) :
    EndsDigits (exponent ++ rest) ∧ (exponent ++ rest).head? ≠ some 0x2E := by
  cases h with
  | none =>
      refine ⟨endsDigits_of_isValueEnd hrest, ?_⟩
      intro hpoint
      rcases hrest _ hpoint with h | h | h
      · exact absurd h (by decide)
      · exact absurd h (by decide)
      · exact absurd h (by decide)
  | some he _ _ _ =>
      constructor
      · intro c hc
        rw [← Option.some.inj hc]
        rcases he with rfl | rfl
        · decide
        · decide
      · rcases he with rfl | rfl
        · exact fun hc => absurd (Option.some.inj hc) (by decide)
        · exact fun hc => absurd (Option.some.inj hc) (by decide)

theorem readNumber_float {repr rest : Text} (h : IsFloatText repr) (hfloat : float repr = repr)
    (hrest : IsValueEnd rest) : readNumber float (repr ++ rest) = some (.float repr, rest) := by
  cases h with
  | @number minus digits fraction exponent hminus hdigits hfraction hexponent hnumber =>
      have hends := head_isExponent hexponent hrest
      have hminus' := readMinus_append hminus
        (@head_isInteger_ne_minus digits (fraction ++ (exponent ++ rest)) hdigits)
      have hfraction' := readFraction_append hfraction hends.left hends.right
      have hexponent' := readExponent_append hexponent hrest
      have hstart : EndsDigits (fraction ++ (exponent ++ rest)) := by
        cases hfraction with
        | none => exact hends.left
        | some _ _ =>
            intro c hc
            rw [← Option.some.inj hc]
            decide
      have hread := readInteger_append hdigits hstart
      unfold readNumber
      rw [List.append_assoc, List.append_assoc, List.append_assoc]
      simp only [hminus', hread, hfraction', hexponent', Option.bind_some, if_neg hnumber]
      rw [hfloat]

end Numbers

/-!
# Strings
-/

section Strings

theorem readHex_control {c : CodePoint} (hc : c.val < 0x20) (rest : Text) :
    readHex (0x30 :: 0x30 :: digitChar (c.val / 16) :: digitChar (c.val % 16) :: rest) =
      some (c.val, rest) := by
  have hzero : hexValue 0x30 = some 0 := by decide
  have hhigh := UUID.hexValue_digitChar (c.val / 16) (by omega)
  have hlow := UUID.hexValue_digitChar (c.val % 16) (by omega)
  simp only [readHex, hzero, hhigh, hlow, Option.bind_some, Option.map_some]
  congr 2
  omega

theorem readEscape_control {c : CodePoint} (hc : c.val < 0x20) (rest : Text) :
    readEscape (0x75 :: 0x30 :: 0x30 :: digitChar (c.val / 16) :: digitChar (c.val % 16) :: rest) =
      some (c, rest) := by
  have hvalue : Fin.ofNat 0x110000 c.val = c := Fin.ext (Nat.mod_eq_of_lt c.isLt)
  rw [readEscape, if_pos rfl, readUnicode, readHex_control hc]
  dsimp only
  rw [if_neg (by omega), hvalue]

theorem readString_escape {e c : CodePoint} (he : e ≠ 0x75) (hc : unescaped e = some c)
    (rounds : Nat) (rest : Text) :
    readString (rounds + 1) (0x5C :: e :: rest) =
      (readString rounds rest).map (fun more => (c :: more.1, more.2)) := by
  rw [readString, if_neg (by decide), if_pos rfl, readEscape, if_neg he, hc]
  rfl

theorem readString_dumpsChar (c : CodePoint) (rounds : Nat) (rest : Text) :
    readString (rounds + 1) (dumpsChar c ++ rest) =
      (readString rounds rest).map (fun more => (c :: more.1, more.2)) := by
  unfold dumpsChar
  by_cases hquote : c = 0x22
  · rw [if_pos hquote, hquote]
    exact readString_escape (e := 0x22) (by decide) (by decide) rounds rest
  rw [if_neg hquote]
  by_cases hbackslash : c = 0x5C
  · rw [if_pos hbackslash, hbackslash]
    exact readString_escape (e := 0x5C) (by decide) (by decide) rounds rest
  rw [if_neg hbackslash]
  by_cases hback : c = 0x08
  · rw [if_pos hback, hback]
    exact readString_escape (e := 0x62) (by decide) (by decide) rounds rest
  rw [if_neg hback]
  by_cases htab : c = 0x09
  · rw [if_pos htab, htab]
    exact readString_escape (e := 0x74) (by decide) (by decide) rounds rest
  rw [if_neg htab]
  by_cases hfeed : c = 0x0A
  · rw [if_pos hfeed, hfeed]
    exact readString_escape (e := 0x6E) (by decide) (by decide) rounds rest
  rw [if_neg hfeed]
  by_cases hform : c = 0x0C
  · rw [if_pos hform, hform]
    exact readString_escape (e := 0x66) (by decide) (by decide) rounds rest
  rw [if_neg hform]
  by_cases hreturn : c = 0x0D
  · rw [if_pos hreturn, hreturn]
    exact readString_escape (e := 0x72) (by decide) (by decide) rounds rest
  rw [if_neg hreturn]
  by_cases hcontrol : c.val < 0x20
  · have hescape := readEscape_control hcontrol rest
    have htext : text "\\u00" = [0x5C, 0x75, 0x30, 0x30] := by decide
    rw [if_pos hcontrol, htext]
    show readString (rounds + 1) (0x5C :: 0x75 :: 0x30 :: 0x30 :: _ :: _ :: rest) = _
    rw [readString, if_neg (by decide), if_pos rfl, hescape]
    rfl
  · rw [if_neg hcontrol, List.singleton_append, readString, if_neg hquote, if_neg hbackslash,
      if_neg hcontrol]

theorem readString_flatMap {s : Text} {rounds : Nat} (hrounds : s.length < rounds) (rest : Text) :
    readString rounds (s.flatMap dumpsChar ++ 0x22 :: rest) = some (s, rest) := by
  induction s generalizing rounds with
  | nil =>
      cases rounds with
      | zero => exact absurd hrounds (Nat.not_lt_zero _)
      | succ rounds => rfl
  | cons c s ih =>
      cases rounds with
      | zero => exact absurd hrounds (Nat.not_lt_zero _)
      | succ rounds =>
          rw [List.flatMap_cons, List.append_assoc, readString_dumpsChar,
            ih (Nat.lt_of_succ_lt_succ hrounds)]
          rfl

theorem dumpsText_eq (s : Text) : dumpsText s = 0x22 :: (s.flatMap dumpsChar ++ [0x22]) := rfl

theorem length_dumpsChar (c : CodePoint) : 1 ≤ (dumpsChar c).length := by
  unfold dumpsChar
  repeat' split
  all_goals simp [text]

theorem length_flatMap_dumpsChar (s : Text) : s.length ≤ (s.flatMap dumpsChar).length := by
  induction s with
  | nil => exact Nat.le_refl 0
  | cons c s ih =>
      have hc := length_dumpsChar c
      rw [List.flatMap_cons, List.length_append, List.length_cons]
      omega

end Strings

/-!
# Values
-/

section Values

variable {float : Text -> Text}

def IsValueStart (c : CodePoint) : Prop := isBlank c = false ∧ c ≠ 0x5D ∧ c ≠ 0xFEFF

theorem isValueStart_digit {c : CodePoint} (hc : isDigit c = true) : IsValueStart c := by
  have hval : c.val < 0x3A := by
    unfold isDigit at hc
    simp at hc
    omega
  refine ⟨?_, ?_, ?_⟩
  · by_contra hblank
    unfold isBlank at hblank
    simp only [Bool.not_eq_false, Bool.or_eq_true, decide_eq_true_eq] at hblank
    rcases hblank with ((rfl | rfl) | rfl) | rfl
    all_goals exact absurd hc (by decide)
  · rintro rfl
    exact absurd hc (by decide)
  · rintro rfl
    exact absurd hval (by decide)

theorem isFloatText_start {repr : Text} (h : IsFloatText repr) :
    exists c more, repr = c :: more ∧
      (isDigit c = true ∨ c = 0x2D ∧ exists d, more.head? = some d ∧ isDigit d = true) := by
  cases h with
  | @number minus digits fraction exponent hminus hdigits _ _ _ =>
      rcases digit_of_isInteger hdigits with ⟨c, more, rfl, hc⟩
      rcases hminus with rfl | rfl
      · exact ⟨c, more ++ fraction ++ exponent, rfl, Or.inl hc⟩
      · exact ⟨0x2D, c :: more ++ fraction ++ exponent, rfl, Or.inr ⟨rfl, c, rfl, hc⟩⟩

theorem intText_start (n : Int) :
    exists c more, intText n = c :: more ∧
      (isDigit c = true ∨ c = 0x2D ∧ exists d, more.head? = some d ∧ isDigit d = true) := by
  rcases digit_of_isInteger (isInteger_intText n.natAbs) with ⟨c, more, heq, hc⟩
  rw [intText_eq, heq]
  split
  · exact ⟨0x2D, c :: more, rfl, Or.inr ⟨rfl, c, rfl, hc⟩⟩
  · exact ⟨c, more, rfl, Or.inl hc⟩

theorem readLiteral_number {c : CodePoint} {more : Text}
    (h : isDigit c = true ∨ c = 0x2D ∧ exists d, more.head? = some d ∧ isDigit d = true) :
    readLiteral (c :: more) = none := by
  have hother : forall (word : CodePoint) (w rest : Text), word ≠ c ->
      List.isPrefixOf (word :: w) (c :: rest) = false := by
    intro word w rest hne
    rw [List.isPrefixOf_cons_cons, beq_eq_false_iff_ne.mpr hne, Bool.false_and]
  have hletter : forall word : CodePoint, isDigit word = false -> word ≠ 0x2D -> word ≠ c := by
    rintro word hdigit hminus rfl
    rcases h with hword | ⟨hword, _⟩
    · rw [hdigit] at hword
      cases hword
    · exact hminus hword
  have hminus : List.isPrefixOf (text "-Infinity") (c :: more) = false := by
    rcases h with hdigit | ⟨rfl, d, hhead, hdigit⟩
    · apply hother
      rintro rfl
      exact absurd hdigit (by decide)
    · rcases List.head?_eq_some_iff.mp hhead with ⟨rest, rfl⟩
      have htext : text "-Infinity" = 0x2D :: 0x49 :: text "nfinity" := by decide
      have hne : (0x49 : CodePoint) ≠ d := by
        rintro rfl
        exact absurd hdigit (by decide)
      rw [htext, List.isPrefixOf_cons_cons, List.isPrefixOf_cons_cons, beq_eq_false_iff_ne.mpr hne,
        Bool.false_and, Bool.and_false]
  have hnone : literals.find? (fun literal => literal.1.isPrefixOf (c :: more)) = none := by
    rw [List.find?_eq_none]
    intro literal hliteral
    rw [Bool.not_eq_true]
    unfold literals at hliteral
    simp only [List.mem_cons, List.not_mem_nil, or_false] at hliteral
    rcases hliteral with rfl | rfl | rfl | rfl | rfl | rfl
    · exact hother _ _ more (hletter 0x6E (by decide) (by decide))
    · exact hother _ _ more (hletter 0x74 (by decide) (by decide))
    · exact hother _ _ more (hletter 0x66 (by decide) (by decide))
    · exact hother _ _ more (hletter 0x4E (by decide) (by decide))
    · exact hother _ _ more (hletter 0x49 (by decide) (by decide))
    · exact hminus
  unfold readLiteral
  rw [hnone]
  rfl

theorem readValue_plain {c : CodePoint} (hc : c ≠ 0x22 ∧ c ≠ 0x5B ∧ c ≠ 0x7B) (rounds : Nat)
    (more : Text) :
    readValue float (rounds + 1) (c :: more) =
      match readLiteral (c :: more) with
      | some literal => some literal
      | none => readNumber float (c :: more) := by
  have hvalue := readValue.eq_def float (rounds + 1) (c :: more)
  simp only [if_neg hc.left, if_neg hc.right.left, if_neg hc.right.right] at hvalue
  exact hvalue

theorem readValue_number {s rest : Text} {v : Json}
    (hs : exists c more, s = c :: more ∧
      (isDigit c = true ∨ c = 0x2D ∧ exists d, more.head? = some d ∧ isDigit d = true))
    (hread : readNumber float (s ++ rest) = some (v, rest)) (rounds : Nat) :
    readValue float (rounds + 1) (s ++ rest) = some (v, rest) := by
  rcases hs with ⟨c, more, rfl, hc⟩
  have hstart : isDigit c = true ∨
      c = 0x2D ∧ exists d, (more ++ rest).head? = some d ∧ isDigit d = true := by
    rcases hc with hdigit | ⟨hminus, d, hhead, hdigit⟩
    · exact Or.inl hdigit
    · refine Or.inr ⟨hminus, d, ?_, hdigit⟩
      rw [List.head?_append, hhead]
      rfl
  have hplain : c ≠ 0x22 ∧ c ≠ 0x5B ∧ c ≠ 0x7B := by
    rcases hc with hdigit | ⟨rfl, _⟩
    · refine ⟨?_, ?_, ?_⟩
      · rintro rfl
        exact absurd hdigit (by decide)
      · rintro rfl
        exact absurd hdigit (by decide)
      · rintro rfl
        exact absurd hdigit (by decide)
    · decide
  rw [List.cons_append, readValue_plain hplain, readLiteral_number hstart]
  exact hread

theorem isValueStart_number {c : CodePoint} {more : Text}
    (h : isDigit c = true ∨ c = 0x2D ∧ exists d, more.head? = some d ∧ isDigit d = true) :
    IsValueStart c := by
  rcases h with hdigit | ⟨rfl, _⟩
  · exact isValueStart_digit hdigit
  · unfold IsValueStart
    decide

theorem dumpsFloat_finite {repr : Text} (h : IsFloatText repr) : dumpsFloat repr = repr := by
  rcases isFloatText_start h with ⟨c, more, rfl, hc⟩
  have hother : forall (d : CodePoint) (w : Text), isDigit d = false -> d ≠ 0x2D ->
      c :: more ≠ d :: w := by
    rintro d w hd hminus heq
    rw [(List.cons.inj heq).left] at hc
    rcases hc with hdigit | ⟨h, _⟩
    · rw [hd] at hdigit
      cases hdigit
    · exact hminus h
  have hminus : c :: more ≠ text "-inf" := by
    intro heq
    rcases List.cons.inj heq with ⟨rfl, rfl⟩
    rcases hc with hdigit | ⟨_, d, hhead, hdigit⟩
    · exact absurd hdigit (by decide)
    · rw [← Option.some.inj hhead] at hdigit
      exact absurd hdigit (by decide)
  have hnan : c :: more ≠ text "nan" := hother 0x6E (text "an") (by decide) (by decide)
  have hinf : c :: more ≠ text "inf" := hother 0x69 (text "nf") (by decide) (by decide)
  unfold dumpsFloat
  rw [if_neg hnan, if_neg hinf, if_neg hminus]

theorem dumpsFloat_start {repr : Text} (h : IsFloat float repr) :
    exists c more, dumpsFloat repr = c :: more ∧ IsValueStart c := by
  cases h with
  | nan => exact ⟨0x4E, text "aN", by decide, by unfold IsValueStart; decide⟩
  | infinity => exact ⟨0x49, text "nfinity", by decide, by unfold IsValueStart; decide⟩
  | minusInfinity => exact ⟨0x2D, text "Infinity", by decide, by unfold IsValueStart; decide⟩
  | finite hrepr _ =>
      rw [dumpsFloat_finite hrepr]
      rcases isFloatText_start hrepr with ⟨c, more, rfl, hc⟩
      exact ⟨c, more, rfl, isValueStart_number hc⟩

theorem dumps_start {v : Json} (h : IsJson float v) :
    exists c more, dumps v = c :: more ∧ IsValueStart c := by
  cases h with
  | null => exact ⟨0x6E, text "ull", by decide, by unfold IsValueStart; decide⟩
  | bool b =>
      cases b with
      | false => exact ⟨0x66, text "alse", by decide, by unfold IsValueStart; decide⟩
      | true => exact ⟨0x74, text "rue", by decide, by unfold IsValueStart; decide⟩
  | @int n _ =>
      rcases intText_start n with ⟨c, more, heq, hc⟩
      exact ⟨c, more, by rw [dumps, heq], isValueStart_number hc⟩
  | float hrepr =>
      rw [dumps]
      exact dumpsFloat_start hrepr
  | str s => exact ⟨0x22, _, rfl, by unfold IsValueStart; decide⟩
  | @arr items _ =>
      rw [dumps_arr]
      exact ⟨0x5B, _, rfl, by unfold IsValueStart; decide⟩
  | @obj fields _ _ =>
      rw [dumps_obj]
      exact ⟨0x7B, _, rfl, by unfold IsValueStart; decide⟩

theorem skipBlanks_start {c : CodePoint} (hc : isBlank c = false) (more : Text) :
    skipBlanks (c :: more) = c :: more :=
  List.dropWhile_cons_of_neg (by rw [hc]; exact Bool.false_ne_true)

theorem isValueEnd_bracket (rest : Text) : IsValueEnd (0x5D :: rest) :=
  fun _ hc => Or.inr (Or.inl (Option.some.inj hc).symm)

theorem isValueEnd_brace (rest : Text) : IsValueEnd (0x7D :: rest) :=
  fun _ hc => Or.inr (Or.inr (Option.some.inj hc).symm)

theorem isValueEnd_comma (rest : Text) : IsValueEnd (0x2C :: rest) :=
  fun _ hc => Or.inl (Option.some.inj hc).symm

/-- What is said of a value and proved by induction: that it is read back. -/
def IsReadBack (float : Text -> Text) (v : Json) : Prop :=
  forall rounds rest, 2 * (dumps v).length ≤ rounds -> IsValueEnd rest ->
    readValue float rounds (dumps v ++ rest) = some (sortKeys v, rest)

theorem join_items_start {items : List Json} (hne : items ≠ [])
    (hjson : forall item, item ∈ items -> IsJson float item) (rest : Text) :
    exists c more, join (text ",") (items.map dumps) ++ rest = c :: more ∧ IsValueStart c := by
  cases items with
  | nil => exact absurd rfl hne
  | cons item items =>
      rcases dumps_start (hjson item List.mem_cons_self) with ⟨c, more, heq, hc⟩
      cases items with
      | nil => exact ⟨c, more ++ rest, by rw [List.map_singleton, join, heq]; rfl, hc⟩
      | cons next items =>
          rw [List.map_cons, List.map_cons, join_cons_cons, heq]
          exact ⟨c, _, rfl, hc⟩

theorem readItems_dumps {items : List Json} (hne : items ≠ [])
    (hjson : forall item, item ∈ items -> IsJson float item)
    (hread : forall item, item ∈ items -> IsReadBack float item) {rounds : Nat} (rest : Text)
    (hrounds : 2 * (join (text ",") (items.map dumps)).length + 2 ≤ rounds) :
    readItems float rounds (join (text ",") (items.map dumps) ++ 0x5D :: rest) =
      some (items.map sortKeys, rest) := by
  induction items generalizing rounds with
  | nil => exact absurd rfl hne
  | cons item items ih =>
      rcases Nat.exists_eq_succ_of_ne_zero (n := rounds) (by omega) with ⟨k, rfl⟩
      have hitem := hread item List.mem_cons_self
      cases items with
      | nil =>
          have hjoin : join (text ",") ([item].map dumps) = dumps item := rfl
          rw [hjoin] at hrounds ⊢
          have hvalue := hitem k (0x5D :: rest) (by omega) (isValueEnd_bracket rest)
          rw [readItems, hvalue, Option.bind_some]
          dsimp only
          rw [skipBlanks_start (by decide)]
          rfl
      | cons next items =>
          have hjoin : join (text ",") ((item :: next :: items).map dumps) =
              dumps item ++ 0x2C :: join (text ",") ((next :: items).map dumps) := by
            rw [List.map_cons, List.map_cons, join_cons_cons, List.append_assoc]
            rfl
          have hjson' := fun i hi => hjson i (List.mem_cons_of_mem item hi)
          rcases join_items_start (List.cons_ne_nil next items) hjson' (0x5D :: rest) with
            ⟨c, more, hstart, hc⟩
          rw [hjoin, List.length_append, List.length_cons] at hrounds
          have hvalue := hitem k
            (0x2C :: (join (text ",") ((next :: items).map dumps) ++ 0x5D :: rest)) (by omega)
            (isValueEnd_comma _)
          have hrest := @ih (List.cons_ne_nil _ _) hjson'
            (fun i hi => hread i (List.mem_cons_of_mem item hi)) k (by omega)
          rw [hjoin, List.append_assoc, List.cons_append, readItems, hvalue, Option.bind_some]
          dsimp only
          rw [skipBlanks_start (by decide)]
          dsimp only
          rw [if_neg (by decide), if_pos rfl, hstart, skipBlanks_start hc.left, ← hstart, hrest]
          rfl

theorem dumpsMember_append (field : Text × Json) (rest : Text) :
    dumpsMember field ++ rest =
      0x22 :: (field.1.flatMap dumpsChar ++ 0x22 :: 0x3A :: (dumps field.2 ++ rest)) := by
  unfold dumpsMember
  rw [dumpsText_eq]
  simp [text]

theorem length_dumpsMember (field : Text × Json) :
    field.1.length + (dumps field.2).length + 3 ≤ (dumpsMember field).length := by
  have hkey := length_flatMap_dumpsChar field.1
  have heq := congrArg List.length (dumpsMember_append field [])
  simp only [List.append_nil, List.length_cons, List.length_append] at heq
  omega

theorem readMembers_dumpsMember {field : Text × Json} (hjson : IsJson float field.2)
    (hread : IsReadBack float field.2) {rounds : Nat}
    (hrounds : 2 * (dumpsMember field).length ≤ rounds) {c : CodePoint} {rest : Text}
    (hc : isBlank c = false) (hend : IsValueEnd (c :: rest)) :
    readMembers float (rounds + 1) (dumpsMember field ++ c :: rest) =
      if c = 0x7D then some ([(field.1, sortKeys field.2)], rest)
      else if c = 0x2C then
        (readMembers float rounds (skipBlanks rest)).map (fun members =>
          ((field.1, sortKeys field.2) :: members.1, members.2))
      else none := by
  have hlength := length_dumpsMember field
  have hkey := @readString_flatMap field.1 rounds (by omega)
    (0x3A :: (dumps field.2 ++ c :: rest))
  have hvalue := hread rounds (c :: rest) (by omega) hend
  rcases dumps_start hjson with ⟨d, more, hstart, hd⟩
  have hskip : skipBlanks (dumps field.2 ++ c :: rest) = dumps field.2 ++ c :: rest := by
    rw [hstart]
    exact skipBlanks_start hd.left _
  rw [dumpsMember_append, readMembers, if_neg (not_not_intro rfl), hkey, Option.bind_some]
  dsimp only
  rw [skipBlanks_start (by decide)]
  dsimp only
  rw [if_neg (not_not_intro rfl), hskip, hvalue, Option.bind_some]
  dsimp only
  rw [skipBlanks_start hc]

theorem readMembers_dumps {fields : List (Text × Json)} (hne : fields ≠ [])
    (hjson : forall field, field ∈ fields -> IsJson float field.2)
    (hread : forall field, field ∈ fields -> IsReadBack float field.2) {rounds : Nat} (rest : Text)
    (hrounds : 2 * (join (text ",") (fields.map dumpsMember)).length + 2 ≤ rounds) :
    readMembers float rounds (join (text ",") (fields.map dumpsMember) ++ 0x7D :: rest) =
      some (fields.map (fun field => (field.1, sortKeys field.2)), rest) := by
  induction fields generalizing rounds with
  | nil => exact absurd rfl hne
  | cons field fields ih =>
      rcases Nat.exists_eq_succ_of_ne_zero (n := rounds) (by omega) with ⟨k, rfl⟩
      have hfield := hread field List.mem_cons_self
      have hvalue := hjson field List.mem_cons_self
      cases fields with
      | nil =>
          have hjoin : join (text ",") ([field].map dumpsMember) = dumpsMember field := rfl
          rw [hjoin] at hrounds ⊢
          rw [readMembers_dumpsMember hvalue hfield (by omega) (by decide) (isValueEnd_brace rest),
            if_pos rfl]
          rfl
      | cons next fields =>
          have hjoin : join (text ",") ((field :: next :: fields).map dumpsMember) =
              dumpsMember field ++ 0x2C :: join (text ",") ((next :: fields).map dumpsMember) := by
            rw [List.map_cons, List.map_cons, join_cons_cons, List.append_assoc]
            rfl
          have hskip : skipBlanks (join (text ",") ((next :: fields).map dumpsMember) ++
              0x7D :: rest) = join (text ",") ((next :: fields).map dumpsMember) ++ 0x7D :: rest := by
            cases fields with
            | nil => exact skipBlanks_start (by decide) _
            | cons _ _ => exact skipBlanks_start (by decide) _
          rw [hjoin, List.length_append, List.length_cons] at hrounds
          have hrest := @ih (List.cons_ne_nil _ _)
            (fun f hf => hjson f (List.mem_cons_of_mem field hf))
            (fun f hf => hread f (List.mem_cons_of_mem field hf)) k (by omega)
          rw [hjoin, List.append_assoc, List.cons_append,
            readMembers_dumpsMember hvalue hfield (by omega) (by decide) (isValueEnd_comma _),
            if_neg (by decide), if_pos rfl, hskip, hrest]
          rfl

theorem readValue_float {repr : Text} (h : IsFloat float repr) : IsReadBack float (.float repr) := by
  intro rounds rest hrounds hrest
  have hpos : 0 < (dumpsFloat repr).length := by
    rcases dumpsFloat_start h with ⟨c, more, heq, _⟩
    rw [heq]
    exact Nat.succ_pos _
  rw [dumps] at hrounds ⊢
  rcases Nat.exists_eq_succ_of_ne_zero (n := rounds) (by omega) with ⟨k, rfl⟩
  cases h with
  | nan => exact readValue_plain (by decide) k _
  | infinity => exact readValue_plain (by decide) k _
  | minusInfinity => exact readValue_plain (by decide) k _
  | finite hrepr hfloat =>
      rw [dumpsFloat_finite hrepr]
      exact readValue_number (isFloatText_start hrepr) (readNumber_float hrepr hfloat hrest) k

theorem readValue_arr {items : List Json} (hjson : forall item, item ∈ items -> IsJson float item)
    (hread : forall item, item ∈ items -> IsReadBack float item) :
    IsReadBack float (.arr items) := by
  intro rounds rest hrounds _
  have hdumps : dumps (.arr items) ++ rest =
      0x5B :: (join (text ",") (items.map dumps) ++ 0x5D :: rest) := by
    rw [dumps_arr, List.append_assoc]
    rfl
  have hlength := congrArg List.length hdumps
  simp only [List.length_append, List.length_cons] at hlength
  rcases Nat.exists_eq_succ_of_ne_zero (n := rounds) (by omega) with ⟨k, rfl⟩
  rw [hdumps, sortKeys_arr, readValue, if_neg (by decide), if_pos rfl]
  by_cases hnil : items = []
  · rw [hnil]
    rfl
  · rcases join_items_start hnil hjson (0x5D :: rest) with ⟨c, more, hstart, hc⟩
    have hne : (c :: more).head? ≠ some 0x5D := fun h => hc.right.left (Option.some.inj h)
    have hitems := @readItems_dumps float items hnil hjson hread k rest (by omega)
    rw [hstart] at hitems ⊢
    rw [skipBlanks_start hc.left]
    dsimp only
    rw [if_neg hne, hitems]
    rfl

theorem readValue_obj {fields : List (Text × Json)} (hkeys : (fields.map Prod.fst).Nodup)
    (hjson : forall field, field ∈ fields -> IsJson float field.2)
    (hread : forall field, field ∈ fields -> IsReadBack float field.2) :
    IsReadBack float (.obj fields) := by
  intro rounds rest hrounds _
  have hdumps : dumps (.obj fields) ++ rest =
      0x7B :: (join (text ",") ((sortFields fields).map dumpsMember) ++ 0x7D :: rest) := by
    rw [dumps_obj, List.append_assoc]
    rfl
  have hlength := congrArg List.length hdumps
  simp only [List.length_append, List.length_cons] at hlength
  rcases Nat.exists_eq_succ_of_ne_zero (n := rounds) (by omega) with ⟨k, rfl⟩
  rw [hdumps, sortKeys_obj, readValue, if_neg (by decide), if_neg (by decide), if_pos rfl]
  cases hsorted : sortFields fields with
  | nil => rfl
  | cons field more =>
      have hmem : forall f, f ∈ field :: more -> f ∈ fields := by
        intro f hf
        rw [← hsorted] at hf
        exact mem_sortFields.mp hf
      have hnodup : (((field :: more).map (fun f => (f.1, sortKeys f.2))).map Prod.fst).Nodup := by
        rw [← hsorted, List.map_map]
        exact ((sortFields_perm fields).map Prod.fst).nodup_iff.mpr hkeys
      rw [hsorted] at hlength
      have hmembers := @readMembers_dumps float _ (List.cons_ne_nil field more)
        (fun f hf => hjson f (hmem f hf)) (fun f hf => hread f (hmem f hf)) k rest (by omega)
      have hskip : skipBlanks (join (text ",") ((field :: more).map dumpsMember) ++ 0x7D :: rest) =
          join (text ",") ((field :: more).map dumpsMember) ++ 0x7D :: rest := by
        cases more with
        | nil => exact skipBlanks_start (by decide) _
        | cons _ _ => exact skipBlanks_start (by decide) _
      have hne : (join (text ",") ((field :: more).map dumpsMember) ++ 0x7D :: rest).head? ≠
          some 0x7D := by
        cases more with
        | nil => exact fun h => absurd (Option.some.inj h) (by decide)
        | cons _ _ => exact fun h => absurd (Option.some.inj h) (by decide)
      rw [hskip]
      dsimp only
      rw [if_neg hne, hmembers, Option.map_some, dictOf_eq_self hnodup]

/-- What is written is read back, with its members sorted; by induction on the value. -/
theorem readValue_dumps {v : Json} (h : IsJson float v) : IsReadBack float v := by
  induction v using json_induction with
  | null =>
      rintro (_ | rounds) rest hrounds _
      · exact absurd hrounds (by decide)
      · exact readValue_plain (by decide) rounds _
  | bool b =>
      rintro (_ | rounds) rest hrounds _
      · cases b with
        | false => exact absurd hrounds (by decide)
        | true => exact absurd hrounds (by decide)
      · cases b with
        | false => exact readValue_plain (by decide) rounds _
        | true => exact readValue_plain (by decide) rounds _
  | int n =>
      intro rounds rest hrounds hrest
      rcases intText_start n with ⟨c, more, heq, hc⟩
      have hpos : 0 < (intText n).length := by
        rw [heq]
        exact Nat.succ_pos _
      rw [dumps] at hrounds ⊢
      rcases Nat.exists_eq_succ_of_ne_zero (n := rounds) (by omega) with ⟨k, rfl⟩
      cases h with
      | int hlength => exact readValue_number ⟨c, more, heq, hc⟩ (readNumber_intText hlength hrest) k
  | float repr =>
      cases h with
      | float hrepr => exact readValue_float hrepr
  | str s =>
      intro rounds rest hrounds _
      have hlength := length_flatMap_dumpsChar s
      have hdumps : dumps (.str s) ++ rest = 0x22 :: (s.flatMap dumpsChar ++ 0x22 :: rest) := by
        rw [dumps, dumpsText_eq, List.cons_append, List.append_assoc]
        rfl
      have hlonger := congrArg List.length hdumps
      simp only [List.length_append, List.length_cons] at hlonger
      rcases Nat.exists_eq_succ_of_ne_zero (n := rounds) (by omega) with ⟨k, rfl⟩
      rw [hdumps, readValue, if_pos rfl, readString_flatMap (by omega)]
      rfl
  | arr items ih =>
      cases h with
      | arr hjson => exact readValue_arr hjson (fun item hitem => ih item hitem (hjson item hitem))
  | obj fields ih =>
      cases h with
      | obj hkeys hjson =>
          exact readValue_obj hkeys hjson (fun field hfield => ih field hfield (hjson field hfield))

/-- `json.loads` undoes `json.dumps`, up to the order of the members. -/
theorem loads_dumps {v : Json} (h : IsJson float v) : loads float (dumps v) = some (sortKeys v) := by
  have hread := readValue_dumps h (2 * (dumps v).length + 2) [] (by omega)
    (fun c hc => by cases hc)
  rcases dumps_start h with ⟨c, more, heq, hc⟩
  have hmark : (dumps v).head? ≠ some 0xFEFF := by
    rw [heq]
    exact fun h => hc.right.right (Option.some.inj h)
  have hskip : skipBlanks (dumps v) = dumps v := by
    rw [heq]
    exact skipBlanks_start hc.left more
  rw [List.append_nil] at hread
  unfold loads
  rw [if_neg hmark, hskip, hread]
  rfl

end Values

end Fingerprint
end ConversationService
