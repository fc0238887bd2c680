import ConversationService.Python.Text

/-!
# Numerals outside ASCII

`int` takes the decimal digits and the white space of every script. Before it reads a numeral
it replaces them by those of ASCII; what is left of ASCII is kept, so the separators U+001C
to U+001F, white space for `str.strip`, are none here.
-/

namespace ConversationService
namespace Python

/-- The decimal zeros outside ASCII (Unicode 15); the other nine digits follow each of them. -/
def decimalZeros : List Nat :=
  [0x660, 0x6F0, 0x7C0, 0x966, 0x9E6, 0xA66, 0xAE6, 0xB66, 0xBE6, 0xC66, 0xCE6, 0xD66, 0xDE6,
   0xE50, 0xED0, 0xF20, 0x1040, 0x1090, 0x17E0, 0x1810, 0x1946, 0x19D0, 0x1A80, 0x1A90, 0x1B50,
   0x1BB0, 0x1C40, 0x1C50, 0xA620, 0xA8D0, 0xA900, 0xA9D0, 0xA9F0, 0xAA50, 0xABF0, 0xFF10,
   0x104A0, 0x10D30, 0x11066, 0x110F0, 0x11136, 0x111D0, 0x112F0, 0x11450, 0x114D0, 0x11650,
   0x116C0, 0x11730, 0x118E0, 0x11950, 0x11C50, 0x11D50, 0x11DA0, 0x11F50, 0x16A60, 0x16AC0,
   0x16B50, 0x1D7CE, 0x1D7D8, 0x1D7E2, 0x1D7EC, 0x1D7F6, 0x1E140, 0x1E2F0, 0x1E4F0, 0x1E950,
   0x1FBF0]

/-- A decimal digit as that of ASCII. -/
def asciiDecimal (c : CodePoint) : CodePoint :=
  match decimalZeros.find? (fun first => first ≤ c.val && c.val ≤ first + 9) with
  | some first => digitChar (c.val - first)
  | none => c

/-- The text that `int` reads in place of `s`. -/
def asciiNumeral (s : Text) : Text :=
  s.map (fun c =>
    if c.val < 0x80 then c
    else if isSpace c then 0x20
    else asciiDecimal c)

/-- The white space that `int` skips around a numeral of ASCII. -/
def isIntSpace (c : CodePoint) : Bool :=
  (0x09 ≤ c.val && c.val ≤ 0x0D) || c.val == 0x20

theorem asciiNumeral_ascii {s : Text} (h : forall c, c ∈ s -> c.val < 0x80) :
    asciiNumeral s = s := by
  have hsame : asciiNumeral s = s.map id :=
    List.map_congr_left (fun c hc => if_pos (h c hc))
  rw [hsame, List.map_id]

theorem isIntSpace_eq_false {c : CodePoint} (h : 0x20 < c.val) : isIntSpace c = false := by
  unfold isIntSpace
  rw [decide_eq_false (show ¬c.val ≤ 0x0D by omega), Bool.and_false, Bool.false_or,
    beq_eq_false_iff_ne]
  omega

end Python
end ConversationService
