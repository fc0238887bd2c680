import Mathlib.Data.Fin.Basic

/-!
# Python strings

A Python `str` is a sequence of code points, lone surrogates included, which a
Lean `String` cannot hold. Only the string methods that the service uses are
defined.
-/

namespace ConversationService
namespace Python

abbrev CodePoint : Type := Fin 0x110000

instance neZero_codePoint : @NeZero Nat Zero.ofOfNat0 0x110000 := ⟨by decide⟩

abbrev Text : Type := List CodePoint

instance lawfulBEq_text : LawfulBEq Text := inferInstance

/-- The text of a literal of the source. -/
def text (s : String) : Text :=
  s.toList.map (fun c => Fin.ofNat 0x110000 c.toNat)

/-- The code points that `str.strip()` removes and `str.isspace()` accepts. -/
def isSpace (c : CodePoint) : Bool :=
  let n := c.val
  (0x09 ≤ n && n ≤ 0x0D) || (0x1C ≤ n && n ≤ 0x20) || n == 0x85 || n == 0xA0 ||
    n == 0x1680 || (0x2000 ≤ n && n ≤ 0x200A) || n == 0x2028 || n == 0x2029 ||
    n == 0x202F || n == 0x205F || n == 0x3000

/-- `s.strip(chars)`, with the characters to remove given as a predicate. -/
def stripBy (remove : CodePoint -> Bool) (s : Text) : Text :=
  ((s.dropWhile remove).reverse.dropWhile remove).reverse

/-- `s.strip()` -/
def strip (s : Text) : Text :=
  stripBy isSpace s

/-- ASCII lower case, which is all that the comparisons with ASCII words need. -/
def lowerAscii (c : CodePoint) : CodePoint :=
  if 0x41 ≤ c.val ∧ c.val ≤ 0x5A then Fin.ofNat 0x110000 (c.val + 0x20) else c

/-- The loop of `removeAll`; `skip` counts the rest of a match just found. -/
def removeAllFrom (pattern : Text) : Nat -> Text -> Text
  | _, [] => []
  | skip + 1, _ :: rest => removeAllFrom pattern skip rest
  | 0, c :: rest =>
      if pattern.isPrefixOf (c :: rest) then
        removeAllFrom pattern (pattern.length - 1) rest
      else
        c :: removeAllFrom pattern 0 rest

/-- `s.replace(pattern, '')` for a nonempty pattern. -/
def removeAll (pattern s : Text) : Text :=
  removeAllFrom pattern 0 s

/-- `sep.join(parts)` -/
def join (sep : Text) : List Text -> Text
  | [] => []
  | [part] => part
  | part :: rest => part ++ sep ++ join sep rest

def digitChar (d : Nat) : CodePoint :=
  Fin.ofNat 0x110000 (if d < 10 then 0x30 + d else 0x57 + d)

/-- The digits of `n` in a base, least significant first; `fuel` bounds their number. -/
def digitsRev (base : Nat) : Nat -> Nat -> Text
  | 0, _ => []
  | fuel + 1, n =>
      digitChar (n % base) ::
        (if n / base = 0 then [] else digitsRev base fuel (n / base))

/-- `str(n)` for an integer. -/
def intText (n : Int) : Text :=
  let digits := (digitsRev 10 (n.natAbs + 1) n.natAbs).reverse
  if n < 0 then text "-" ++ digits else digits

/-- The value of a hexadecimal digit. -/
def hexValue (c : CodePoint) : Option Nat :=
  let n := c.val
  if 0x30 ≤ n ∧ n ≤ 0x39 then some (n - 0x30)
  else if 0x61 ≤ n ∧ n ≤ 0x66 then some (n - 0x57)
  else if 0x41 ≤ n ∧ n ≤ 0x46 then some (n - 0x37)
  else none

def isSurrogate (c : CodePoint) : Bool :=
  0xD800 ≤ c.val && c.val ≤ 0xDFFF

/--
`len(s.encode("utf-8"))`, or `none` where the encoding raises because of a lone
surrogate.
-/
def utf8Length : Text -> Option Nat
  | [] => some 0
  | c :: rest =>
      if isSurrogate c then none
      else
        (utf8Length rest).map (fun n =>
          n + (if c.val < 0x80 then 1 else if c.val < 0x800 then 2
            else if c.val < 0x10000 then 3 else 4))

end Python
end ConversationService
