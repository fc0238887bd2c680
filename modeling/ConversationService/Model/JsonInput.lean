import ConversationService.Model.Fingerprint

/-!
# JSON input (`json.loads` of a string)

Literals with `NaN` and the infinities, numbers, strings in strict mode, arrays, and objects
in which a later value replaces an earlier one of the key. `none` is a `ValueError`, and
`float` is the `repr` of `float(_)`.
-/

namespace ConversationService

open Python

namespace Fingerprint

/-- ` \t\n\r` -/
def isBlank (c : CodePoint) : Bool :=
  c = 0x20 || c = 0x09 || c = 0x0A || c = 0x0D

def skipBlanks (s : Text) : Text := s.dropWhile isBlank

/-!
# Strings
-/

/-- What a character behind a backslash stands for. -/
def unescaped (c : CodePoint) : Option CodePoint :=
  [(0x22, 0x22), (0x5C, 0x5C), (0x2F, 0x2F), (0x62, 0x08), (0x66, 0x0C), (0x6E, 0x0A),
    (0x72, 0x0D), (0x74, 0x09)].lookup c

/-- Four hexadecimal digits. -/
def readHex : Text -> Option (Nat × Text)
  | a :: b :: c :: d :: rest =>
      (hexValue a).bind (fun a => (hexValue b).bind (fun b => (hexValue c).bind (fun c =>
        (hexValue d).map (fun d => (((a * 16 + b) * 16 + c) * 16 + d, rest)))))
  | _ => none

/-- What stands behind `\u`; two surrogates that belong together are one character. -/
def readUnicode (s : Text) : Option (CodePoint × Text) :=
  match readHex s with
  | none => none
  | some (n, rest) =>
      if 0xD800 ≤ n ∧ n ≤ 0xDBFF ∧ (text "\\u").isPrefixOf rest then
        match readHex (rest.drop 2) with
        | none => none
        | some (m, rest') =>
            if 0xDC00 ≤ m ∧ m ≤ 0xDFFF then
              some (Fin.ofNat 0x110000 (0x10000 + (n - 0xD800) * 0x400 + (m - 0xDC00)), rest')
            else some (Fin.ofNat 0x110000 n, rest)
      else some (Fin.ofNat 0x110000 n, rest)

/-- What stands behind a backslash. -/
def readEscape : Text -> Option (CodePoint × Text)
  | [] => none
  | c :: rest =>
      if c = 0x75 then readUnicode rest
      else (unescaped c).map (fun c => (c, rest))

/-- A string behind its opening quote; every round takes a character. -/
def readString : Nat -> Text -> Option (Text × Text)
  | 0, _ => none
  | _ + 1, [] => none
  | rounds + 1, c :: rest =>
      if c = 0x22 then some ([], rest)
      else if c = 0x5C then
        (readEscape rest).bind (fun escaped =>
          (readString rounds escaped.2).map (fun more => (escaped.1 :: more.1, more.2)))
      else if c.val < 0x20 then none
      else (readString rounds rest).map (fun more => (c :: more.1, more.2))

/-!
# Numbers
-/

def isDigit (c : CodePoint) : Bool :=
  0x30 ≤ c.val && c.val ≤ 0x39

/-- `(0|[1-9][0-9]*)` -/
def readInteger : Text -> Option (Text × Text)
  | [] => none
  | c :: rest =>
      if c = 0x30 then some ([c], rest)
      else if isDigit c then some (c :: rest.takeWhile isDigit, rest.dropWhile isDigit)
      else none

/-- `(\.[0-9]+)?` -/
def readFraction : Text -> Text × Text
  | [] => ([], [])
  | c :: rest =>
      if c = 0x2E ∧ rest.takeWhile isDigit ≠ [] then
        (c :: rest.takeWhile isDigit, rest.dropWhile isDigit)
      else ([], c :: rest)

/-- `[-+]?` -/
def readSign : Text -> Text × Text
  | [] => ([], [])
  | c :: rest => if c = 0x2D ∨ c = 0x2B then ([c], rest) else ([], c :: rest)

/-- `([eE][-+]?[0-9]+)?` -/
def readExponent : Text -> Text × Text
  | [] => ([], [])
  | c :: rest =>
      let signed := readSign rest
      if (c = 0x65 ∨ c = 0x45) ∧ signed.2.takeWhile isDigit ≠ [] then
        (c :: (signed.1 ++ signed.2.takeWhile isDigit), signed.2.dropWhile isDigit)
      else ([], c :: rest)

/-- `-?` -/
def readMinus : Text -> Text × Text
  | [] => ([], [])
  | c :: rest => if c = 0x2D then ([c], rest) else ([], c :: rest)

def decimal (digits : Text) : Nat :=
  digits.foldl (fun n c => 10 * n + (c.val - 0x30)) 0

/-- `int(s)`, which raises for more than 4300 digits. -/
def readInt (minus digits : Text) : Option Json :=
  if 4300 < digits.length then none
  else some (.int (if minus.isEmpty then decimal digits else -(decimal digits : Int)))

/-!
# Values
-/

def literals : List (Text × Json) :=
  [(text "null", .null), (text "true", .bool true), (text "false", .bool false),
    (text "NaN", .float (text "nan")), (text "Infinity", .float (text "inf")),
    (text "-Infinity", .float (text "-inf"))]

def readLiteral (s : Text) : Option (Json × Text) :=
  (literals.find? (fun literal => literal.1.isPrefixOf s)).map (fun literal =>
    (literal.2, s.drop literal.1.length))

section Values

variable (float : Text -> Text)

def readNumber (s : Text) : Option (Json × Text) :=
  let minus := readMinus s
  (readInteger minus.2).bind (fun digits =>
    let fraction := readFraction digits.2
    let exponent := readExponent fraction.2
    if fraction.1 = [] ∧ exponent.1 = [] then
      (readInt minus.1 digits.1).map (fun value => (value, digits.2))
    else some (.float (float (minus.1 ++ digits.1 ++ fraction.1 ++ exponent.1)), exponent.2))

mutual
/-- A value. A bracket is followed by at most two calls, so that two rounds a character are enough. -/
def readValue : Nat -> Text -> Option (Json × Text)
  | 0, _ => none
  | _ + 1, [] => none
  | rounds + 1, c :: rest =>
      if c = 0x22 then (readString rounds rest).map (fun s => (.str s.1, s.2))
      else if c = 0x5B then
        let s := skipBlanks rest
        if s.head? = some 0x5D then some (.arr [], s.tail)
        else (readItems rounds s).map (fun items => (.arr items.1, items.2))
      else if c = 0x7B then
        let s := skipBlanks rest
        if s.head? = some 0x7D then some (.obj [], s.tail)
        else (readMembers rounds s).map (fun members => (.obj (dictOf members.1), members.2))
      else
        match readLiteral (c :: rest) with
        | some literal => some literal
        | none => readNumber float (c :: rest)

/-- The items up to the end of an array, of which there is at least one. -/
def readItems : Nat -> Text -> Option (List Json × Text)
  | 0, _ => none
  | rounds + 1, s =>
      (readValue rounds s).bind (fun value =>
        match skipBlanks value.2 with
        | [] => none
        | c :: rest =>
            if c = 0x5D then some ([value.1], rest)
            else if c = 0x2C then
              (readItems rounds (skipBlanks rest)).map (fun items =>
                (value.1 :: items.1, items.2))
            else none)

/-- The members up to the end of an object, of which there is at least one. -/
def readMembers : Nat -> Text -> Option (List (Text × Json) × Text)
  | 0, _ => none
  | _ + 1, [] => none
  | rounds + 1, quote :: s =>
      if quote ≠ 0x22 then none
      else
        (readString rounds s).bind (fun key =>
          match skipBlanks key.2 with
          | [] => none
          | colon :: rest =>
              if colon ≠ 0x3A then none
              else
                (readValue rounds (skipBlanks rest)).bind (fun value =>
                  match skipBlanks value.2 with
                  | [] => none
                  | c :: rest =>
                      if c = 0x7D then some ([(key.1, value.1)], rest)
                      else if c = 0x2C then
                        (readMembers rounds (skipBlanks rest)).map (fun members =>
                          ((key.1, value.1) :: members.1, members.2))
                      else none))
end

/-- `json.loads(s)`; a byte order mark is refused. -/
def loads (s : Text) : Option Json :=
  if s.head? = some 0xFEFF then none
  else
    (readValue float (2 * s.length + 2) (skipBlanks s)).bind (fun value =>
      if (skipBlanks value.2).isEmpty then some value.1 else none)

end Values

end Fingerprint
end ConversationService
