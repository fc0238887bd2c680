import ConversationService.Python.Printable

/-!
# JSON values

What `json.loads` returns and what the event handlers read with `dict.get`.
-/

namespace ConversationService
namespace Python

/--
A JSON value as Python holds it. A float is kept as its `repr`, which
determines it.
-/
inductive Json where
  | null
  | bool (b : Bool)
  | int (n : Int)
  | float (repr : Text)
  | str (s : Text)
  | arr (items : List Json)
  | obj (fields : List (Text × Json))

namespace Json

instance : Inhabited Json := ⟨.null⟩

/-- `bool(value)` -/
def truthy : Json -> Bool
  | .null => false
  | .bool b => b
  | .int n => n != 0
  | .float repr => repr != text "0.0" && repr != text "-0.0"
  | .str s => !s.isEmpty
  | .arr items => !items.isEmpty
  | .obj fields => !fields.isEmpty

/-- `fields.get(key)`, with `None` for an absent key. -/
def get (fields : List (Text × Json)) (key : Text) : Json :=
  match fields.lookup key with
  | some value => value
  | none => .null

/-- `fields.get(key, default)` -/
def getD (fields : List (Text × Json)) (key : Text) (default : Json) : Json :=
  match fields.lookup key with
  | some value => value
  | none => default

/-- `value == word` for a literal of the source. -/
def isText (value : Json) (word : Text) : Bool :=
  match value with
  | .str s => s == word
  | _ => false

/-- `value or default` -/
def orElse (value default : Json) : Json :=
  if value.truthy then value else default

/-- A number in hexadecimal with a given number of digits. -/
def hexEscape : Nat -> Nat -> Text
  | 0, _ => []
  | width + 1, n => hexEscape width (n / 16) ++ [digitChar (n % 16)]

/-- How a character is written in the `repr` of a string with a given quote. -/
def reprChar (quote : CodePoint) (c : CodePoint) : Text :=
  if c = 0x5C then text "\\\\"
  else if c = quote then text "\\" ++ [c]
  else if c = 0x09 then text "\\t"
  else if c = 0x0A then text "\\n"
  else if c = 0x0D then text "\\r"
  else if isPrintable c then [c]
  else if c.val ≤ 0xFF then text "\\x" ++ hexEscape 2 c.val
  else if c.val ≤ 0xFFFF then text "\\u" ++ hexEscape 4 c.val
  else text "\\U" ++ hexEscape 8 c.val

/-- `repr(s)` -/
def quoted (s : Text) : Text :=
  let quote : CodePoint := if 0x27 ∈ s ∧ 0x22 ∉ s then 0x22 else 0x27
  [quote] ++ s.flatMap (reprChar quote) ++ [quote]

mutual
/-- `repr(value)`, for the elements of lists and dicts. -/
def reprText : Json -> Text
  | .null => text "None"
  | .bool true => text "True"
  | .bool false => text "False"
  | .int n => intText n
  | .float repr => repr
  | .str s => quoted s
  | .arr items => text "[" ++ reprItems items ++ text "]"
  | .obj fields => text "\x7b" ++ reprFields fields ++ text "\x7d"

def reprItems : List Json -> Text
  | [] => []
  | [item] => reprText item
  | item :: rest => reprText item ++ text ", " ++ reprItems rest

def reprFields : List (Text × Json) -> Text
  | [] => []
  | [(key, value)] => quoted key ++ text ": " ++ reprText value
  | (key, value) :: rest =>
      quoted key ++ text ": " ++ reprText value ++ text ", " ++ reprFields rest
end

/-- `str(value)`: a string is itself, anything else its `repr`. -/
def pyStr : Json -> Text
  | .str s => s
  | value => reprText value

end Json
end Python
end ConversationService
