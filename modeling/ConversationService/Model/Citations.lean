import ConversationService.Model.Entities

/-!
# Citations (`app/services/citations.py`)
-/

namespace ConversationService

open Python

def maxCitations : Nat := 50

def maxFieldChars : Nat := 300

def maxJsonBytes : Nat := 32000

def maxSeconds : Int := 9999999

namespace Citations

def isFileIdChar (c : CodePoint) : Bool :=
  let n := c.val
  (0x41 ≤ n && n ≤ 0x5A) || (0x61 ≤ n && n ≤ 0x7A) || (0x30 ≤ n && n ≤ 0x39) ||
    n == 0x5F || n == 0x2D

/-- `_FILE_ID.match(s)`; the `$` of the pattern also matches before a last newline. -/
def fileIdMatches (s : Text) : Bool :=
  let body := if s.getLast? == some 0x0A then s.dropLast else s
  1 ≤ body.length && body.length ≤ 64 && body.all isFileIdChar

/-- `_text(value)` -/
def textOf (value : Json) : Option Text :=
  match value with
  | .str s =>
      let cut := (strip s).take maxFieldChars
      if cut.isEmpty then none else some cut
  | _ => none

/-- `_int(value, upper)` -/
def intOf (value : Json) (upper : Int) : Option Int :=
  match value with
  | .int n => if 0 ≤ n ∧ n ≤ upper then some n else none
  | _ => none

def cleanRange (fields : List (Text × Json)) : Option CitationRange :=
  match intOf (Json.get fields (text "start_seconds")) maxSeconds with
  | some start =>
      let stop := intOf (Json.get fields (text "end_seconds")) maxSeconds
      some ⟨start, stop.filter (fun e => start ≤ e)⟩
  | none => none

def cleanOne (raw : Json) : Option Citation :=
  match raw with
  | .obj fields =>
      match Json.get fields (text "file_id") with
      | .str fileId =>
          if fileIdMatches fileId then
            some
              { fileId := fileId
                sourceName := (textOf (Json.get fields (text "source_name"))).getD []
                pageNumber := intOf (Json.get fields (text "page_number")) 100000
                sectionName := textOf (Json.get fields (text "section"))
                range := cleanRange fields }
          else none
      | _ => none
  | _ => none

/-!
# The stored text

`dumps_citations` writes the keys in alphabetical order and escapes only what
JSON requires.
-/

def jsonChar (c : CodePoint) : Text :=
  let n := c.val
  if n = 0x22 then text "\\\""
  else if n = 0x5C then text "\\\\"
  else if n = 0x0A then text "\\n"
  else if n = 0x0D then text "\\r"
  else if n = 0x09 then text "\\t"
  else if n = 0x08 then text "\\b"
  else if n = 0x0C then text "\\f"
  else if n < 0x20 then
    text "\\u00" ++ [digitChar (n / 16), digitChar (n % 16)]
  else [c]

def jsonString (s : Text) : Text :=
  text "\"" ++ s.flatMap jsonChar ++ text "\""

def jsonOption {alpha : Type} (write : alpha -> Text) : Option alpha -> Text
  | some a => write a
  | none => text "null"

def dumpCitation (c : Citation) : Text :=
  let stop :=
    match c.range with
    | some r => text "\"end_seconds\":" ++ jsonOption intText r.endSeconds ++ text ","
    | none => []
  let start :=
    match c.range with
    | some r => text ",\"start_seconds\":" ++ intText r.startSeconds
    | none => []
  text "\x7b" ++ stop ++
    text "\"file_id\":" ++ jsonString c.fileId ++
    text ",\"page_number\":" ++ jsonOption intText c.pageNumber ++
    text ",\"section\":" ++ jsonOption jsonString c.sectionName ++
    text ",\"source_name\":" ++ jsonString c.sourceName ++
    start ++ text "\x7d"

def dumpsCitations (citations : List Citation) : Text :=
  text "[" ++ join (text ",") (citations.map dumpCitation) ++ text "]"

/-- The JSON value of a citation list, as it is stored and published. -/
def toJson (citations : List Citation) : Json :=
  let number (n : Option Int) : Json := match n with | some i => .int i | none => .null
  let string (s : Option Text) : Json := match s with | some t => .str t | none => .null
  .arr (citations.map (fun c =>
    .obj
      ([(text "file_id", .str c.fileId), (text "source_name", .str c.sourceName),
        (text "page_number", number c.pageNumber),
        (text "section", string c.sectionName)] ++
        match c.range with
        | some r =>
            [(text "start_seconds", .int r.startSeconds),
              (text "end_seconds", number r.endSeconds)]
        | none => [])))

/-!
# Sanitising
-/

/-- The loop of `sanitize_citations`; two entries are equal when their dumps are. -/
def collect : List Citation -> List Json -> List Citation
  | cleaned, [] => cleaned
  | cleaned, item :: rest =>
      match cleanOne item with
      | none => collect cleaned rest
      | some c =>
          if c ∈ cleaned then collect cleaned rest
          else if maxCitations ≤ (cleaned ++ [c]).length then cleaned ++ [c]
          else collect (cleaned ++ [c]) rest

/-- The final `while` loop; `none` where the UTF-8 encoding raises. -/
def shrink : Nat -> List Citation -> Option (List Citation)
  | 0, cleaned => some cleaned
  | n + 1, cleaned =>
      if cleaned.isEmpty then some cleaned
      else
        match utf8Length (dumpsCitations cleaned) with
        | none => none
        | some size =>
            if maxJsonBytes < size then shrink n cleaned.dropLast else some cleaned

/-- `sanitize_citations(raw)`, with `none` where it raises `UnicodeEncodeError`. -/
def sanitizeCitations (raw : Json) : Option (List Citation) :=
  match raw with
  | .arr items =>
      let cleaned := collect [] items
      shrink cleaned.length cleaned
  | _ => some []

/-- `loads_citations(stored)`; the column is kept as the JSON value of its text. -/
def loadsCitations (stored : Option Json) : List Citation :=
  match stored with
  | some value => (sanitizeCitations value).getD []
  | none => []

end Citations
end ConversationService
