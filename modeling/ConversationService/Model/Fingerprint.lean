import Mathlib.Data.List.Lex
import Mathlib.Data.List.Sort
import Mathlib.Data.Prod.Lex
import ConversationService.Python.Uuid5

/-!
# Artifact fingerprints (`app/artifacts/fingerprint.py`)

The canonical text of a Manim specification or a Mermaid diagram, its fingerprint, and the
id and the object keys that follow from it. `nfc` is `unicodedata.normalize("NFC", _)`.
-/

namespace ConversationService

open Python

inductive ArtifactType where
  | mermaid
  | manim
deriving DecidableEq, Repr

def ArtifactType.value : ArtifactType -> Text
  | .mermaid => text "mermaid"
  | .manim => text "manim"

namespace Fingerprint

def specVersion : Text := text "1.0"

def namespaceUuid : UUID := .ofInt 0x6f1c2d5e3a474b9e9d0a5b7c1e8a2f64

/-!
# JSON output
-/

/-- A character in a JSON string, with `ensure_ascii=False`. -/
def dumpsChar (c : CodePoint) : Text :=
  if c = 0x22 then text "\\\""
  else if c = 0x5C then text "\\\\"
  else if c = 0x08 then text "\\b"
  else if c = 0x09 then text "\\t"
  else if c = 0x0A then text "\\n"
  else if c = 0x0C then text "\\f"
  else if c = 0x0D then text "\\r"
  else if c.val < 0x20 then
    text "\\u00" ++ [digitChar (c.val / 16), digitChar (c.val % 16)]
  else [c]

def dumpsText (s : Text) : Text :=
  text "\"" ++ s.flatMap dumpsChar ++ text "\""

def dumpsFloat (repr : Text) : Text :=
  if repr = text "nan" then text "NaN"
  else if repr = text "inf" then text "Infinity"
  else if repr = text "-inf" then text "-Infinity"
  else repr

/-- The members of an object, in the order of their keys. -/
def sortFields {α : Type} (fields : List (Text × α)) : List (Text × α) :=
  fields.insertionSort (fun a b => a.1 ≤ b.1)

mutual
/-- `json.dumps(value, sort_keys=True, separators=(",", ":"), ensure_ascii=False)` -/
def dumps : Json -> Text
  | .null => text "null"
  | .bool true => text "true"
  | .bool false => text "false"
  | .int n => intText n
  | .float repr => dumpsFloat repr
  | .str s => dumpsText s
  | .arr items => text "[" ++ join (text ",") (dumpsItems items) ++ text "]"
  | .obj fields =>
      text "\x7b" ++
        join (text ",") ((sortFields (dumpsFields fields)).map (fun field =>
          dumpsText field.1 ++ text ":" ++ field.2)) ++
        text "\x7d"

def dumpsItems : List Json -> List Text
  | [] => []
  | item :: rest => dumps item :: dumpsItems rest

def dumpsFields : List (Text × Json) -> List (Text × Text)
  | [] => []
  | (key, value) :: rest => (key, dumps value) :: dumpsFields rest
end

/-!
# Manim specifications
-/

/-- `\s+` replaced by one space; `space` says that the last character was one. -/
def collapseFrom : Bool -> Text -> Text
  | _, [] => []
  | space, c :: rest =>
      if isSpace c then (if space then [] else [0x20]) ++ collapseFrom true rest
      else c :: collapseFrom false rest

/-- `_WS.sub(" ", s).strip()` -/
def collapse (s : Text) : Text :=
  strip (collapseFrom false s)

/-- A dict literal or comprehension: a later value replaces an earlier one of the key. -/
def dictOf {α : Type} (fields : List (Text × α)) : List (Text × α) :=
  fields.foldl (fun dict field =>
    if dict.any (fun f => f.1 = field.1) then
      dict.map (fun f => if f.1 = field.1 then field else f)
    else dict ++ [field]) []

section Normalise

variable (nfc : Text -> Text)

mutual
/-- `_normalise(value, depth)`, with `none` where it raises. -/
def normalise (depth : Nat) : Json -> Option Json
  | .null => if 12 < depth then none else some .null
  | .bool b => if 12 < depth then none else some (.bool b)
  | .int n => if 12 < depth then none else some (.int n)
  | .float repr => if 12 < depth then none else some (.float repr)
  | .str s => if 12 < depth then none else some (.str (nfc s))
  | .arr items => if 12 < depth then none else (normaliseItems (depth + 1) items).map .arr
  | .obj fields =>
      if 12 < depth then none
      else
        (normaliseFields (depth + 1) fields).map (fun fields =>
          .obj (dictOf ((sortFields fields).map (fun field => (nfc field.1, field.2)))))

def normaliseItems (depth : Nat) : List Json -> Option (List Json)
  | [] => some []
  | item :: rest =>
      (normalise depth item).bind (fun item =>
        (normaliseItems depth rest).map (fun rest => item :: rest))

def normaliseFields (depth : Nat) : List (Text × Json) -> Option (List (Text × Json))
  | [] => some []
  | (key, value) :: rest =>
      (normalise depth value).bind (fun value =>
        (normaliseFields depth rest).map (fun rest => (key, value) :: rest))
end

def allowedKeys : List Text :=
  [text "schema_version", text "template", text "title", text "params"]

/-- `spec.get("template")`, if it is a text that is not blank. -/
def template? (spec : List (Text × Json)) : Option Text :=
  match Json.get spec (text "template") with
  | .str s => if (strip s).isEmpty then none else some s
  | _ => none

def params? (spec : List (Text × Json)) : Option Json :=
  match Json.getD spec (text "params") (.obj []) with
  | .obj fields => some (.obj fields)
  | _ => none

def title? (spec : List (Text × Json)) : Option Text :=
  match Json.getD spec (text "title") (.str []) with
  | .str s => some s
  | _ => none

def canonicalFields (spec : List (Text × Json)) (template title : Text) (params : Json) :
    Json :=
  .obj
    [(text "schema_version",
        .str (Json.pyStr (Json.getD spec (text "schema_version") (.str specVersion)))),
      (text "template", .str (strip template)),
      (text "title", .str (collapse (nfc title))),
      (text "params", params)]

/-- The canonical specification, or `none` where it raises `ArtifactSpecError`. -/
def canonicalSpec (spec : Json) : Option Json :=
  match spec with
  | .obj fields =>
      if fields.all (fun field => allowedKeys.contains field.1) then
        (template? fields).bind (fun template =>
          (params? fields).bind (fun params =>
            (title? fields).bind (fun title =>
              (normalise nfc 0 params).map (fun params =>
                canonicalFields nfc fields template title params))))
      else none
  | _ => none

/-- `canonical_manim_spec(spec, max_chars)` -/
def canonicalManimSpec (spec : Json) (maxChars : Nat) : Option Text :=
  (canonicalSpec nfc spec).bind (fun canonical =>
    if maxChars < (dumps canonical).length then none else some (dumps canonical))

/-!
# Mermaid diagrams
-/

/-- `s.replace("\r\n", "\n").replace("\r", "\n")` -/
def unifyLineEnds : Text -> Text
  | 0x0D :: 0x0A :: rest => 0x0A :: unifyLineEnds rest
  | 0x0D :: rest => 0x0A :: unifyLineEnds rest
  | c :: rest => c :: unifyLineEnds rest
  | [] => []

/-- `line.rstrip()` -/
def rstrip (line : Text) : Text :=
  (line.reverse.dropWhile isSpace).reverse

/-- `canonical_mermaid_source(source, max_chars)` -/
def canonicalMermaidSource (source : Json) (maxChars : Nat) : Option Text :=
  match source with
  | .str s =>
      if (strip s).isEmpty then none
      else
        let lines := (unifyLineEnds (nfc s)).splitOn 0x0A
        let canonical := stripBy (fun c => c = 0x0A) (join [0x0A] (lines.map rstrip))
        if (strip canonical).isEmpty ∨ maxChars < canonical.length then none
        else some canonical
  | _ => none

end Normalise

/-!
# Fingerprints and what follows from them
-/

/-- `compute_fingerprint(...)`, with `none` where the encoding raises. -/
def computeFingerprint (type : ArtifactType) (canonicalText rendererVersion quality : Text) :
    Option Text :=
  let configuration := if type = .mermaid then ([], []) else (rendererVersion, quality)
  (utf8Encode (join [0]
    [text "fp1", type.value, configuration.1, configuration.2, canonicalText])).map sha256Hex

def artifactIdFor (owner : UUID) (type : ArtifactType) (fingerprint : Text) : UUID :=
  uuid5 namespaceUuid
    ((owner.toText ++ text ":" ++ type.value ++ text ":" ++ fingerprint).flatMap utf8Char)

def videoObjectKey (artifactId : UUID) : Text :=
  text "artifacts/" ++ artifactId.toText ++ text "/video.mp4"

def thumbnailObjectKey (artifactId : UUID) : Text :=
  text "artifacts/" ++ artifactId.toText ++ text "/thumb.png"

end Fingerprint
end ConversationService
