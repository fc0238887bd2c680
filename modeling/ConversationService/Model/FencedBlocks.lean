import ConversationService.Python.Strip

/-!
# Fenced blocks (`app/exports/blocks.py`)

The Mermaid and Manim fences in the text of a message. A fence is found line by line: the
expression anchors both of its ends at line starts.
-/

namespace ConversationService

open Python

structure FencedBlock where
  kind : Text
  body : Text
deriving DecidableEq, Repr

namespace FencedBlock

/-- A letter of `mermaid` or `manim` under `re.IGNORECASE`; two more characters fold to `i`. -/
def matchesLetter (letter c : CodePoint) : Bool :=
  c = letter || c.val + 0x20 = letter.val || (letter = 0x69 && (c = 0x130 || c = 0x131))

/-- The characters of the word at the start of a text, and what follows them. -/
def matchWord : Text -> Text -> Option (Text × Text)
  | [], s => some ([], s)
  | letter :: word, c :: rest =>
      if matchesLetter letter c then
        (matchWord word rest).map (fun found => (c :: found.1, found.2))
      else none
  | _ :: _, [] => none

/-- `[A-Za-z0-9_-]` under `re.IGNORECASE` -/
def isWordCharacter (c : CodePoint) : Bool :=
  (0x41 ≤ c.val && c.val ≤ 0x5A) || (0x61 ≤ c.val && c.val ≤ 0x7A) ||
    (0x30 ≤ c.val && c.val ≤ 0x39) || c = 0x5F || c = 0x2D ||
    c = 0x130 || c = 0x131 || c = 0x17F || c = 0x212A

def isBlankOrTab (c : CodePoint) : Bool :=
  c = 0x20 || c = 0x09

def isFenceCharacter (c : CodePoint) : Bool :=
  c = 0x60 || c = 0x7E

/-- A line without an indentation of at most three blanks. -/
def unindent (line : Text) : Option Text :=
  if 3 < (line.takeWhile (fun c => c = 0x20)).length then none
  else some (line.dropWhile (fun c => c = 0x20))

/-- At least three backticks or at least three tildes, and what follows them. -/
def fenceOf (s : Text) : Option (Text × Text) :=
  match s with
  | c :: _ =>
      let fence := s.takeWhile (fun d => d = c)
      if isFenceCharacter c && 3 ≤ fence.length then
        some (fence, s.dropWhile (fun d => d = c))
      else none
  | [] => none

/-- The language of a fence, which no word character follows, with no backtick behind it. -/
def languageOf (s : Text) : Option Text :=
  let s := s.dropWhile isBlankOrTab
  match (matchWord (text "mermaid") s).or (matchWord (text "manim") s) with
  | some (lang, rest) =>
      if rest.head?.any isWordCharacter || rest.contains 0x60 then none else some lang
  | none => none

/-- The line that opens a fence: the fence and its language. -/
def opening (line : Text) : Option (Text × Text) :=
  (unindent line).bind (fun s =>
    (fenceOf s).bind (fun found =>
      (languageOf found.2).map (fun lang => (found.1, lang))))

/-- The line that closes it: the same fence, more fence characters, and blanks. -/
def closes (fence line : Text) : Bool :=
  (unindent line).any (fun s =>
    fence.isPrefixOf s &&
      (((s.drop fence.length).dropWhile isFenceCharacter).all isBlankOrTab))

/-- `lang.lower()` for the characters that it can have -/
def lowerCharacter (c : CodePoint) : Text :=
  if c = 0x130 then [0x69, 0x307]
  else [lowerAscii c]

/-- `body.rstrip("\n")` -/
def bodyOf (lines : List Text) : Text :=
  ((lines.flatMap (fun line => line ++ [0x0A])).reverse.dropWhile (fun c => c = 0x0A)).reverse

/-- The blocks of the lines behind the first `skipped`, which are in a block already. -/
def blocksFrom : Nat -> List Text -> List FencedBlock
  | _, [] => []
  | skipped + 1, _ :: rest => blocksFrom skipped rest
  | 0, line :: rest =>
      match opening line with
      | some (fence, lang) =>
          match rest.findIdx? (closes fence) with
          | some n =>
              { kind := lang.flatMap lowerCharacter, body := bodyOf (rest.take n) } ::
                blocksFrom (n + 1) rest
          | none => blocksFrom 0 rest
      | none => blocksFrom 0 rest

/-- `find_blocks(content)` -/
def findBlocks (content : Option Text) : List FencedBlock :=
  blocksFrom 0 ((content.getD []).splitOn 0x0A)

end FencedBlock
end ConversationService
