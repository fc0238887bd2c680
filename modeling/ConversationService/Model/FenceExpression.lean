import ConversationService.Library.Backtracking
import ConversationService.Model.FencedBlocks

/-!
# The expression for fences (`app/exports/blocks.py`)

`_FENCE` as it is written, under `re.DOTALL | re.MULTILINE | re.IGNORECASE`, and `find_blocks`
over its matches. `Model/FencedBlocks` has the lines that it comes down to.
-/

namespace ConversationService

open Python Backtracking

/-- `FencedBlock` with the places of the text where it starts and ends -/
structure LocatedBlock extends FencedBlock where
  start : Nat
  stop : Nat
deriving DecidableEq, Repr

namespace FenceExpression

abbrev Expression : Type := Pattern CodePoint

/-- What is on the other side of `^` and of `$`. -/
def isLineBoundary : Option CodePoint -> Bool
  | none => true
  | some c => c = 0x0A

def lineStart : Expression := .behind isLineBoundary

def lineEnd : Expression := .ahead isLineBoundary

def isBlank (c : CodePoint) : Bool :=
  c = 0x20

/-- `[ ]{0,3}` -/
def indent : Expression := .many isBlank 0 (some 3) true

def star (p : CodePoint -> Bool) : Expression := .many p 0 none true

/-- A word, letter by letter. -/
def word : Text -> Expression
  | [] => .ahead (fun _ => true)
  | letter :: rest => .seq (.char (FencedBlock.matchesLetter letter)) (word rest)

/-- The character, at least three times. -/
def fenceRun (fence : CodePoint) : Expression := .many (fun c => c = fence) 3 none true

/-- `(?P<lang>mermaid|manim)` -/
def lang : Expression := .group 3 (.alt (word (text "mermaid")) (word (text "manim")))

/-- What follows the language up to the end of the line. -/
def isInfo (c : CodePoint) : Bool :=
  !(c = 0x0A) && !(c = 0x60)

/-- The part before the body; the groups are `indent`, `fence` and `lang`. -/
def opening : Expression :=
  .seq lineStart
    (.seq (.group 1 indent)
      (.seq (.group 2 (.alt (fenceRun 0x60) (fenceRun 0x7E)))
        (.seq (star FencedBlock.isBlankOrTab)
          (.seq lang
            (.seq (.ahead (fun c => !c.any FencedBlock.isWordCharacter))
              (.seq (star isInfo) (.char (fun c => c = 0x0A))))))))

/-- `(?P<body>.*?)` -/
def anything : Expression := .many (fun _ => true) 0 none false

/-- The part behind the body. -/
def closing : Expression :=
  .seq lineStart
    (.seq indent
      (.seq (.again 2)
        (.seq (star FencedBlock.isFenceCharacter)
          (.seq (star FencedBlock.isBlankOrTab) lineEnd))))

/-- `_FENCE` -/
def fence : Expression := .seq opening (.seq (.group 4 anything) closing)

/-- `rstrip("\n")` -/
def rstripNewlines (s : Text) : Text :=
  (s.reverse.dropWhile (fun c => c = 0x0A)).reverse

def blockOf (found : Found CodePoint) : LocatedBlock :=
  { kind := ((found.stop.groups 3).getD []).flatMap FencedBlock.lowerCharacter
    body := rstripNewlines ((found.stop.groups 4).getD [])
    start := found.start
    stop := found.stop.pos }

/-- `find_blocks(content)` -/
def findBlocks (content : Option Text) : List LocatedBlock :=
  (find fence (content.getD [])).map blockOf

end FenceExpression
end ConversationService
