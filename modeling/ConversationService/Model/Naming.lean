import ConversationService.Python.Uuid

/-!
# Names in archives (`app/exports/naming.py`)

`nfkd` is `unicodedata.normalize("NFKD", _)`.
-/

namespace ConversationService

open Python

namespace Naming

/-- `[a-z0-9._-]` -/
def isSafe (c : CodePoint) : Bool :=
  (0x61 ≤ c.val && c.val ≤ 0x7A) || (0x30 ≤ c.val && c.val ≤ 0x39) ||
    c = 0x2E || c = 0x5F || c = 0x2D

/-- `_UNSAFE.sub("-", s)`; `dash` says that the last character was unsafe. -/
def replaceUnsafe : Bool -> Text -> Text
  | _, [] => []
  | dash, c :: rest =>
      if isSafe c then c :: replaceUnsafe false rest
      else (if dash then [] else [0x2D]) ++ replaceUnsafe true rest

/-- `-._` -/
def isEdge (c : CodePoint) : Bool :=
  c = 0x2D || c = 0x2E || c = 0x5F

/-- `_WINDOWS_RESERVED` -/
def windowsReserved : List Text :=
  [text "con", text "prn", text "aux", text "nul"] ++
    (List.range 9).map (fun i => text "com" ++ [digitChar (i + 1)]) ++
    (List.range 9).map (fun i => text "lpt" ++ [digitChar (i + 1)])

section Slug

variable (nfkd : Text -> Text)

/-- `normalize("NFKD", s).encode("ascii", "ignore").decode("ascii").lower()` -/
def asciiText (s : Text) : Text :=
  ((nfkd s).filter (fun c => c.val < 0x80)).map lowerAscii

/-- `slug(s, max_len, fallback)` -/
def slug (s : Text) (maxLen : Nat) (fallback : Text) : Text :=
  let cleaned := stripBy isEdge
    ((stripBy isEdge (replaceUnsafe false (asciiText nfkd s))).take maxLen)
  if cleaned.isEmpty || windowsReserved.contains cleaned then fallback else cleaned

/-- `str(id).replace("-", "")[:8]` -/
def shortId (id : UUID) : Text :=
  (removeAll (text "-") id.toText).take 8

def conversationDir (title : Option Text) (conversationId : UUID) : Text :=
  slug nfkd (title.getD []) 40 (text "conversation") ++ text "-" ++ shortId conversationId

end Slug

/-- A part of a path that `validate_archive_path` does not refuse. -/
def isSafePart (part : Text) : Bool :=
  !(part.isEmpty || part = text "." || part = text ".." || 120 < part.length ||
    part.any (fun c => c.val < 32))

/-- `validate_archive_path(path)` does not raise. -/
def isSafeArchivePath (path : Text) : Bool :=
  !(path.isEmpty || path.head? = some 0x2F || path.contains 0x5C || path.contains 0 ||
      path.contains 0x3A) &&
    (path.splitOn 0x2F).all isSafePart

end Naming
end ConversationService
