import ConversationService.Python.Sha256

/-!
# Verification of a rendered video (`app/artifacts/media.py`)
-/

namespace ConversationService

open Python

structure MediaInfo where
  size : Nat
  sha256 : Text
deriving DecidableEq, Repr

namespace Media

def minMp4Bytes : Nat := 1024

/-- A big-endian number. -/
def bigEndian (bytes : Bytes) : Nat :=
  bytes.foldl (fun n b => n * 256 + b.toNat) 0

/-- The size of the box at the head of the rest of a file, with the size of its header. -/
def boxSize? (rest : Bytes) : Option (Nat × Nat) :=
  if rest.length < 8 then none
  else
    let size := bigEndian (rest.take 4)
    if size = 1 then
      if rest.length < 16 then none else some (bigEndian ((rest.drop 8).take 8), 16)
    else if size = 0 then some (rest.length, 8)
    else some (size, 8)

/-- The types of the boxes, which have to tile the file; each takes eight bytes at least. -/
def walkBoxes : Nat -> Bytes -> Option (List Bytes)
  | _, [] => some []
  | 0, _ :: _ => none
  | steps + 1, rest =>
      match boxSize? rest with
      | some (size, minSize) =>
          if size < minSize ∨ rest.length < size then none
          else (walkBoxes steps (rest.drop size)).map (fun types =>
            (rest.drop 4).take 4 :: types)
      | none => none

def ftyp : Bytes := [0x66, 0x74, 0x79, 0x70]

def moov : Bytes := [0x6D, 0x6F, 0x6F, 0x76]

def mdat : Bytes := [0x6D, 0x64, 0x61, 0x74]

/-- `validate_mp4(path, max_bytes)`, with `none` where it raises `InvalidMedia`. -/
def validateMp4 (file : Bytes) (maxBytes : Nat) : Option MediaInfo :=
  if file.length < minMp4Bytes ∨ maxBytes < file.length then none
  else
    match walkBoxes file.length file with
    | some types =>
        if types.head? = some ftyp ∧ types.contains moov ∧ types.contains mdat then
          some { size := file.length, sha256 := sha256Hex file }
        else none
    | none => none

theorem size_of_validateMp4 {file : Bytes} {maxBytes : Nat} {info : MediaInfo}
    (h : validateMp4 file maxBytes = some info) :
    info.size = file.length ∧ minMp4Bytes ≤ info.size := by
  unfold validateMp4 at h
  split at h
  · cases h
  · rename_i hbounds
    rw [not_or, Nat.not_lt] at hbounds
    split at h
    · split at h
      · cases h
        exact ⟨rfl, hbounds.left⟩
      · cases h
    · cases h

theorem sha256_of_validateMp4 {file : Bytes} {maxBytes : Nat} {info : MediaInfo}
    (h : validateMp4 file maxBytes = some info) : info.sha256 = sha256Hex file := by
  unfold validateMp4 at h
  split at h
  · cases h
  · split at h
    · split at h
      · cases h
        rfl
      · cases h
    · cases h

end Media
end ConversationService
