import ConversationService.Model.Media

/-!
# Reading a video (`_walk_boxes` and `validate_mp4` of `app/artifacts/media.py`)

The walk reads from positions of the open file, and every read may give fewer bytes than
were asked for.
-/

namespace ConversationService

open Python

/-- `InvalidMedia`, or what `struct.unpack` raises on bytes of another length. -/
inductive MediaExc where
  | invalidMedia (message : Text)
  | structError
deriving DecidableEq, Repr

namespace BoxWalk

/-- `f.seek(pos)` and `f.read(n)` -/
def readAt (file : Bytes) (pos n : Nat) : Bytes :=
  (file.drop pos).take n

/-- `struct.unpack(">I4s", header)` -/
def unpackHeader (header : Bytes) : Except MediaExc (Nat × Bytes) :=
  if header.length = 8 then .ok (Media.bigEndian (header.take 4), header.drop 4)
  else .error .structError

/-- `struct.unpack(">Q", ext)[0]` -/
def unpackLong (ext : Bytes) : Except MediaExc Nat :=
  if ext.length = 8 then .ok (Media.bigEndian ext) else .error .structError

def truncated : MediaExc := .invalidMedia (text "truncated box header")

/-- A box as its header describes it. -/
structure BoxHeader where
  boxSize : Nat
  minSize : Nat
  boxType : Bytes
deriving DecidableEq, Repr

/-- The header of the box at a position. -/
def boxHeader (file : Bytes) (size pos : Nat) : Except MediaExc BoxHeader :=
  let header := readAt file pos 8
  if header.length < 8 then .error truncated
  else
    match unpackHeader header with
    | .error e => .error e
    | .ok (boxSize, boxType) =>
        if boxSize = 1 then
          let ext := readAt file (pos + 8) 8
          if ext.length < 8 then .error truncated
          else (unpackLong ext).map (fun boxSize => ⟨boxSize, 16, boxType⟩)
        else if boxSize = 0 then .ok ⟨size - pos, 8, boxType⟩
        else .ok ⟨boxSize, 8, boxType⟩

theorem minSize_pos {file : Bytes} {size pos : Nat} {box : BoxHeader}
    (h : boxHeader file size pos = .ok box) : 8 ≤ box.minSize := by
  unfold boxHeader at h
  dsimp only at h
  split at h
  · cases h
  · split at h
    · cases h
    · split at h
      · split at h
        · cases h
        · unfold unpackLong at h
          split at h
          · cases h
            exact Nat.le_add_right 8 8
          · cases h
      · split at h <;> cases h <;> exact Nat.le_refl 8

/-- The loop of `_walk_boxes`: every box that is taken is at least eight bytes long. -/
def walkFrom (file : Bytes) (size pos : Nat) (seen : List Bytes) :
    Except MediaExc (List Bytes) :=
  if pos < size then
    match _hbox : boxHeader file size pos with
    | .error e => .error e
    | .ok box =>
        if box.boxSize < box.minSize ∨ size < pos + box.boxSize then
          .error (.invalidMedia (text "box exceeds file bounds"))
        else walkFrom file size (pos + box.boxSize) (seen ++ [box.boxType])
  else .ok seen
termination_by size - pos
decreasing_by
  have hmin := minSize_pos _hbox
  omega

/-- `_walk_boxes(f, size)`; the set is kept as the list it is made of. -/
def walkBoxes (file : Bytes) (size : Nat) : Except MediaExc (List Bytes) :=
  match walkFrom file size 0 [] with
  | .error e => .error e
  | .ok seen =>
      if seen.head? = some Media.ftyp then .ok seen
      else .error (.invalidMedia (text "not an MP4 (missing ftyp)"))

/-- `_CHUNK` -/
def chunkBytes : Nat := 1024 * 1024

/-- `iter(lambda: f.read(_CHUNK), b"")` from a position. -/
def chunksFrom (file : Bytes) (pos : Nat) : List Bytes :=
  if readAt file pos chunkBytes = [] then []
  else
    readAt file pos chunkBytes :: chunksFrom file (pos + (readAt file pos chunkBytes).length)
termination_by file.length - pos
decreasing_by
  rename_i hchunk
  have hpos := List.length_pos_iff.mpr hchunk
  have hlength : (readAt file pos chunkBytes).length ≤ file.length - pos := by
    unfold readAt
    rw [List.length_take, List.length_drop]
    omega
  omega

/-- `validate_mp4(path, max_bytes)` of a file that can be read. -/
def validateMp4 (file : Bytes) (maxBytes : Int) : Except MediaExc MediaInfo :=
  let size := file.length
  if size < Media.minMp4Bytes then .error (.invalidMedia (text "too small"))
  else if maxBytes < size then .error (.invalidMedia (text "too large"))
  else
    match walkBoxes file size with
    | .error e => .error e
    | .ok boxes =>
        if ¬(Media.moov ∈ boxes ∧ Media.mdat ∈ boxes) then
          .error (.invalidMedia (text "missing moov/mdat"))
        else .ok { size := size, sha256 := sha256Hex (chunksFrom file 0).flatten }

end BoxWalk
end ConversationService
