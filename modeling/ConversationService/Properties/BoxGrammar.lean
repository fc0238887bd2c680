import ConversationService.Model.BoxWalk

/-!
# The files that are accepted as videos

The grammar of a file that consists of boxes, against the walk over the file: the walk
ends without an exception exactly on the files of the grammar, with the types of the boxes
in their order, and raises nothing but `InvalidMedia` on any other one.
-/

namespace ConversationService
namespace BoxWalk

open Python

/-!
# Grammar
-/

/--
A file made of boxes with the given types. A box starts with its size in four bytes and
its type. The size counts the whole box; 1 stands for a size in the eight bytes that
follow, and 0 for the rest of the file.
-/
inductive Tiles : List Bytes -> Bytes -> Prop where
  | nil : Tiles [] []
  | short {types : List Bytes} {size type payload rest : Bytes} :
      size.length = 4 -> type.length = 4 ->
      Media.bigEndian size = (size ++ type ++ payload).length ->
      Tiles types rest -> Tiles (type :: types) (size ++ type ++ payload ++ rest)
  | long {types : List Bytes} {size type ext payload rest : Bytes} :
      size.length = 4 -> type.length = 4 -> ext.length = 8 ->
      Media.bigEndian size = 1 ->
      Media.bigEndian ext = (size ++ type ++ ext ++ payload).length ->
      Tiles types rest -> Tiles (type :: types) (size ++ type ++ ext ++ payload ++ rest)
  | toEnd {size type payload : Bytes} :
      size.length = 4 -> type.length = 4 -> Media.bigEndian size = 0 ->
      Tiles [type] (size ++ type ++ payload)

theorem tiles_nil {types : List Bytes} (h : Tiles types []) : types = [] := by
  generalize hfile : ([] : Bytes) = file at h
  cases h with
  | nil => rfl
  | short hsize _ _ _ =>
      have hlength := congrArg List.length hfile
      simp only [List.length_append, List.length_nil, hsize] at hlength
      omega
  | long hsize _ _ _ _ _ =>
      have hlength := congrArg List.length hfile
      simp only [List.length_append, List.length_nil, hsize] at hlength
      omega
  | toEnd hsize _ _ =>
      have hlength := congrArg List.length hfile
      simp only [List.length_append, List.length_nil, hsize] at hlength
      omega

/-- A complete video of an allowed size. -/
def IsVideo (file : Bytes) (maxBytes : Int) : Prop :=
  Media.minMp4Bytes ≤ file.length ∧ (file.length : Int) ≤ maxBytes ∧
    exists types, Tiles types file ∧ types.head? = some Media.ftyp ∧
      Media.moov ∈ types ∧ Media.mdat ∈ types

/-!
# Headers
-/

theorem readAt_eq_take {file rest : Bytes} {pos : Nat} (h : file.drop pos = rest) (n : Nat) :
    readAt file pos n = rest.take n := by
  rw [readAt, h]

theorem readAt_add {file rest : Bytes} {pos : Nat} (h : file.drop pos = rest) (k n : Nat) :
    readAt file (pos + k) n = (rest.drop k).take n := by
  rw [readAt, ← List.drop_drop, h]

theorem boxHeader_truncated {file rest : Bytes} {pos : Nat} (h : file.drop pos = rest)
    (hshort : rest.length < 8) : boxHeader file file.length pos = .error truncated := by
  unfold boxHeader
  rw [readAt_eq_take h]
  exact if_pos (by rw [List.length_take]; omega)

theorem boxHeader_eq {file size type tail : Bytes} {pos : Nat}
    (h : file.drop pos = size ++ type ++ tail) (hsize : size.length = 4)
    (htype : type.length = 4) :
    boxHeader file file.length pos =
      if Media.bigEndian size = 1 then
        if tail.length < 8 then .error truncated
        else .ok ⟨Media.bigEndian (tail.take 8), 16, type⟩
      else if Media.bigEndian size = 0 then .ok ⟨file.length - pos, 8, type⟩
      else .ok ⟨Media.bigEndian size, 8, type⟩ := by
  have hhead : (size ++ type).length = 8 := by rw [List.length_append, hsize, htype]
  have hread : readAt file pos 8 = size ++ type := by
    rw [readAt_eq_take h, List.take_left' hhead]
  have hunpack : unpackHeader (size ++ type) = .ok (Media.bigEndian size, type) := by
    unfold unpackHeader
    rw [if_pos hhead, List.take_left' hsize, List.drop_left' hsize]
  have hext : readAt file (pos + 8) 8 = tail.take 8 := by
    rw [readAt_add h, List.drop_left' hhead]
  unfold boxHeader
  dsimp only
  rw [hread, if_neg (by omega), hunpack, hext]
  dsimp only
  by_cases hone : Media.bigEndian size = 1
  · rw [if_pos hone, if_pos hone]
    by_cases hshort : tail.length < 8
    · rw [if_pos hshort, if_pos (by rw [List.length_take]; omega)]
    · have hlength : (tail.take 8).length = 8 := by
        rw [List.length_take]
        omega
      rw [if_neg hshort, if_neg (by omega), unpackLong, if_pos hlength]
      rfl
  · rw [if_neg hone, if_neg hone]

theorem exists_header {rest : Bytes} (h : 8 ≤ rest.length) :
    exists size type tail, rest = size ++ type ++ tail ∧ size.length = 4 ∧ type.length = 4 := by
  refine ⟨rest.take 4, (rest.drop 4).take 4, rest.drop 8, ?_, ?_, ?_⟩
  · rw [List.append_assoc, show (8 : Nat) = 4 + 4 from rfl, ← List.drop_drop,
      List.take_append_drop, List.take_append_drop]
  · rw [List.length_take]
    omega
  · rw [List.length_take, List.length_drop]
    omega

/-!
# The walk
-/

theorem walkFrom_step {file : Bytes} {size pos : Nat} (hpos : pos < size)
    (seen : List Bytes) :
    walkFrom file size pos seen =
      match boxHeader file size pos with
      | .error e => .error e
      | .ok box =>
          if box.boxSize < box.minSize ∨ size < pos + box.boxSize then
            .error (.invalidMedia (text "box exceeds file bounds"))
          else walkFrom file size (pos + box.boxSize) (seen ++ [box.boxType]) := by
  rw [walkFrom, if_pos hpos]
  split
  · rename_i e hbox
    rw [hbox]
  · rename_i box hbox
    rw [hbox]

theorem walkFrom_end {file : Bytes} {size pos : Nat} (hpos : size ≤ pos) (seen : List Bytes) :
    walkFrom file size pos seen = .ok seen := by
  rw [walkFrom, if_neg (by omega)]

theorem walkFrom_box {file : Bytes} {pos : Nat} {box : BoxHeader} {bytes rest : Bytes}
    (h : file.drop pos = bytes ++ rest) (hbox : boxHeader file file.length pos = .ok box)
    (hsize : box.boxSize = bytes.length) (hmin : box.minSize ≤ bytes.length)
    (seen : List Bytes) :
    walkFrom file file.length pos seen =
        walkFrom file file.length (pos + bytes.length) (seen ++ [box.boxType]) ∧
      file.drop (pos + bytes.length) = rest ∧ pos + bytes.length ≤ file.length := by
  have hlength := congrArg List.length h
  have hpositive := minSize_pos hbox
  rw [List.length_drop, List.length_append] at hlength
  refine ⟨?_, ?_, by omega⟩
  · rw [walkFrom_step (by omega), hbox]
    dsimp only
    rw [if_neg (by omega), hsize]
  · rw [← List.drop_drop, h, List.drop_left]

theorem walkFrom_of_tiles {file bytes : Bytes} {types : List Bytes} (htiles : Tiles types bytes)
    {pos : Nat} (h : file.drop pos = bytes) (seen : List Bytes) :
    walkFrom file file.length pos seen = .ok (seen ++ types) := by
  induction htiles generalizing pos seen with
  | nil =>
      rw [walkFrom_end (List.drop_eq_nil_iff.mp h), List.append_nil]
  | @short types size type payload rest hsize htype htotal _ ih =>
      have hheader : file.drop pos = size ++ type ++ (payload ++ rest) := by
        rw [h, List.append_assoc (size ++ type)]
      have hbig : 8 ≤ (size ++ type ++ payload).length := by
        rw [List.length_append, List.length_append, hsize, htype]
        omega
      have hbox := boxHeader_eq hheader hsize htype
      rw [if_neg (by omega), if_neg (by omega)] at hbox
      rcases walkFrom_box h hbox htotal hbig seen with ⟨hwalk, hrest, _⟩
      rw [hwalk, ih hrest, List.append_assoc]
      rfl
  | @long types size type ext payload rest hsize htype hext hone htotal _ ih =>
      have hheader : file.drop pos = size ++ type ++ (ext ++ payload ++ rest) := by
        rw [h]
        simp only [List.append_assoc]
      have hbig : 16 ≤ (size ++ type ++ ext ++ payload).length := by
        rw [List.length_append, List.length_append, List.length_append, hsize, htype, hext]
        omega
      have hbox := boxHeader_eq hheader hsize htype
      rw [if_pos hone, if_neg (by rw [List.length_append, List.length_append, hext]; omega),
        List.append_assoc, List.take_left' hext] at hbox
      rcases walkFrom_box h hbox htotal hbig seen with ⟨hwalk, hrest, _⟩
      rw [hwalk, ih hrest, List.append_assoc]
      rfl
  | @toEnd size type payload hsize htype hzero =>
      have hlength := congrArg List.length h
      rw [List.length_drop] at hlength
      have hbig : 8 ≤ (size ++ type ++ payload).length := by
        rw [List.length_append, List.length_append, hsize, htype]
        omega
      have hbox := boxHeader_eq h hsize htype
      rw [if_neg (by omega), if_pos hzero] at hbox
      have hall : file.drop pos = (size ++ type ++ payload) ++ [] := by rw [h, List.append_nil]
      rcases walkFrom_box hall hbox hlength hbig seen with ⟨hwalk, hrest, _⟩
      rw [hwalk, walkFrom_end (List.drop_eq_nil_iff.mp hrest)]

theorem boxHeader_error {file : Bytes} {pos : Nat} {e : MediaExc}
    (h : boxHeader file file.length pos = .error e) : e = truncated := by
  rcases Nat.lt_or_ge (file.drop pos).length 8 with hshort | hlong
  · rw [boxHeader_truncated rfl hshort] at h
    cases h
    rfl
  · rcases exists_header hlong with ⟨size, type, tail, hrest, hsize, htype⟩
    rw [boxHeader_eq hrest hsize htype] at h
    split at h
    · split at h
      · cases h
        rfl
      · cases h
    · split at h <;> cases h

theorem append_take_drop {front : Bytes} {n : Nat} (h : front.length ≤ n) (tail : Bytes) :
    front ++ tail.take (n - front.length) ++ (front ++ tail).drop n = front ++ tail := by
  have htake : (front ++ tail).take n = front ++ tail.take (n - front.length) := by
    rw [List.take_append, List.take_of_length_le h]
  rw [← htake, List.take_append_drop]

theorem tiles_of_header {file : Bytes} {pos : Nat} {box : BoxHeader} {types : List Bytes}
    (hbox : boxHeader file file.length pos = .ok box) (hmin : box.minSize ≤ box.boxSize)
    (hend : pos + box.boxSize ≤ file.length)
    (htypes : Tiles types (file.drop (pos + box.boxSize))) :
    Tiles (box.boxType :: types) (file.drop pos) := by
  rcases Nat.lt_or_ge (file.drop pos).length 8 with hshort | hlong
  · rw [boxHeader_truncated rfl hshort] at hbox
    cases hbox
  rcases exists_header hlong with ⟨size, type, tail, hrest, hsize, htype⟩
  have hhead : (size ++ type).length = 8 := by rw [List.length_append, hsize, htype]
  have hlength := congrArg List.length hrest
  rw [List.length_drop, List.length_append, hhead] at hlength
  rw [← List.drop_drop, hrest] at htypes
  rw [hrest]
  rw [boxHeader_eq hrest hsize htype] at hbox
  split at hbox
  · rename_i hone
    split at hbox
    · cases hbox
    · rename_i htail
      cases hbox
      dsimp only at hmin hend htypes ⊢
      have hext : (tail.take 8).length = 8 := by
        rw [List.length_take]
        omega
      have hfront : (size ++ type ++ tail.take 8).length = 16 := by
        rw [List.length_append, hhead, hext]
      have hcut : size ++ type ++ tail = size ++ type ++ tail.take 8 ++ tail.drop 8 := by
        rw [List.append_assoc (size ++ type), List.take_append_drop]
      rw [hcut] at htypes ⊢
      rw [← append_take_drop (hfront.trans_le hmin) (tail.drop 8)]
      refine .long hsize htype hext hone ?_ htypes
      rw [List.length_append, hfront, List.length_take, List.length_drop]
      omega
  · split at hbox
    · rename_i hzero
      cases hbox
      dsimp only at hend htypes ⊢
      -- nothing is left behind a box that reaches to the end
      rw [List.drop_eq_nil_of_le (by rw [List.length_append, hhead]; omega)] at htypes
      rw [tiles_nil htypes]
      exact .toEnd hsize htype hzero
    · cases hbox
      dsimp only at hmin hend htypes ⊢
      rw [← append_take_drop (hhead.trans_le hmin) tail]
      refine .short hsize htype ?_ htypes
      rw [List.length_append, hhead, List.length_take]
      omega

/-- What the walk has taken makes up the file from where it started. -/
def TakesBoxes (file : Bytes) (pos : Nat) (seen : List Bytes)
    (result : Except MediaExc (List Bytes)) : Prop :=
  match result with
  | .ok all => exists types, all = seen ++ types ∧ Tiles types (file.drop pos)
  | .error e => exists message, e = .invalidMedia message

/-- The walk ends with the boxes of the file, or in `InvalidMedia`. -/
theorem walkFrom_takes (file : Bytes) (pos : Nat) (seen : List Bytes)
    (hpos : pos ≤ file.length) :
    TakesBoxes file pos seen (walkFrom file file.length pos seen) := by
  generalize hleft : file.length - pos = left
  induction left using Nat.strong_induction_on generalizing pos seen with
  | _ left ih =>
      rcases Nat.lt_or_ge pos file.length with hmore | hend
      · rw [walkFrom_step hmore]
        cases hbox : boxHeader file file.length pos with
        | error e => exact ⟨_, boxHeader_error hbox⟩
        | ok box =>
            have hmin := minSize_pos hbox
            dsimp only
            split
            · exact ⟨_, rfl⟩
            · rename_i hwithin
              have htail := ih (file.length - (pos + box.boxSize)) (by omega)
                (pos + box.boxSize) (seen ++ [box.boxType]) (by omega) rfl
              cases hresult : walkFrom file file.length (pos + box.boxSize)
                (seen ++ [box.boxType]) with
              | error e =>
                  rw [hresult] at htail
                  exact htail
              | ok all =>
                  rw [hresult] at htail
                  rcases htail with ⟨types, hall, htypes⟩
                  refine ⟨box.boxType :: types, ?_, tiles_of_header hbox (by omega)
                    (by omega) htypes⟩
                  rw [hall, List.append_assoc]
                  rfl
      · rw [walkFrom_end hend]
        refine ⟨[], (List.append_nil seen).symm, ?_⟩
        rw [List.drop_eq_nil_of_le hend]
        exact .nil

theorem walkFrom_ok_iff (file : Bytes) (types : List Bytes) :
    walkFrom file file.length 0 [] = .ok types <-> Tiles types file := by
  constructor
  · intro h
    have htakes := walkFrom_takes file 0 [] (Nat.zero_le _)
    rw [h] at htakes
    rcases htakes with ⟨types', hall, htiles⟩
    rw [hall]
    exact htiles
  · intro h
    exact walkFrom_of_tiles h rfl []

/-!
# Verification
-/

theorem walkBoxes_ok_iff (file : Bytes) (types : List Bytes) :
    walkBoxes file file.length = .ok types <->
      Tiles types file ∧ types.head? = some Media.ftyp := by
  rw [← walkFrom_ok_iff]
  unfold walkBoxes
  cases hwalk : walkFrom file file.length 0 [] with
  | error e => simp
  | ok seen =>
      dsimp only
      split
      · rename_i hhead
        constructor
        · intro h
          cases h
          exact ⟨rfl, hhead⟩
        · intro h
          exact h.left
      · rename_i hhead
        constructor
        · intro h
          cases h
        · rintro ⟨hsame, hfirst⟩
          cases hsame
          exact absurd hfirst hhead

theorem walkBoxes_error {file : Bytes} {e : MediaExc}
    (h : walkBoxes file file.length = .error e) : exists message, e = .invalidMedia message := by
  have htakes := walkFrom_takes file 0 [] (Nat.zero_le _)
  unfold walkBoxes at h
  split at h
  · rename_i e' hwalk
    rw [hwalk] at htakes
    cases h
    exact htakes
  · split at h
    · cases h
    · cases h
      exact ⟨_, rfl⟩

theorem flatten_chunksFrom (file : Bytes) (pos : Nat) :
    (chunksFrom file pos).flatten = file.drop pos := by
  fun_induction chunksFrom file pos with
  | case1 pos hempty =>
      rcases List.take_eq_nil_iff.mp hempty with hzero | hnil
      · cases hzero
      · rw [hnil]
        rfl
  | case2 pos hchunk ih =>
      rw [List.flatten_cons, ih, ← List.drop_drop]
      unfold readAt
      conv_rhs => rw [← List.take_append_drop chunkBytes (file.drop pos)]
      rw [List.append_cancel_left_eq, List.length_take]
      rcases Nat.le_total chunkBytes (file.drop pos).length with hle | hle
      · rw [Nat.min_eq_left hle]
      · rw [Nat.min_eq_right hle, List.drop_length, List.drop_eq_nil_of_le hle]

theorem validateMp4_ok_iff (file : Bytes) (maxBytes : Int) (info : MediaInfo) :
    validateMp4 file maxBytes = .ok info <->
      IsVideo file maxBytes ∧ info = { size := file.length, sha256 := sha256Hex file } := by
  unfold validateMp4 IsVideo
  dsimp only
  rw [flatten_chunksFrom, List.drop_zero]
  split
  · rename_i hsmall
    constructor
    · intro h
      cases h
    · rintro ⟨hvideo, _⟩
      exact absurd hvideo.left (by omega)
  · rename_i hsmall
    split
    · rename_i hlarge
      constructor
      · intro h
        cases h
      · rintro ⟨hvideo, _⟩
        exact absurd hvideo.right.left (by omega)
    · rename_i hlarge
      cases hwalk : walkBoxes file file.length with
      | error e =>
          constructor
          · intro h
            cases h
          · rintro ⟨⟨_, _, types, htiles, hfirst, _⟩, _⟩
            rw [(walkBoxes_ok_iff file types).mpr ⟨htiles, hfirst⟩] at hwalk
            cases hwalk
      | ok boxes =>
          have hboxes := (walkBoxes_ok_iff file boxes).mp hwalk
          dsimp only
          split
          · rename_i hmissing
            constructor
            · intro h
              cases h
            · rintro ⟨⟨_, _, types, htiles, hfirst, hneeded⟩, _⟩
              rw [(walkBoxes_ok_iff file types).mpr ⟨htiles, hfirst⟩] at hwalk
              cases hwalk
              exact absurd hneeded hmissing
          · rename_i hneeded
            constructor
            · intro h
              cases h
              exact ⟨⟨by omega, by omega, boxes, hboxes.left, hboxes.right,
                not_not.mp hneeded⟩, rfl⟩
            · rintro ⟨_, rfl⟩
              rfl

theorem validateMp4_error {file : Bytes} {maxBytes : Int} {e : MediaExc}
    (h : validateMp4 file maxBytes = .error e) : exists message, e = .invalidMedia message := by
  unfold validateMp4 at h
  dsimp only at h
  split at h
  · cases h
    exact ⟨_, rfl⟩
  · split at h
    · cases h
      exact ⟨_, rfl⟩
    · split at h
      · rename_i e' hwalk
        cases h
        exact walkBoxes_error hwalk
      · split at h
        · cases h
          exact ⟨_, rfl⟩
        · cases h

/-!
# The verification of a render

`Media.validateMp4` has the same answers: it reads the rest of the file in place of the
positions, and has no messages.
-/

theorem boxHeader_toOption {file rest : Bytes} {pos : Nat} (h : file.drop pos = rest) :
    (boxHeader file file.length pos).toOption =
      (Media.boxSize? rest).map (fun sizes =>
        ⟨sizes.1, sizes.2, (rest.drop 4).take 4⟩) := by
  rcases Nat.lt_or_ge rest.length 8 with hshort | hlong
  · rw [boxHeader_truncated h hshort, Media.boxSize?, if_pos hshort]
    rfl
  · rcases exists_header hlong with ⟨size, type, tail, hrest, hsize, htype⟩
    have hhead : (size ++ type).length = 8 := by rw [List.length_append, hsize, htype]
    have hlength : (size ++ type ++ tail).length = 8 + tail.length := by
      rw [List.length_append, hhead]
    have hleft : file.length - pos = (size ++ type ++ tail).length := by
      rw [← hrest, ← h, List.length_drop]
    have hfield : (size ++ type ++ tail).take 4 = size := by
      rw [List.append_assoc, List.take_left' hsize]
    have hkind : ((size ++ type ++ tail).drop 4).take 4 = type := by
      rw [List.append_assoc, List.drop_left' hsize, List.take_left' htype]
    have hext : (size ++ type ++ tail).drop 8 = tail := List.drop_left' hhead
    rw [boxHeader_eq (h.trans hrest) hsize htype, Media.boxSize?, hrest, hkind, hfield, hext,
      hleft, if_neg (show ¬(size ++ type ++ tail).length < 8 by omega)]
    dsimp only
    by_cases hone : Media.bigEndian size = 1
    · rw [if_pos hone, if_pos hone]
      by_cases htail : tail.length < 8
      · rw [if_pos htail, if_pos (by omega)]
        rfl
      · rw [if_neg htail, if_neg (by omega)]
        rfl
    · rw [if_neg hone, if_neg hone]
      by_cases hzero : Media.bigEndian size = 0
      · rw [if_pos hzero, if_pos hzero]
        rfl
      · rw [if_neg hzero, if_neg hzero]
        rfl

theorem walkFrom_toOption (file : Bytes) (steps pos : Nat) (seen : List Bytes)
    (hsteps : (file.drop pos).length ≤ steps) :
    (walkFrom file file.length pos seen).toOption =
      (Media.walkBoxes steps (file.drop pos)).map (fun types => seen ++ types) := by
  induction steps generalizing pos seen with
  | zero =>
      have hnil : file.drop pos = [] := List.length_eq_zero_iff.mp (by omega)
      rw [walkFrom_end (List.drop_eq_nil_iff.mp hnil), hnil]
      exact congrArg some (List.append_nil seen).symm
  | succ steps ih =>
      cases hrest : file.drop pos with
      | nil =>
          rw [walkFrom_end (List.drop_eq_nil_iff.mp hrest)]
          exact congrArg some (List.append_nil seen).symm
      | cons b bytes =>
          have hlength := congrArg List.length hrest
          rw [List.length_drop, List.length_cons] at hlength
          have hheader := boxHeader_toOption hrest
          rw [walkFrom_step (by omega), Media.walkBoxes]
          · cases hbox : boxHeader file file.length pos with
            | error e =>
                rw [hbox] at hheader
                rw [Option.map_eq_none_iff.mp hheader.symm]
                rfl
            | ok box =>
                rw [hbox] at hheader
                rcases Option.map_eq_some_iff.mp hheader.symm with ⟨⟨n, m⟩, hsizes, rfl⟩
                have hmin := minSize_pos hbox
                rw [hsizes]
                dsimp only at hmin ⊢
                have hbounds : (n < m ∨ file.length < pos + n) <->
                    (n < m ∨ (b :: bytes).length < n) := by
                  rw [List.length_cons]
                  omega
                simp only [hbounds]
                split
                · rfl
                · rename_i hwithin
                  rw [not_or, List.length_cons] at hwithin
                  rw [List.length_drop] at hsteps
                  rw [ih (pos + n) _ (by rw [List.length_drop]; omega), ← List.drop_drop,
                    hrest, Option.map_map]
                  congr 1
                  funext types
                  exact List.append_assoc _ _ _
          · simp

/-- Both verifications give the same answer. -/
theorem validateMp4_toOption (file : Bytes) (maxBytes : Nat) :
    (validateMp4 file maxBytes).toOption = Media.validateMp4 file maxBytes := by
  have hwalk := walkFrom_toOption file file.length 0 [] (by rw [List.drop_zero])
  rw [List.drop_zero] at hwalk
  have hwalk' : (walkFrom file file.length 0 []).toOption =
      Media.walkBoxes file.length file := by
    rw [hwalk]
    exact Option.map_id'
  unfold validateMp4 Media.validateMp4 walkBoxes
  dsimp only
  rw [flatten_chunksFrom, List.drop_zero, ← hwalk']
  by_cases hsmall : file.length < Media.minMp4Bytes
  · rw [if_pos hsmall, if_pos (Or.inl hsmall)]
    rfl
  · by_cases hlarge : maxBytes < file.length
    · rw [if_neg hsmall, if_pos (by omega), if_pos (Or.inr hlarge)]
      rfl
    · rw [if_neg hsmall, if_neg (by omega), if_neg (by omega)]
      cases walkFrom file file.length 0 [] with
      | error e => rfl
      | ok boxes =>
          dsimp only [Except.toOption]
          by_cases hfirst : boxes.head? = some Media.ftyp
          · rw [if_pos hfirst]
            by_cases hneeded : Media.moov ∈ boxes ∧ Media.mdat ∈ boxes
            · simp [hfirst, hneeded]
            · simp [hfirst, hneeded]
          · rw [if_neg hfirst, if_neg (fun h => hfirst h.left)]

/--
A file is accepted exactly when it is a complete video of an allowed size, and then its
size and hash are returned. Any other file raises `InvalidMedia`.
-/
theorem video_accepted_iff (file : Bytes) (maxBytes : Int) :
    (IsVideo file maxBytes <->
      validateMp4 file maxBytes = .ok { size := file.length, sha256 := sha256Hex file }) ∧
    (¬IsVideo file maxBytes <->
      exists message, validateMp4 file maxBytes = .error (.invalidMedia message)) := by
  have hok : IsVideo file maxBytes <->
      validateMp4 file maxBytes = .ok { size := file.length, sha256 := sha256Hex file } := by
    rw [validateMp4_ok_iff]
    simp
  refine ⟨hok, ?_⟩
  constructor
  · intro hnot
    cases hresult : validateMp4 file maxBytes with
    | ok info => exact absurd ((validateMp4_ok_iff file maxBytes info).mp hresult).left hnot
    | error e =>
        rcases validateMp4_error hresult with ⟨message, rfl⟩
        exact ⟨message, rfl⟩
  · rintro ⟨message, herror⟩ hvideo
    rw [hok.mp hvideo] at herror
    cases herror

end BoxWalk
end ConversationService
