import Mathlib.Order.Defs.LinearOrder
import Mathlib.Order.Lattice
import Mathlib.Tactic.NormNum
import Mathlib.Tactic.Ring
import ConversationService.Python.Json
import ConversationService.Python.Numerals

/-!
# UUIDs

The 128-bit identifiers of the service, the two orders on them (Python compares
the integers, Cassandra sorts a `uuid` column by version first), the parser of
`uuid.UUID(text)`, and the generators of `app/utils/helpers.py`.
-/

namespace ConversationService
namespace Python

structure UUID where
  bits : BitVec 128
deriving DecidableEq, Repr

namespace UUID

instance : Inhabited UUID := ⟨⟨0⟩⟩

/-- `u.int` -/
def int (u : UUID) : Nat :=
  u.bits.toNat

/-- `uuid.UUID(int=n)` for an integer in range. -/
def ofInt (n : Nat) : UUID :=
  ⟨BitVec.ofNat 128 n⟩

/-- The four version bits, the upper half of the seventh byte. -/
def version (u : UUID) : Nat :=
  (u.bits.extractLsb' 76 4).toNat

theorem int_lt (u : UUID) : u.int < 2 ^ 128 :=
  u.bits.isLt

theorem int_injective {u v : UUID} (h : u.int = v.int) : u = v := by
  cases u
  cases v
  congr
  exact BitVec.eq_of_toNat_eq h

theorem int_ofInt {n : Nat} (h : n < 2 ^ 128) : (ofInt n).int = n := by
  simpa [int, ofInt] using Nat.mod_eq_of_lt h

/-!
# The order of a Cassandra `uuid` column

Cassandra compares the versions first, then for version 1 the timestamp with its
bytes put in order, and then the bytes.
-/

/-- The 60-bit timestamp of a version 1 UUID, most significant part first. -/
def reorderTimestampBytes (u : UUID) : Nat :=
  let msb := u.bits.extractLsb' 64 64
  ((msb <<< 48) ||| ((msb <<< 16) &&& 0xFFFF00000000#64) ||| (msb >>> 32)).toNat

def clusteringKey (u : UUID) : Nat :=
  (u.version * 2 ^ 64 +
    (if u.version = 1 then u.reorderTimestampBytes else 0)) * 2 ^ 128 + u.int

theorem clusteringKey_injective : Function.Injective clusteringKey := by
  intro u v h
  apply int_injective
  have hu := int_lt u
  have hv := int_lt v
  unfold clusteringKey at h
  omega

instance : LinearOrder UUID :=
  LinearOrder.lift' clusteringKey clusteringKey_injective

theorem lt_iff_clusteringKey (u v : UUID) :
    u < v <-> u.clusteringKey < v.clusteringKey := Iff.rfl

/-!
# `uuid.UUID(text)`
-/

/-- The digits of `int(s, 16)` after the prefix, with single underscores between them. -/
def hexDigits : Nat -> Text -> Option Nat
  | acc, [] => some acc
  | acc, c :: rest =>
      match hexValue c with
      | some d => hexDigits (acc * 16 + d) rest
      | none =>
          if c.val = 0x5F then
            match rest with
            | d :: rest' =>
                match hexValue d with
                | some n => hexDigits (acc * 16 + n) rest'
                | none => none
            | [] => none
          else none

/--
`int(s, 16)`: white space around the number, a sign and a prefix are accepted, and decimal
digits of any script.
-/
def intBase16 (s : Text) : Option Int :=
  let unsigned (t : Text) : Option Nat :=
    let digits :=
      if (text "0x").isPrefixOf t || (text "0X").isPrefixOf t then
        (match t.drop 2 with
        | c :: rest => if c.val = 0x5F then rest else c :: rest
        | [] => [])
      else t
    match digits with
    | c :: rest =>
        match hexValue c with
        | some d => hexDigits d rest
        | none => none
    | [] => none
  match stripBy isIntSpace (asciiNumeral s) with
  | c :: rest =>
      if c.val = 0x2D then (unsigned rest).map (fun (n : Nat) => -(n : Int))
      else if c.val = 0x2B then (unsigned rest).map (fun (n : Nat) => (n : Int))
      else (unsigned (c :: rest)).map (fun (n : Nat) => (n : Int))
  | [] => none

/-- `uuid.UUID(s)`, with `none` where it raises `ValueError`. -/
def parse (s : Text) : Option UUID :=
  let hex := removeAll (text "uuid:") (removeAll (text "urn:") s)
  let hex := stripBy (fun c => c.val == 0x7B || c.val == 0x7D) hex
  let hex := removeAll (text "-") hex
  if hex.length ≠ 32 then none
  else
    match intBase16 hex with
    | some n => if 0 ≤ n ∧ n < 2 ^ 128 then some (ofInt n.toNat) else none
    | none => none

/-- The hexadecimal digits of the integer, 32 of them. -/
def hex (u : UUID) : Text :=
  let digits := (digitsRev 16 32 u.int).reverse
  List.replicate (32 - digits.length) (digitChar 0) ++ digits

/-- `str(u)` -/
def toText (u : UUID) : Text :=
  let h := u.hex
  join (text "-")
    [h.take 8, (h.drop 8).take 4, (h.drop 12).take 4, (h.drop 16).take 4, h.drop 20]

/-!
# The text of a UUID determines it
-/

/-- The number that hexadecimal digits stand for, least significant first. -/
def digitsValue : Text -> Nat
  | [] => 0
  | c :: rest => (hexValue c).getD 0 + 16 * digitsValue rest

theorem hexValue_digitChar : forall d, d < 16 -> hexValue (digitChar d) = some d := by
  decide

theorem length_digitsRev (base fuel n : Nat) : (digitsRev base fuel n).length ≤ fuel := by
  induction fuel generalizing n with
  | zero => simp [digitsRev]
  | succ fuel ih =>
      rw [digitsRev, List.length_cons]
      split
      · simp
      · exact Nat.succ_le_succ (ih _)

theorem digitsValue_digitsRev (fuel n : Nat) (h : n < 16 ^ fuel) :
    digitsValue (digitsRev 16 fuel n) = n := by
  induction fuel generalizing n with
  | zero =>
      have : n = 0 := by simpa using h
      subst this
      rfl
  | succ fuel ih =>
      have hdigit := hexValue_digitChar (n % 16) (Nat.mod_lt n (by decide))
      rw [digitsRev, digitsValue, hdigit]
      split
      · rename_i hzero
        simp only [digitsValue, Option.getD_some]
        omega
      · rw [ih (n / 16) (Nat.div_lt_of_lt_mul (by rw [← Nat.pow_succ']; exact h))]
        simp only [Option.getD_some]
        omega

theorem digitsValue_append_zeros (s : Text) (n : Nat) :
    digitsValue (s ++ List.replicate n (digitChar 0)) = digitsValue s := by
  induction s with
  | nil =>
      induction n with
      | zero => rfl
      | succ n ih =>
          have hzero : hexValue (digitChar 0) = some 0 := by decide
          simp only [List.nil_append, digitsValue] at ih
          simp [List.replicate_succ, digitsValue, hzero, ih]
  | cons c rest ih => rw [List.cons_append, digitsValue, digitsValue, ih]

theorem digitsValue_hex (u : UUID) : digitsValue u.hex.reverse = u.int := by
  unfold hex
  rw [List.reverse_append, List.reverse_reverse, List.reverse_replicate,
    digitsValue_append_zeros]
  apply digitsValue_digitsRev
  have h := int_lt u
  norm_num at h ⊢
  exact h

theorem length_hex (u : UUID) : u.hex.length = 32 := by
  have h := length_digitsRev 16 32 u.int
  simp [hex]
  omega

theorem hex_injective : Function.Injective hex := by
  intro u v h
  apply int_injective
  rw [← digitsValue_hex u, ← digitsValue_hex v, h]

theorem toText_eq (u : UUID) :
    u.toText = u.hex.take 8 ++ (text "-" ++ ((u.hex.drop 8).take 4 ++ (text "-" ++
      ((u.hex.drop 12).take 4 ++ (text "-" ++ ((u.hex.drop 16).take 4 ++
        (text "-" ++ u.hex.drop 20))))))) := by
  simp [toText, join]

theorem hex_groups (u : UUID) : u.hex =
    u.hex.take 8 ++ ((u.hex.drop 8).take 4 ++ ((u.hex.drop 12).take 4 ++
      ((u.hex.drop 16).take 4 ++ u.hex.drop 20))) := by
  have h20 : u.hex.drop 20 = (u.hex.drop 16).drop 4 := by rw [List.drop_drop]
  have h16 : u.hex.drop 16 = (u.hex.drop 12).drop 4 := by rw [List.drop_drop]
  have h12 : u.hex.drop 12 = (u.hex.drop 8).drop 4 := by rw [List.drop_drop]
  rw [h20, List.take_append_drop, h16, List.take_append_drop, h12,
    List.take_append_drop, List.take_append_drop]

theorem toText_injective : Function.Injective toText := by
  intro u v h
  apply hex_injective
  have hu := length_hex u
  have hv := length_hex v
  rw [toText_eq, toText_eq] at h
  rcases List.append_inj h (by simp [hu, hv]) with ⟨h1, h⟩
  rcases List.append_inj h rfl with ⟨_, h⟩
  rcases List.append_inj h (by simp [hu, hv]) with ⟨h2, h⟩
  rcases List.append_inj h rfl with ⟨_, h⟩
  rcases List.append_inj h (by simp [hu, hv]) with ⟨h3, h⟩
  rcases List.append_inj h rfl with ⟨_, h⟩
  rcases List.append_inj h (by simp [hu, hv]) with ⟨h4, h⟩
  rcases List.append_inj h rfl with ⟨_, h5⟩
  rw [hex_groups u, hex_groups v, h1, h2, h3, h4, h5]

/-!
# Reading the text back
-/

theorem removeAllFrom_of_not_mem {p : CodePoint} {pattern s : Text} (h : p ∉ s) :
    removeAllFrom (p :: pattern) 0 s = s := by
  induction s with
  | nil => rfl
  | cons c rest ih =>
      have hne : ¬((p :: pattern).isPrefixOf (c :: rest) = true) := by
        intro hhead
        have hp : p = c := by
          simpa using (List.isPrefixOf_iff_prefix.mp hhead).head (by simp)
        exact h (by simp [hp])
      rw [removeAllFrom, if_neg hne, ih (fun hmem => h (List.mem_cons_of_mem _ hmem))]

theorem removeAllFrom_single (p : CodePoint) (s : Text) :
    removeAllFrom [p] 0 s = s.filter (fun c => c ≠ p) := by
  induction s with
  | nil => rfl
  | cons c rest ih =>
      rw [removeAllFrom]
      by_cases hc : c = p
      · subst hc
        simpa [List.isPrefixOf] using ih
      · have hne : ¬([p].isPrefixOf (c :: rest) = true) := by
          simp [List.isPrefixOf, Ne.symm hc]
        rw [if_neg hne, ih]
        simp [hc]

theorem stripBy_of_forall {remove : CodePoint -> Bool} {s : Text}
    (h : forall c, c ∈ s -> remove c = false) : stripBy remove s = s := by
  have hdrop : forall t : Text, (forall c, c ∈ t -> remove c = false) ->
      t.dropWhile remove = t := by
    intro t ht
    cases t with
    | nil => rfl
    | cons c rest => rw [List.dropWhile_cons_of_neg (by simp [ht c (by simp)])]
  unfold stripBy
  rw [hdrop s h, hdrop s.reverse (fun c hc => h c (List.mem_reverse.mp hc)),
    List.reverse_reverse]

theorem digitsValue_append (s t : Text) :
    digitsValue (s ++ t) = digitsValue s + 16 ^ s.length * digitsValue t := by
  induction s with
  | nil => simp [digitsValue]
  | cons c rest ih =>
      rw [List.cons_append, digitsValue, digitsValue, ih, List.length_cons,
        Nat.pow_succ]
      ring

theorem hexDigits_eq {s : Text} (h : forall c, c ∈ s -> (hexValue c).isSome) (acc : Nat) :
    hexDigits acc s = some (acc * 16 ^ s.length + digitsValue s.reverse) := by
  induction s generalizing acc with
  | nil => simp [hexDigits, digitsValue]
  | cons c rest ih =>
      cases hc : hexValue c with
      | none =>
          have hsome := h c (by simp)
          rw [hc] at hsome
          cases hsome
      | some d =>
          have hrest := ih (fun c hc => h c (List.mem_cons_of_mem _ hc)) (acc * 16 + d)
          unfold hexDigits
          rw [hc]
          dsimp only
          rw [hrest, List.reverse_cons, digitsValue_append, List.length_reverse,
            List.length_cons]
          simp only [digitsValue, hc, Option.getD_some]
          congr 1
          ring

theorem hexValue_hex (u : UUID) : forall c, c ∈ u.hex -> (hexValue c).isSome := by
  have hdigits : forall fuel n, forall c, c ∈ digitsRev 16 fuel n ->
      (hexValue c).isSome := by
    intro fuel
    induction fuel with
    | zero =>
        intro n c hc
        simp [digitsRev] at hc
    | succ fuel ih =>
        intro n c hc
        rcases List.mem_cons.mp hc with rfl | hrest
        · rw [hexValue_digitChar _ (Nat.mod_lt n (by decide))]
          rfl
        · split at hrest
          · simp at hrest
          · exact ih _ c hrest
  intro c hc
  rcases List.mem_append.mp hc with hzero | hdigit
  · rw [List.eq_of_mem_replicate hzero, hexValue_digitChar 0 (by decide)]
    rfl
  · exact hdigits 32 u.int c (List.mem_reverse.mp hdigit)

theorem not_mem_hex {u : UUID} {c : CodePoint} (h : hexValue c = none) : c ∉ u.hex := by
  intro hmem
  have hsome := hexValue_hex u c hmem
  rw [h] at hsome
  cases hsome

theorem not_mem_toText {u : UUID} {c : CodePoint} (h : hexValue c = none)
    (hdash : c ≠ 0x2D) : c ∉ u.toText := by
  have hnot := not_mem_hex (u := u) h
  have htext : text "-" = [0x2D] := by decide
  rw [toText_eq, htext]
  simp only [List.mem_append, List.mem_singleton, not_or]
  refine ⟨?_, hdash, ?_, hdash, ?_, hdash, ?_, hdash, ?_⟩
  · exact fun hc => hnot (List.mem_of_mem_take hc)
  · exact fun hc => hnot (List.mem_of_mem_drop (List.mem_of_mem_take hc))
  · exact fun hc => hnot (List.mem_of_mem_drop (List.mem_of_mem_take hc))
  · exact fun hc => hnot (List.mem_of_mem_drop (List.mem_of_mem_take hc))
  · exact fun hc => hnot (List.mem_of_mem_drop hc)

theorem filter_dash_toText (u : UUID) :
    u.toText.filter (fun c => c ≠ 0x2D) = u.hex := by
  have hkeep : forall s : Text, (forall c, c ∈ s -> c ∈ u.hex) ->
      s.filter (fun c => c ≠ 0x2D) = s := by
    intro s hs
    apply List.filter_eq_self.mpr
    intro c hc
    have hne : c ≠ 0x2D := by
      intro hdash
      exact not_mem_hex (u := u) (c := 0x2D) (by decide) (hdash ▸ hs c hc)
    simpa using hne
  have hdash : (text "-").filter (fun c => c ≠ 0x2D) = [] := by decide
  rw [toText_eq]
  simp only [List.filter_append, hdash, List.nil_append]
  rw [hkeep _ (fun c hc => List.mem_of_mem_take hc),
    hkeep _ (fun c hc => List.mem_of_mem_drop (List.mem_of_mem_take hc)),
    hkeep _ (fun c hc => List.mem_of_mem_drop (List.mem_of_mem_take hc)),
    hkeep _ (fun c hc => List.mem_of_mem_drop (List.mem_of_mem_take hc)),
    hkeep _ (fun c hc => List.mem_of_mem_drop hc), ← hex_groups]

theorem hexValue_bounds {c : CodePoint} (h : (hexValue c).isSome) :
    0x20 < c.val ∧ c.val < 0x80 := by
  unfold hexValue at h
  dsimp only at h
  split at h
  · omega
  · split at h
    · omega
    · split at h
      · omega
      · cases h

theorem not_sign_of_hexValue {c : CodePoint} (h : (hexValue c).isSome) :
    c.val ≠ 0x2D ∧ c.val ≠ 0x2B := by
  unfold hexValue at h
  dsimp only at h
  split at h
  · omega
  · split at h
    · omega
    · split at h
      · omega
      · cases h

theorem isPrefixOf_hex_eq_false {u : UUID} {w : Text} (hw : w.length = 2)
    (hx : hexValue (w.getD 1 0) = none) : w.isPrefixOf u.hex = false := by
  cases hcase : w.isPrefixOf u.hex with
  | false => rfl
  | true =>
      have hpre := List.isPrefixOf_iff_prefix.mp hcase
      match w, hw with
      | [a, b], _ =>
          have hmem : b ∈ u.hex := hpre.subset (by simp)
          exact absurd hmem (not_mem_hex hx)

theorem intBase16_hex (u : UUID) : intBase16 u.hex = some (u.int : Int) := by
  have hbounds : forall c, c ∈ u.hex -> 0x20 < c.val ∧ c.val < 0x80 :=
    fun c hc => hexValue_bounds (hexValue_hex u c hc)
  have hascii : asciiNumeral u.hex = u.hex :=
    asciiNumeral_ascii (fun c hc => (hbounds c hc).right)
  have hstrip : stripBy isIntSpace u.hex = u.hex :=
    stripBy_of_forall (fun c hc => isIntSpace_eq_false (hbounds c hc).left)
  have hno : ((text "0x").isPrefixOf u.hex || (text "0X").isPrefixOf u.hex) = false := by
    have hsmall : (text "0x").isPrefixOf u.hex = false :=
      isPrefixOf_hex_eq_false (by decide) (by decide)
    have hlarge : (text "0X").isPrefixOf u.hex = false :=
      isPrefixOf_hex_eq_false (by decide) (by decide)
    rw [hsmall, hlarge]
    rfl
  have hvalue := digitsValue_hex u
  have hall := hexValue_hex u
  have hlength := length_hex u
  unfold intBase16
  rw [hascii, hstrip]
  cases hhex : u.hex with
  | nil =>
      rw [hhex] at hlength
      cases hlength
  | cons c rest =>
      rw [hhex] at hno hvalue hall
      have hc := hall c (by simp)
      rcases not_sign_of_hexValue hc with ⟨hdash, hplus⟩
      cases hd : hexValue c with
      | none =>
          rw [hd] at hc
          cases hc
      | some d =>
          have hrest := hexDigits_eq (fun c hc => hall c (List.mem_cons_of_mem _ hc)) d
          rw [List.reverse_cons, digitsValue_append, List.length_reverse] at hvalue
          simp only [digitsValue, hd, Option.getD_some] at hvalue
          simp only [hdash, hplus, if_false, hno, hd, hrest, Bool.false_eq_true,
            Option.map_some]
          congr 2
          rw [← hvalue]
          ring

/-- `uuid.UUID(str(u)) == u` -/
theorem parse_toText (u : UUID) : parse u.toText = some u := by
  have hu : (0x75 : CodePoint) ∉ u.toText := not_mem_toText (by decide) (by decide)
  have hurn : removeAll (text "urn:") u.toText = u.toText := by
    have hpattern : text "urn:" = [0x75, 0x72, 0x6E, 0x3A] := by decide
    unfold removeAll
    rw [hpattern, removeAllFrom_of_not_mem hu]
  have huuid : removeAll (text "uuid:") u.toText = u.toText := by
    have hpattern : text "uuid:" = [0x75, 0x75, 0x69, 0x64, 0x3A] := by decide
    unfold removeAll
    rw [hpattern, removeAllFrom_of_not_mem hu]
  have hbraces : stripBy (fun c => c.val == 0x7B || c.val == 0x7D) u.toText =
      u.toText := by
    apply stripBy_of_forall
    intro c hc
    have hopen : c.val ≠ 0x7B := by
      intro h
      have heq : c = 0x7B := Fin.ext h
      exact not_mem_toText (u := u) (c := 0x7B) (by decide) (by decide) (heq ▸ hc)
    have hclose : c.val ≠ 0x7D := by
      intro h
      have heq : c = 0x7D := Fin.ext h
      exact not_mem_toText (u := u) (c := 0x7D) (by decide) (by decide) (heq ▸ hc)
    simp [hopen, hclose]
  have hdash : removeAll (text "-") u.toText = u.hex := by
    have hpattern : text "-" = [0x2D] := by decide
    unfold removeAll
    rw [hpattern, removeAllFrom_single, filter_dash_toText]
  unfold parse
  dsimp only
  rw [hurn, huuid, hbraces, hdash, if_neg (by rw [length_hex]; decide), intBase16_hex]
  have hlt : (u.int : Int) < 2 ^ 128 := by exact_mod_cast int_lt u
  dsimp only
  rw [if_pos ⟨by omega, hlt⟩]
  congr 1
  apply int_injective
  rw [Int.toNat_natCast, int_ofInt (int_lt u)]

end UUID

/-!
# Generators (`app/utils/helpers.py`)
-/

/-- What one call of `uuidv7` reads: the clock in milliseconds and `os.urandom(10)`. -/
structure ClockReading where
  timestampMs : BitVec 48
  randBytes : BitVec 80
deriving DecidableEq, Repr

def uuidv7 (reading : ClockReading) : UUID :=
  let rand0 : BitVec 8 := reading.randBytes.extractLsb' 72 8
  let rand1 : BitVec 8 := reading.randBytes.extractLsb' 64 8
  let rand2 : BitVec 8 := reading.randBytes.extractLsb' 56 8
  let randRest : BitVec 56 := reading.randBytes.extractLsb' 0 56
  -- version 7 in bits 4-7 of the seventh byte
  let v7Byte : BitVec 8 := (rand0 &&& 0x0F#8) ||| 0x70#8
  -- variant 2 in bits 6-7 of the ninth byte
  let varByte : BitVec 8 := (rand1 &&& 0x3F#8) ||| 0x80#8
  ⟨reading.timestampMs ++ v7Byte ++ rand2 ++ varByte ++ randRest⟩

/-- The loop of `uuidv7After`, with `n` attempts left, the next one being number `i`. -/
def uuidv7Attempts (floor : UUID) (readings : Nat -> ClockReading) :
    Nat -> Nat -> UUID
  | _, 0 => .ofInt (min (floor.int + 1) (2 ^ 128 - 1))
  | i, n + 1 =>
      if floor.int < (uuidv7 (readings i)).int then uuidv7 (readings i)
      else uuidv7Attempts floor readings (i + 1) n

/-- A UUIDv7 above `floor`; `readings` are what the attempts see. -/
def uuidv7After (floor : UUID) (readings : Nat -> ClockReading) : UUID :=
  uuidv7Attempts floor readings 0 64

theorem uuidv7Attempts_gt {floor : UUID} (readings : Nat -> ClockReading)
    (hfloor : floor.int < 2 ^ 128 - 1) (i n : Nat) :
    floor.int < (uuidv7Attempts floor readings i n).int := by
  induction n generalizing i with
  | zero =>
      unfold uuidv7Attempts
      rw [UUID.int_ofInt (by omega)]
      omega
  | succ n ih =>
      unfold uuidv7Attempts
      split
      · assumption
      · exact ih (i + 1)

/-- The generated id is above its floor, as integers, unless the floor is the last UUID. -/
theorem uuidv7After_gt {floor : UUID} (readings : Nat -> ClockReading)
    (hfloor : floor.int < 2 ^ 128 - 1) :
    floor.int < (uuidv7After floor readings).int :=
  uuidv7Attempts_gt readings hfloor 0 64

theorem int_lt_of_version {u : UUID} (h : u.version = 7) :
    u.int < 2 ^ 128 - 1 := by
  by_contra hlast
  have hint : u.int = 2 ^ 128 - 1 := by
    have := u.int_lt
    omega
  have hu : u = UUID.ofInt (2 ^ 128 - 1) := by
    apply UUID.int_injective
    rw [hint, UUID.int_ofInt (by omega)]
  rw [hu] at h
  revert h
  decide

theorem uuidv7_version (reading : ClockReading) :
    (uuidv7 reading).version = 7 := by
  unfold UUID.version uuidv7
  have h : BitVec.extractLsb' 76 4
      (reading.timestampMs ++
        ((reading.randBytes.extractLsb' 72 8 &&& 0x0F#8) ||| 0x70#8) ++
        (reading.randBytes.extractLsb' 56 8) ++
        ((reading.randBytes.extractLsb' 64 8 &&& 0x3F#8) ||| 0x80#8) ++
        (reading.randBytes.extractLsb' 0 56)) = 7#4 := by
    apply BitVec.eq_of_getLsbD_eq
    intro i hi
    have hcases : i = 0 ∨ i = 1 ∨ i = 2 ∨ i = 3 := by omega
    rcases hcases with rfl | rfl | rfl | rfl <;>
      simp only [BitVec.getLsbD_extractLsb', BitVec.getLsbD_append,
        BitVec.getLsbD_or, BitVec.getLsbD_and] <;>
      simp
  exact congrArg BitVec.toNat h

end Python
end ConversationService
