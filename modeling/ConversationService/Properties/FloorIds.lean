import ConversationService.Python.UuidOrder

/-!
# Ids above a floor

An id of `uuidv7_after` is greater than its floor and of version 7. It has the variant of the
RFC unless the fallback has to carry into the variant bits of the floor.
-/

namespace ConversationService

open Python

namespace Python

/-!
# The parts of a version 7 UUID
-/

namespace UUID

def variantBits (u : UUID) : Nat :=
  (u.bits.extractLsb' 62 2).toNat

def randA (u : UUID) : Nat :=
  (u.bits.extractLsb' 64 12).toNat

def randB (u : UUID) : Nat :=
  (u.bits.extractLsb' 0 62).toNat

/-- A UUIDv7: the version is 7 and the variant is that of the RFC, `10`. -/
structure IsV7 (u : UUID) : Prop where
  version : u.version = 7
  variant : u.variantBits = 2

theorem variantBits_eq (u : UUID) : u.variantBits = u.int / 2 ^ 62 % 4 := by
  unfold variantBits int
  rw [BitVec.extractLsb'_toNat, Nat.shiftRight_eq_div_pow]

theorem randA_eq (u : UUID) : u.randA = u.int / 2 ^ 64 % 2 ^ 12 := by
  unfold randA int
  rw [BitVec.extractLsb'_toNat, Nat.shiftRight_eq_div_pow]

theorem randB_eq (u : UUID) : u.randB = u.int % 2 ^ 62 := by
  unfold randB int
  rw [BitVec.extractLsb'_toNat, Nat.shiftRight_zero]

theorem int_eq_parts (u : UUID) : u.int =
    u.timestampMs * 2 ^ 80 + u.version * 2 ^ 76 + u.randA * 2 ^ 64 +
      u.variantBits * 2 ^ 62 + u.randB := by
  rw [variantBits_eq, randA_eq, randB_eq, version_eq]
  unfold timestampMs
  omega

/-- Above a UUIDv7 whose last bits are all ones is what is above it in the bits before them. -/
theorem int_lt_iff_of_ones {u v : UUID} (hu : u.IsV7) (hv : v.IsV7)
    (hones : u.randB = 2 ^ 62 - 1) :
    u.int < v.int <-> u.timestampMs < v.timestampMs ∨
      (u.timestampMs = v.timestampMs ∧ u.randA < v.randA) := by
  have huInt := int_eq_parts u
  have hvInt := int_eq_parts v
  have hrandA : forall w : UUID, w.randA < 2 ^ 12 := fun w => BitVec.isLt _
  have huA := hrandA u
  have hvA := hrandA v
  have hvB : v.randB < 2 ^ 62 := BitVec.isLt _
  rw [hu.version, hu.variant, hones] at huInt
  rw [hv.version, hv.variant] at hvInt
  omega

end UUID

/-!
# What `uuidv7` makes of its readings
-/

/-- The lower half of the first random byte, and the third byte. -/
def ClockReading.randA (reading : ClockReading) : Nat :=
  ((reading.randBytes.extractLsb' 72 4) ++ (reading.randBytes.extractLsb' 56 8)).toNat

theorem isV7_uuidv7 (reading : ClockReading) : (uuidv7 reading).IsV7 := by
  refine ⟨uuidv7_version reading, ?_⟩
  have hbits : (uuidv7 reading).bits.extractLsb' 62 2 = 2#2 := by
    apply BitVec.eq_of_getLsbD_eq
    intro i hi
    have hcases : i = 0 ∨ i = 1 := by omega
    unfold uuidv7
    rcases hcases with rfl | rfl
    · simp only [BitVec.getLsbD_extractLsb', BitVec.getLsbD_append, BitVec.getLsbD_or,
        BitVec.getLsbD_and]
      simp
    · simp only [BitVec.getLsbD_extractLsb', BitVec.getLsbD_append, BitVec.getLsbD_or,
        BitVec.getLsbD_and]
      simp
  exact congrArg BitVec.toNat hbits

theorem uuidv7_randA (reading : ClockReading) : (uuidv7 reading).randA = reading.randA := by
  unfold UUID.randA ClockReading.randA
  apply congrArg BitVec.toNat
  apply BitVec.eq_of_getLsbD_eq
  intro i hi
  unfold uuidv7
  simp only [BitVec.getLsbD_extractLsb', BitVec.getLsbD_append, BitVec.getLsbD_or,
    BitVec.getLsbD_and, hi, decide_true, Bool.true_and]
  have hrest : ¬(64 + i < 56) := by omega
  have hvariant : ¬(64 + i - 56 < 8) := by omega
  by_cases hlow : i < 8
  · -- the third random byte
    have hindex : 64 + i - 56 - 8 = i := by omega
    simp [hrest, hvariant, hindex, hlow]
  · -- the lower half of the first, which the stamp leaves as it is
    have hbyte : ¬(64 + i - 56 - 8 < 8) := by omega
    have hindex : 64 + i - 56 - 8 - 8 = i - 8 := by omega
    have hcases : i - 8 = 0 ∨ i - 8 = 1 ∨ i - 8 = 2 ∨ i - 8 = 3 := by omega
    simp only [hrest, hvariant, hbyte, hlow, hindex, decide_false, if_false]
    rcases hcases with h | h | h | h <;> simp [h]

theorem uuidv7Attempts_congr {floor : UUID} {readings readings' : Nat -> ClockReading} {i n : Nat}
    (h : forall j, j < i + n -> readings j = readings' j) :
    uuidv7Attempts floor readings i n = uuidv7Attempts floor readings' i n := by
  induction n generalizing i with
  | zero => rfl
  | succ n ih =>
      unfold uuidv7Attempts
      rw [h i (by omega), ih (fun j hj => h j (by omega))]

/-!
# The fallback
-/

theorem isV7_fallback_iff {floor u : UUID} (hfloor : floor.IsV7)
    (hu : u = .ofInt (min (floor.int + 1) (2 ^ 128 - 1))) :
    u.version = 7 ∧ floor.int < u.int ∧
      (u.variantBits = 2 <-> floor.randB ≠ 2 ^ 62 - 1) := by
  have hlast := int_lt_of_version hfloor.version
  have hint : u.int = floor.int + 1 := by
    rw [hu, UUID.int_ofInt (by omega)]
    omega
  have hversion := hfloor.version
  have hvariant := hfloor.variant
  rw [UUID.version_eq] at hversion
  rw [UUID.variantBits_eq] at hvariant
  refine ⟨?_, by omega, ?_⟩
  · -- a carry out of the last bits ends in the variant bits, which are not both set
    rw [UUID.version_eq]
    omega
  · rw [UUID.variantBits_eq, UUID.randB_eq]
    omega

end Python

/-!
# Following the floor
-/

/-- What is said of `uuidv7_after(floor)`: it comes back after its attempts with a greater
UUIDv7, and each attempt carries the time of its clock. -/
structure FollowsFloor (floor : UUID) (readings : Nat -> ClockReading) : Prop where
  attempts : forall readings', (forall i, i < 64 -> readings i = readings' i) ->
    uuidv7After floor readings' = uuidv7After floor readings
  above : floor.int < (uuidv7After floor readings).int
  isV7 : (uuidv7After floor readings).IsV7
  /-- Cassandra puts it among the ids of version 7 where the integers do. -/
  ordered : forall v : UUID, v.version = 7 ->
    (v < uuidv7After floor readings <-> v.int < (uuidv7After floor readings).int)
  timestamp : forall i, (uuidv7 (readings i)).timestampMs = (readings i).timestampMs.toNat

/-- One more than the floor does not carry into its variant, or an attempt reads a later time,
or at the same time greater bits behind the version. -/
def HasRoom (floor : UUID) (readings : Nat -> ClockReading) : Prop :=
  floor.randB ≠ 2 ^ 62 - 1 ∨ exists i, i < 64 ∧
    (floor.timestampMs < (readings i).timestampMs.toNat ∨
      (floor.timestampMs = (readings i).timestampMs.toNat ∧ floor.randA < (readings i).randA))

section Floors

variable {floor : UUID} {readings : Nat -> ClockReading}

theorem uuidv7After_version (hfloor : floor.IsV7) :
    (uuidv7After floor readings).version = 7 := by
  rcases uuidv7After_cases floor readings with ⟨i, _, _, heq⟩ | ⟨_, heq⟩
  · rw [heq]
    exact uuidv7_version (readings i)
  · exact (isV7_fallback_iff hfloor heq).left

theorem lt_iff_int_lt {u v : UUID} (hu : u.version = 7) (hv : v.version = 7) :
    u < v <-> u.int < v.int := by
  constructor
  · intro hlt
    by_contra hge
    rcases Nat.eq_or_lt_of_le (Nat.le_of_not_lt hge) with heq | hgt
    · rw [UUID.int_injective heq] at hlt
      exact lt_irrefl u hlt
    · exact lt_asymm hlt (UUID.lt_of_int_lt (hv.trans hu.symm) (by rw [hv]; decide) hgt)
  · exact UUID.lt_of_int_lt (hu.trans hv.symm) (by rw [hu]; decide)

/-- The variant is that of the RFC exactly if there is room above the floor. -/
theorem variantBits_uuidv7After (hfloor : floor.IsV7) :
    (uuidv7After floor readings).variantBits = 2 <-> HasRoom floor readings := by
  have hcandidate : forall i, floor.randB = 2 ^ 62 - 1 ->
      (floor.int < (uuidv7 (readings i)).int <->
        (floor.timestampMs < (readings i).timestampMs.toNat ∨
          (floor.timestampMs = (readings i).timestampMs.toNat ∧
            floor.randA < (readings i).randA))) := by
    intro i hones
    rw [UUID.int_lt_iff_of_ones hfloor (isV7_uuidv7 _) hones, uuidv7_timestampMs, uuidv7_randA]
  rcases uuidv7After_cases floor readings with ⟨i, hi, hlt, heq⟩ | ⟨hnone, heq⟩
  · rw [heq]
    refine iff_of_true (isV7_uuidv7 _).variant ?_
    by_cases hones : floor.randB = 2 ^ 62 - 1
    · exact Or.inr ⟨i, hi, (hcandidate i hones).mp hlt⟩
    · exact Or.inl hones
  · rw [(isV7_fallback_iff hfloor heq).right.right]
    constructor
    · exact Or.inl
    · rintro (hroom | ⟨i, hi, hlater⟩) hones
      · exact hroom hones
      · exact hnone i hi ((hcandidate i hones).mpr hlater)

/-- `uuidv7_after` follows its floor exactly if there is room above it. -/
theorem followsFloor_iff (hfloor : floor.IsV7) :
    FollowsFloor floor readings <-> HasRoom floor readings := by
  rw [← variantBits_uuidv7After hfloor]
  constructor
  · exact fun h => h.isV7.variant
  · intro hvariant
    have hversion : (uuidv7After floor readings).version = 7 := uuidv7After_version hfloor
    exact
      { attempts := fun readings' h => uuidv7Attempts_congr (fun j hj => (h j (by omega)).symm)
        above := uuidv7After_gt readings (int_lt_of_version hfloor.version)
        isV7 := ⟨hversion, hvariant⟩
        ordered := fun v hv => lt_iff_int_lt hv hversion
        timestamp := fun i => uuidv7_timestampMs (readings i) }

/-- The floor of a clock that has been set back, with random bytes of ones only. -/
def saturatedFloor : UUID :=
  uuidv7 ⟨1000, BitVec.allOnes 80⟩

theorem saturatedFloor_notFollowed :
    saturatedFloor.IsV7 ∧ ¬FollowsFloor saturatedFloor (fun _ => ⟨999, 0⟩) := by
  refine ⟨isV7_uuidv7 _, ?_⟩
  have hbelow : ¬(saturatedFloor.timestampMs < (999#48).toNat ∨
      (saturatedFloor.timestampMs = (999#48).toNat ∧
        saturatedFloor.randA < ClockReading.randA ⟨999, 0⟩)) := by decide
  intro h
  rcases (variantBits_uuidv7After (isV7_uuidv7 _)).mp h.isV7.variant with hroom | ⟨_, _, hlater⟩
  · exact hroom (by decide)
  · exact hbelow hlater

/-- The third attempt sees the clock pass the floor. -/
theorem saturatedFloor_followed :
    FollowsFloor saturatedFloor (fun i => ⟨BitVec.ofNat 48 (999 + i), 0⟩) :=
  (followsFloor_iff (isV7_uuidv7 _)).mpr (Or.inr ⟨2, by decide, Or.inl (by decide)⟩)

end Floors
end ConversationService
