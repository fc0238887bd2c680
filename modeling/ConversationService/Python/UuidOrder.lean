import ConversationService.Python.Uuid

/-!
# Time in UUIDs

The first 48 bits of a version 7 UUID are the milliseconds of its clock reading, so
later readings give larger ids. Cassandra compares the versions first: among ids of
version 7 it keeps this order, and it puts every smaller version below them.
-/

namespace ConversationService
namespace Python
namespace UUID

/-- The first 48 bits. -/
def timestampMs (u : UUID) : Nat :=
  u.int / 2 ^ 80

theorem version_eq (u : UUID) : u.version = u.int / 2 ^ 76 % 16 := by
  unfold version int
  rw [BitVec.extractLsb'_toNat, Nat.shiftRight_eq_div_pow]

theorem int_lt_of_timestampMs {u v : UUID} (h : u.timestampMs < v.timestampMs) :
    u.int < v.int := by
  unfold timestampMs at h
  omega

/-!
# The two orders
-/

theorem lt_of_int_lt {u v : UUID} (hversion : u.version = v.version)
    (hone : u.version ≠ 1) (h : u.int < v.int) : u < v := by
  rw [lt_iff_clusteringKey]
  unfold clusteringKey
  rw [← hversion, if_neg hone, if_neg hone]
  omega

theorem lt_of_version_lt {u v : UUID} (h : u.version < v.version) : u < v := by
  rw [lt_iff_clusteringKey]
  have hu := int_lt u
  have hstamp : (if u.version = 1 then u.reorderTimestampBytes else 0) < 2 ^ 64 := by
    split
    · exact BitVec.isLt _
    · decide
  unfold clusteringKey
  omega

end UUID

/-!
# The generators
-/

theorem uuidv7_timestampMs (reading : ClockReading) :
    (uuidv7 reading).timestampMs = reading.timestampMs.toNat := by
  have hint : (uuidv7 reading).int / 2 ^ 80 % 2 ^ 48 =
      ((uuidv7 reading).bits.extractLsb' 80 48).toNat := by
    unfold UUID.int
    rw [BitVec.extractLsb'_toNat, Nat.shiftRight_eq_div_pow]
  have hbits : (uuidv7 reading).bits.extractLsb' 80 48 = reading.timestampMs := by
    apply BitVec.eq_of_getLsbD_eq
    intro i hi
    unfold uuidv7
    simp only [BitVec.getLsbD_extractLsb', BitVec.getLsbD_append, hi, decide_true,
      Bool.true_and]
    have h1 : ¬(80 + i < 56) := by omega
    have h2 : ¬(80 + i - 56 < 8) := by omega
    have h3 : ¬(80 + i - 56 - 8 < 8) := by omega
    have h4 : ¬(80 + i - 56 - 8 - 8 < 8) := by omega
    have h5 : 80 + i - 56 - 8 - 8 - 8 = i := by omega
    simp [h1, h2, h3, h4, h5]
  rw [hbits] at hint
  have hlt := (uuidv7 reading).int_lt
  unfold UUID.timestampMs
  omega

/-- The variant bits: the lower half of the integer is not all ones. -/
theorem uuidv7_variant (reading : ClockReading) :
    (uuidv7 reading).int % 2 ^ 64 ≠ 2 ^ 64 - 1 := by
  have hint : (uuidv7 reading).int / 2 ^ 62 % 2 ^ 1 =
      ((uuidv7 reading).bits.extractLsb' 62 1).toNat := by
    unfold UUID.int
    rw [BitVec.extractLsb'_toNat, Nat.shiftRight_eq_div_pow]
  have hbits : (uuidv7 reading).bits.extractLsb' 62 1 = 0#1 := by
    apply BitVec.eq_of_getLsbD_eq
    intro i hi
    have hzero : i = 0 := by omega
    subst hzero
    unfold uuidv7
    simp only [BitVec.getLsbD_extractLsb', BitVec.getLsbD_append, BitVec.getLsbD_or,
      BitVec.getLsbD_and]
    simp
  rw [hbits] at hint
  intro hones
  simp only [BitVec.toNat_ofNat] at hint
  omega

/-- The integer above an id of `uuidv7` has the same time and version. -/
theorem fallback_uuidv7 (reading : ClockReading) {u : UUID}
    (hu : u = .ofInt (min ((uuidv7 reading).int + 1) (2 ^ 128 - 1))) :
    u.version = 7 ∧ u.timestampMs = reading.timestampMs.toNat ∧ uuidv7 reading < u := by
  have hversion := uuidv7_version reading
  have htime := uuidv7_timestampMs reading
  have hvariant := uuidv7_variant reading
  have hlast := int_lt_of_version hversion
  have hint : u.int = (uuidv7 reading).int + 1 := by
    rw [hu, UUID.int_ofInt (by omega)]
    omega
  have hseven : u.version = 7 := by
    rw [UUID.version_eq] at hversion ⊢
    omega
  refine ⟨hseven, ?_, ?_⟩
  · rw [← htime]
    unfold UUID.timestampMs
    omega
  · apply UUID.lt_of_int_lt
    · rw [hversion, hseven]
    · rw [hversion]
      decide
    · omega

theorem uuidv7After_cases (floor : UUID) (readings : Nat -> ClockReading) :
    (exists i, i < 64 ∧ floor.int < (uuidv7 (readings i)).int ∧
      uuidv7After floor readings = uuidv7 (readings i)) ∨
    ((forall i, i < 64 -> ¬floor.int < (uuidv7 (readings i)).int) ∧
      uuidv7After floor readings = .ofInt (min (floor.int + 1) (2 ^ 128 - 1))) := by
  have hfrom : forall n i, (exists j, j < i + n ∧ floor.int < (uuidv7 (readings j)).int ∧
        uuidv7Attempts floor readings i n = uuidv7 (readings j)) ∨
      ((forall j, i ≤ j -> j < i + n -> ¬floor.int < (uuidv7 (readings j)).int) ∧
        uuidv7Attempts floor readings i n =
          .ofInt (min (floor.int + 1) (2 ^ 128 - 1))) := by
    intro n
    induction n with
    | zero =>
        intro i
        right
        refine ⟨?_, rfl⟩
        intro j hj hlt
        omega
    | succ n ih =>
        intro i
        unfold uuidv7Attempts
        split
        · rename_i hhead
          exact Or.inl ⟨i, by omega, hhead, rfl⟩
        · rename_i hhead
          rcases ih (i + 1) with ⟨j, hj, hlt, heq⟩ | ⟨hnone, heq⟩
          · exact Or.inl ⟨j, by omega, hlt, heq⟩
          · right
            refine ⟨?_, heq⟩
            intro j hj hlt
            rcases Nat.eq_or_lt_of_le hj with rfl | hnext
            · exact hhead
            · exact hnone j hnext (by omega)
  rcases hfrom 64 0 with ⟨j, hj, hlt, heq⟩ | ⟨hnone, heq⟩
  · exact Or.inl ⟨j, by omega, hlt, heq⟩
  · exact Or.inr ⟨fun i hi => hnone i (Nat.zero_le i) (by omega), heq⟩

end Python
end ConversationService
