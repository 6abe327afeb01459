import Dynarec.Proofs.Effect
import Dynarec.Register.LiveIn
import Mathlib

/-!
The registers of live-in masks. There are some unless the vector mask has a bit that names no register, and then the
lowest such bit is reported.
-/
namespace Dynarec
namespace LiveIn

/-- The register of a bit of the integer mask. -/
def scalarAt (bit : Nat) : Register := if bit < 32 then .int bit else .flag bit

theorem register?_integer {bit : Nat} (bound : bit < 64) : register? .integer bit = .ok (scalarAt bit) := by
  simp only [register?, scalarAt, bound, if_true]
  split <;> rfl

theorem mem_bits {mask : UInt64} {bit : Nat} : bit ∈ bits mask ↔ mask.toNat.testBit bit = true := by
  rw [bits, List.mem_filter, List.mem_range]
  refine and_iff_right_of_imp fun set => ?_
  by_contra far
  have clear : mask.toNat.testBit bit = false :=
    Nat.testBit_lt_two_pow (mask.toNat_lt.trans_le (Nat.pow_le_pow_right (by omega) (by omega)))
  rw [set] at clear
  cases clear

theorem lt_of_mem_bits {mask : UInt64} {bit : Nat} (member : bit ∈ bits mask) : bit < 64 :=
  List.mem_range.mp (List.mem_filter.mp member).1

theorem pairwise_bits (mask : UInt64) : (bits mask).Pairwise (· < ·) := List.pairwise_lt_range.filter _

theorem length_bits_le (mask : UInt64) : (bits mask).length ≤ 64 := by
  have filtered := List.length_filter_le mask.toNat.testBit (List.range 64)
  rwa [List.length_range] at filtered

theorem lt_of_mem_bits_of_lt {mask : UInt64} (valid : mask.toNat < 2 ^ 32) {bit : Nat} (member : bit ∈ bits mask) :
    bit < 32 := by
  by_contra high
  have clear : mask.toNat.testBit bit = false :=
    Nat.testBit_lt_two_pow (valid.trans_le (Nat.pow_le_pow_right (by omega) (by omega)))
  rw [mem_bits.mp member] at clear
  cases clear

theorem mapM_integer (mask : UInt64) : (bits mask).mapM (register? .integer) = .ok ((bits mask).map scalarAt) :=
  Effect.mapM_ok fun _ member => register?_integer (lt_of_mem_bits member)

/-- The registers that masks without bits of no register name. -/
theorem registers_eq (sets : LiveIn) (valid : sets.vector.toNat < 2 ^ 32) :
    sets.registers = .ok ((bits sets.integer).map scalarAt ++ (bits sets.vector).map .vec) := by
  have vectors : (bits sets.vector).mapM (register? .vector) = .ok ((bits sets.vector).map .vec) :=
    Effect.mapM_ok fun _ member => if_pos (lt_of_mem_bits_of_lt valid member)
  unfold registers
  rw [mapM_integer, vectors]
  rfl

/-- Masks without bits that name no register have registers, at most 128 of them. -/
theorem registers_ok (sets : LiveIn) (valid : sets.vector.toNat < 2 ^ 32) :
    ∃ registers, sets.registers = .ok registers ∧ registers.length ≤ 128 := by
  have scalars := length_bits_le sets.integer
  have vectors := length_bits_le sets.vector
  refine ⟨_, sets.registers_eq valid, ?_⟩
  rw [List.length_append, List.length_map, List.length_map]
  omega

/-- The bit is the lowest of the vector mask that names no register. -/
structure Stray (sets : LiveIn) (bit : Nat) : Prop where
  set : sets.vector.toNat.testBit bit = true
  high : 32 ≤ bit
  lowest : ∀ other, 32 ≤ other → sets.vector.toNat.testBit other = true → bit ≤ other

/-- Other masks have a lowest bit that names no register, which is the error. -/
theorem registers_error (sets : LiveIn) (invalid : ¬ sets.vector.toNat < 2 ^ 32) :
    ∃ bit, sets.Stray bit ∧ sets.registers = .error ⟨bit, .vector⟩ := by
  have sorted := pairwise_bits sets.vector
  cases found : (bits sets.vector).find? (32 ≤ ·) with
  | none =>
    refine absurd (Nat.lt_pow_two_of_testBit _ fun bit high => ?_) invalid
    by_contra set
    exact List.find?_eq_none.mp found bit (mem_bits.mpr (by simpa using set)) (by simpa using high)
  | some bit =>
    obtain ⟨high, front, rest, split, low⟩ := List.find?_eq_some_iff_append.mp found
    have high : 32 ≤ bit := by simpa using high
    have low : ∀ early ∈ front, early < 32 := by simpa using low
    have set : bit ∈ bits sets.vector := by simp [split]
    rw [split] at sorted
    refine ⟨bit, ⟨mem_bits.mp set, high, fun other far set => ?_⟩, ?_⟩
    · have member := mem_bits.mpr set
      rw [split] at member
      rcases List.mem_append.mp member with early | late
      · exact absurd (low other early) (by omega)
      · rcases List.mem_cons.mp late with rfl | later
        · exact Nat.le_refl _
        · exact (List.rel_of_pairwise_cons (List.pairwise_append.mp sorted).2.1 later).le
    · have passes : front.mapM (register? .vector) = .ok (front.map .vec) :=
        Effect.mapM_ok fun early member => if_pos (low early member)
      have fails : register? .vector bit = .error ⟨bit, .vector⟩ := if_neg (by omega)
      unfold registers
      rw [mapM_integer, split, List.mapM_append, passes, List.mapM_cons, fails]
      rfl

end LiveIn
end Dynarec
