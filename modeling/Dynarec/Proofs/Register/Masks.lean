import Dynarec.Proofs.Register.LiveIn

/-!
Live-in masks against lists of registers. A register sets the one bit that tells whether it is held, and this bit is
decoded to it again; masks without other bits are told by the registers they hold, and are read in one order.
-/
namespace Dynarec

/-- The place of a register in the order: integer registers, flags, vector registers, each by index. -/
def Register.rank (register : Register) : Nat :=
  match register.cls with
  | .integer => register.index
  | .flag => 32 + register.index
  | .vector => 64 + register.index

namespace LiveIn

/-- The mask that holds the registers of a class. -/
def maskOf (sets : LiveIn) (cls : RegisterClass) : UInt64 :=
  match cls with
  | .vector => sets.vector
  | _ => sets.integer

variable {sets other : LiveIn} {register : Register} {position : Nat}

theorem maskOf_scalar (sets : LiveIn) {cls : RegisterClass} (scalar : cls ≠ .vector) : sets.maskOf cls = sets.integer := by
  cases cls with
  | vector => exact absurd rfl scalar
  | integer => rfl
  | flag => rfl

theorem bit_lt (register : Register) : bit register < 64 := by
  have small := register.index.isLt
  unfold bit
  split <;> omega

theorem bit_lt_of_vector (vector : register.cls = .vector) : bit register < 32 := by
  have small := register.index.isLt
  simp [bit, vector, small]

theorem toNat_mask (register : Register) : (mask register).toNat = 2 ^ bit register := by
  have small := bit_lt register
  have power : 2 ^ bit register < 2 ^ 64 := Nat.pow_lt_pow_right (by omega) small
  have place : bit register % 2 ^ 64 % 64 = bit register := by omega
  rw [mask, UInt64.toNat_shiftLeft, UInt64.toNat_ofNat', place, UInt64.toNat_one, Nat.one_shiftLeft,
    Nat.mod_eq_of_lt power]

/-- A register is held exactly if its bit is set. -/
theorem contains_iff : sets.contains register = true ↔ (sets.maskOf register.cls).toNat.testBit (bit register) = true := by
  have tested (word : UInt64) : (word &&& mask register != 0) = true ↔ word.toNat.testBit (bit register) = true := by
    rw [bne_iff_ne, ne_eq, ← UInt64.toNat_inj, UInt64.toNat_and, toNat_mask, Nat.and_two_pow, UInt64.toNat_zero]
    cases word.toNat.testBit (bit register) <;> simp
  unfold contains maskOf
  cases register.cls <;> exact tested _

/-- One bit stands for one register of the classes that share its mask. -/
theorem eq_of_bit {left right : Register} (half : left.cls = .vector ↔ right.cls = .vector)
    (same : bit left = bit right) : left = right := by
  obtain ⟨leftClass, leftIndex⟩ := left
  obtain ⟨rightClass, rightIndex⟩ := right
  cases leftClass <;> cases rightClass <;> simp only [bit, reduceCtorEq, iff_true, iff_false, not_true] at half same <;>
    first
      | omega
      | (congr; omega)

theorem contains_insert (sets : LiveIn) (register member : Register) :
    (sets.insert register).contains member = true ↔ member = register ∨ sets.contains member = true := by
  rw [contains_iff, contains_iff]
  by_cases half : member.cls = .vector ↔ register.cls = .vector
  · have joined : (sets.insert register).maskOf member.cls = sets.maskOf member.cls ||| mask register := by
      unfold insert maskOf
      cases here : member.cls <;> cases there : register.cls <;> simp_all
    have own : bit register = bit member ↔ member = register :=
      ⟨fun same => eq_of_bit half same.symm, fun same => same ▸ rfl⟩
    rw [joined, UInt64.toNat_or, Nat.testBit_or, toNat_mask, Nat.testBit_two_pow, Bool.or_eq_true, decide_eq_true_eq, own,
      or_comm]
  · have kept : (sets.insert register).maskOf member.cls = sets.maskOf member.cls := by
      unfold insert maskOf
      cases here : member.cls <;> cases there : register.cls <;> simp_all
    have apart : member ≠ register := by
      rintro rfl
      exact half Iff.rfl
    rw [kept, or_iff_right apart]

theorem contains_ofList (registers : List Register) (member : Register) :
    (ofList registers).contains member = true ↔ member ∈ registers := by
  unfold ofList
  induction registers using List.reverseRecOn with
  | nil =>
    have empty : ({} : LiveIn).maskOf member.cls = 0 := by
      unfold maskOf
      split <;> rfl
    simp [contains_iff, empty]
  | append_singleton registers last ih =>
    rw [List.foldl_concat, contains_insert, ih, List.mem_append, List.mem_singleton, or_comm]

/-- No register sets a bit of the vector mask that names none. -/
theorem valid_ofList (registers : List Register) : (ofList registers).vector.toNat < 2 ^ 32 := by
  unfold ofList
  induction registers using List.reverseRecOn with
  | nil => decide
  | append_singleton registers last ih =>
    rw [List.foldl_concat]
    unfold insert
    split
    · next vector =>
      rw [UInt64.toNat_or, toNat_mask]
      exact Nat.or_lt_two_pow ih (Nat.pow_lt_pow_right (by omega) (bit_lt_of_vector vector))
    · exact ih

theorem bit_scalarAt (bound : position < 64) : bit (scalarAt position) = position := by
  unfold scalarAt
  split
  · next low => exact Nat.mod_eq_of_lt low
  · next high =>
    have place : 32 + position % 32 = position := by omega
    exact place

theorem cls_scalarAt (position : Nat) : (scalarAt position).cls ≠ .vector := by
  unfold scalarAt
  split <;> simp [Register.int, Register.flag, Register.ofNat]

theorem scalarAt_eq_iff (bound : position < 64) :
    scalarAt position = register ↔ register.cls ≠ .vector ∧ bit register = position := by
  constructor
  · rintro rfl
    exact ⟨cls_scalarAt position, bit_scalarAt bound⟩
  · rintro ⟨scalar, rfl⟩
    exact eq_of_bit (iff_of_false (cls_scalarAt _) scalar) (bit_scalarAt bound)

theorem vec_eq_iff (bound : position < 32) :
    Register.vec position = register ↔ register.cls = .vector ∧ bit register = position := by
  have own : bit (.vec position) = position := Nat.mod_eq_of_lt bound
  constructor
  · rintro rfl
    exact ⟨rfl, own⟩
  · rintro ⟨vector, rfl⟩
    exact eq_of_bit (iff_of_true rfl vector) own

theorem rank_eq (register : Register) :
    register.rank = (if register.cls = .vector then 64 else 0) + bit register := by
  unfold Register.rank bit
  cases register.cls <;> simp

theorem rank_injective {left right : Register} (same : left.rank = right.rank) : left = right := by
  have leftBit := bit_lt left
  have rightBit := bit_lt right
  rw [rank_eq, rank_eq] at same
  by_cases leftVector : left.cls = .vector <;> by_cases rightVector : right.cls = .vector <;>
    simp only [leftVector, rightVector, if_true, if_false] at same
  · exact eq_of_bit (iff_of_true leftVector rightVector) (by omega)
  · omega
  · omega
  · exact eq_of_bit (iff_of_false leftVector rightVector) (by omega)

/-- The registers of valid masks, as they are listed. -/
def listed (sets : LiveIn) : List Register := (bits sets.integer).map scalarAt ++ (bits sets.vector).map .vec

theorem mem_listed (valid : sets.vector.toNat < 2 ^ 32) : register ∈ sets.listed ↔ sets.contains register = true := by
  have scalars : register ∈ (bits sets.integer).map scalarAt ↔
      register.cls ≠ .vector ∧ sets.integer.toNat.testBit (bit register) = true := by
    rw [← mem_bits, List.mem_map]
    constructor
    · rintro ⟨position, member, same⟩
      obtain ⟨scalar, rfl⟩ := (scalarAt_eq_iff (lt_of_mem_bits member)).mp same
      exact ⟨scalar, member⟩
    · rintro ⟨scalar, member⟩
      exact ⟨_, member, (scalarAt_eq_iff (lt_of_mem_bits member)).mpr ⟨scalar, rfl⟩⟩
  have vectors : register ∈ (bits sets.vector).map .vec ↔
      register.cls = .vector ∧ sets.vector.toNat.testBit (bit register) = true := by
    rw [← mem_bits, List.mem_map]
    constructor
    · rintro ⟨position, member, same⟩
      obtain ⟨vector, rfl⟩ := (vec_eq_iff (lt_of_mem_bits_of_lt valid member)).mp same
      exact ⟨vector, member⟩
    · rintro ⟨vector, member⟩
      exact ⟨_, member, (vec_eq_iff (lt_of_mem_bits_of_lt valid member)).mpr ⟨vector, rfl⟩⟩
  rw [listed, List.mem_append, scalars, vectors, contains_iff]
  by_cases vector : register.cls = .vector
  · simp [vector, maskOf]
  · simp [vector, maskOf_scalar]

theorem pairwise_listed (valid : sets.vector.toNat < 2 ^ 32) :
    sets.listed.Pairwise fun left right => left.rank < right.rank := by
  have scalar {position : Nat} (member : position ∈ bits sets.integer) : (scalarAt position).rank = position := by
    rw [rank_eq, if_neg (cls_scalarAt position), bit_scalarAt (lt_of_mem_bits member), Nat.zero_add]
  have vector {position : Nat} (member : position ∈ bits sets.vector) : (Register.vec position).rank = 64 + position :=
    congrArg (64 + ·) (Nat.mod_eq_of_lt (lt_of_mem_bits_of_lt valid member))
  refine List.pairwise_append.mpr ⟨?_, ?_, ?_⟩
  · refine List.pairwise_map.mpr ((pairwise_bits sets.integer).imp_of_mem fun here there before => ?_)
    rwa [scalar here, scalar there]
  · refine List.pairwise_map.mpr ((pairwise_bits sets.vector).imp_of_mem fun here there before => ?_)
    rw [vector here, vector there]
    omega
  · intro left leftMember right rightMember
    obtain ⟨early, here, rfl⟩ := List.mem_map.mp leftMember
    obtain ⟨late, there, rfl⟩ := List.mem_map.mp rightMember
    have bound := lt_of_mem_bits here
    rw [scalar here, vector there]
    omega

theorem nodup_listed (valid : sets.vector.toNat < 2 ^ 32) : sets.listed.Nodup :=
  (pairwise_listed valid).imp fun before => ne_of_apply_ne Register.rank (Nat.ne_of_lt before)

/-- Bits that name registers are set where their registers are held. -/
theorem testBit_of_contains (valid : sets.vector.toNat < 2 ^ 32)
    (held : ∀ register, sets.contains register = true → other.contains register = true) (position : Nat) :
    (sets.integer.toNat.testBit position = true → other.integer.toNat.testBit position = true) ∧
      (sets.vector.toNat.testBit position = true → other.vector.toNat.testBit position = true) := by
  constructor
  · intro set
    have own := bit_scalarAt (lt_of_mem_bits (mem_bits.mpr set))
    have scalar (masks : LiveIn) := masks.maskOf_scalar (cls_scalarAt position)
    have there := contains_iff.mp (held (scalarAt position) (contains_iff.mpr (by rwa [own, scalar])))
    rwa [own, scalar] at there
  · intro set
    have own : bit (.vec position) = position := Nat.mod_eq_of_lt (lt_of_mem_bits_of_lt valid (mem_bits.mpr set))
    have there := contains_iff.mp (held (.vec position) (contains_iff.mpr (by rwa [own])))
    rwa [own] at there

theorem eq_of_contains (valid : sets.vector.toNat < 2 ^ 32) (validToo : other.vector.toNat < 2 ^ 32)
    (same : ∀ register, sets.contains register = true ↔ other.contains register = true) : sets = other := by
  have forth := testBit_of_contains valid fun register => (same register).mp
  have back := testBit_of_contains validToo fun register => (same register).mpr
  have integers : sets.integer = other.integer := UInt64.toNat_inj.mp <| Nat.eq_of_testBit_eq fun position =>
    Bool.eq_iff_iff.mpr ⟨(forth position).1, (back position).1⟩
  have vectors : sets.vector = other.vector := UInt64.toNat_inj.mp <| Nat.eq_of_testBit_eq fun position =>
    Bool.eq_iff_iff.mpr ⟨(forth position).2, (back position).2⟩
  cases sets
  cases other
  simp only at integers vectors
  rw [integers, vectors]

/-- Masks whose vector bits all name registers are listed without repetition in the order of registers, and any order of
their list collects to them again; for others the lowest vector bit that names no register is reported. Registers that are
collected are listed in order, each once. -/
theorem masks_invert :
    (∀ sets : LiveIn, if sets.vector.toNat < 2 ^ 32 then
      ∃ registers, sets.registers = .ok registers ∧ registers.Nodup ∧
        registers.Pairwise (fun left right => left.rank < right.rank) ∧
        (∀ register, register ∈ registers ↔ sets.contains register = true) ∧
        ∀ order : List Register, order.Perm registers → ofList order = sets
      else ∃ bit, sets.Stray bit ∧ sets.registers = .error ⟨bit, .vector⟩) ∧
    ∀ registers : List Register, (ofList registers).registers =
      .ok (registers.dedup.mergeSort fun left right => left.rank ≤ right.rank) := by
  constructor
  · intro sets
    split
    · next valid =>
      refine ⟨sets.listed, sets.registers_eq valid, nodup_listed valid, pairwise_listed valid,
        fun register => mem_listed valid, fun order perm => ?_⟩
      refine eq_of_contains (valid_ofList order) valid fun register => ?_
      rw [contains_ofList, perm.mem_iff, mem_listed valid]
    · next invalid => exact sets.registers_error invalid
  · intro registers
    have valid := valid_ofList registers
    have sorted := @List.pairwise_mergeSort _ (fun left right : Register => decide (left.rank ≤ right.rank))
      (by simpa using fun first second third : Register => le_trans)
      (by simpa using fun left right : Register => le_total _ _) registers.dedup
    have perm : (ofList registers).listed.Perm (registers.dedup.mergeSort fun left right => left.rank ≤ right.rank) := by
      refine List.Perm.trans ?_ (List.mergeSort_perm _ _).symm
      refine (List.perm_ext_iff_of_nodup (nodup_listed valid) registers.nodup_dedup).mpr fun register => ?_
      rw [mem_listed valid, contains_ofList, List.mem_dedup]
    rw [registers_eq _ valid]
    have ascending := (pairwise_listed valid).imp Nat.le_of_lt
    refine congrArg Except.ok (List.Perm.eq_of_pairwise ?_ ascending (by simpa using sorted) perm)
    exact fun left right _ _ below above => rank_injective (Nat.le_antisymm below above)

end LiveIn
end Dynarec
