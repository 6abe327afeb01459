import Dynarec.Memory.Mapping
import Mathlib

/-!
Pages of the address space. An address is its page and its place in it; addresses that share a page translate at the
same distance, and the pages of a range follow one another.
-/
namespace Dynarec
namespace Memory

variable {memory : Memory} {address other page : UInt64}

theorem inPage_eq (address : UInt64) : inPage address = address.toNat % 0x1000 := rfl

theorem toNat_pageOf (address : UInt64) : (pageOf address).toNat = address.toNat - address.toNat % 0x1000 := by
  have bound := address.toNat_lt
  rw [pageOf, inPage_eq, UInt64.toNat_ofNat']
  omega

theorem inPage_pageOf (address : UInt64) : inPage (pageOf address) = 0 := by
  rw [inPage_eq, toNat_pageOf]
  omega

theorem pageOf_eq_iff : pageOf address = pageOf other ↔ address.toNat / 0x1000 = other.toNat / 0x1000 := by
  rw [← UInt64.toNat_inj, toNat_pageOf, toNat_pageOf]
  omega

theorem pageOf_eq_self (aligned : inPage page = 0) : pageOf page = page := by
  rw [← UInt64.toNat_inj, toNat_pageOf]
  rw [inPage_eq] at aligned
  omega

theorem toNat_add_ofNat (address : UInt64) (distance : Nat) :
    (address + UInt64.ofNat distance).toNat = (address.toNat + distance) % 0x10000000000000000 := by
  rw [UInt64.toNat_add, UInt64.toNat_ofNat', Nat.add_mod_mod]

/-- Distances add up, around the top of the address space too. -/
theorem add_ofNat_add (address : UInt64) (first second : Nat) :
    address + UInt64.ofNat first + UInt64.ofNat second = address + UInt64.ofNat (first + second) := by
  rw [← UInt64.toNat_inj]
  simp only [toNat_add_ofNat]
  omega

theorem add_ofNat_zero (address : UInt64) : address + UInt64.ofNat 0 = address := by
  rw [← UInt64.toNat_inj, toNat_add_ofNat]
  have bound := address.toNat_lt
  omega

theorem pageOf_add_inPage (address : UInt64) : pageOf address + UInt64.ofNat (inPage address) = address := by
  have bound := address.toNat_lt
  rw [← UInt64.toNat_inj, toNat_add_ofNat, toNat_pageOf, inPage_eq]
  omega

theorem inPage_add (address : UInt64) (distance : Nat) :
    inPage (address + UInt64.ofNat distance) = (address.toNat + distance) % 0x1000 := by
  rw [inPage_eq, toNat_add_ofNat]
  omega

theorem inPage_add_of_lt {distance : Nat} (inside : inPage address + distance < pageSize) :
    inPage (address + UInt64.ofNat distance) = inPage address + distance := by
  rw [inPage_add]
  rw [inPage_eq, pageSize] at *
  omega

theorem pageOf_add_of_lt {distance : Nat} (inside : inPage address + distance < pageSize) :
    pageOf (address + UInt64.ofNat distance) = pageOf address := by
  have bound := address.toNat_lt
  rw [pageOf_eq_iff, toNat_add_ofNat]
  rw [inPage_eq, pageSize] at inside
  omega

theorem translate_add (memory : Memory) {distance : Nat} (inside : inPage address + distance < pageSize) :
    memory.translate (address + UInt64.ofNat distance) = (memory.translate address).map (· + distance) := by
  rw [translate, translate, pageOf_add_of_lt inside, inPage_add_of_lt inside, Option.map_map]
  congr 1
  funext place
  exact (Nat.add_assoc place (inPage address) distance).symm

theorem isMapped_congr (same : pageOf address = pageOf other) : memory.isMapped address = memory.isMapped other := by
  simp only [isMapped, translate, Option.isSome_map, same]

theorem isMapped_pageOf (address : UInt64) : memory.isMapped (pageOf address) = memory.isMapped address :=
  isMapped_congr (pageOf_eq_self (inPage_pageOf address))

theorem pageAt_zero (address : UInt64) : pageAt address 0 = address := by
  rw [pageAt, Nat.zero_mul, add_ofNat_zero]

theorem pageAt_pageAt (address : UInt64) (first second : Nat) :
    pageAt (pageAt address first) second = pageAt address (first + second) := by
  simp only [pageAt, add_ofNat_add, Nat.add_mul]

theorem toNat_pageAt {index : Nat} (below : address.toNat + index * pageSize < 0x10000000000000000) :
    (pageAt address index).toNat = address.toNat + index * pageSize := by
  rw [pageAt, toNat_add_ofNat, Nat.mod_eq_of_lt below]

theorem inPage_pageAt (aligned : inPage address = 0) (index : Nat) : inPage (pageAt address index) = 0 := by
  rw [pageAt, inPage_add, pageSize]
  rw [inPage_eq] at aligned
  omega

theorem pageOf_add (aligned : inPage address = 0) (distance : Nat) :
    pageOf (address + UInt64.ofNat distance) = pageAt address (distance / pageSize) := by
  have split : distance = distance / pageSize * pageSize + distance % pageSize := by
    rw [pageSize]
    omega
  have start := inPage_pageAt aligned (distance / pageSize)
  have inside : inPage (pageAt address (distance / pageSize)) + distance % pageSize < pageSize := by
    rw [start, Nat.zero_add]
    exact Nat.mod_lt _ (by decide)
  rw [← pageOf_eq_self start, ← pageOf_add_of_lt inside, pageAt, add_ofNat_add, ← split]

theorem inPage_add_of_aligned (aligned : inPage address = 0) (distance : Nat) :
    inPage (address + UInt64.ofNat distance) = distance % pageSize := by
  rw [inPage_add, pageSize]
  rw [inPage_eq] at aligned
  omega

end Memory
end Dynarec
