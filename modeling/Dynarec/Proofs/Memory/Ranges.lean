import Dynarec.Memory.Dirty
import Dynarec.Proofs.Memory.Page

/-!
The pages of a query and the ranges of its answer. A query goes through the pages that meet its range in ascending order;
neighbouring pages are joined, so that the ranges of an answer are whole pages with gaps between them.
-/
namespace Dynarec
namespace Memory

/-- A range has a byte in a page. What lies past the top of the address space is in no page. -/
def Meets (address size page : UInt64) : Prop :=
  ∃ byte : UInt64, address ≤ byte ∧ byte.toNat < address.toNat + size.toNat ∧ pageOf byte = page

/-- An address lies in one of the ranges. -/
def Covers (ranges : List (UInt64 × Nat)) (byte : UInt64) : Prop :=
  ∃ range ∈ ranges, range.1.toNat ≤ byte.toNat ∧ byte.toNat < range.1.toNat + range.2

/-- Ranges of whole pages within the address space, in ascending order, each with a gap to the next. -/
structure Tidy (ranges : List (UInt64 × Nat)) : Prop where
  whole : ∀ range ∈ ranges, inPage range.1 = 0 ∧ range.2 % pageSize = 0 ∧ 0 < range.2
  below : ∀ range ∈ ranges, range.1.toNat + range.2 ≤ 0x10000000000000000
  apart : ranges.Pairwise fun left right => left.1.toNat + left.2 < right.1.toNat

variable {address size page byte start : UInt64} {length : Nat} {pages : List UInt64} {ranges : List (UInt64 × Nat)}

theorem pageOf_eq_iff_within (aligned : inPage page = 0) :
    pageOf byte = page ↔ page.toNat ≤ byte.toNat ∧ byte.toNat < page.toNat + pageSize := by
  rw [← UInt64.toNat_inj, toNat_pageOf, pageSize]
  rw [inPage_eq] at aligned
  omega

theorem page_below (aligned : inPage page = 0) : page.toNat + pageSize ≤ 0x10000000000000000 := by
  have bound := page.toNat_lt
  rw [inPage_eq] at aligned
  rw [pageSize]
  omega

theorem pagesOf_eq (address size : UInt64) : pagesOf address size =
    if size = 0 then [] else
      (List.range ((min (address.toNat + size.toNat) 0xffffffffffffffff - (pageOf address).toNat + pageSize - 1) /
        pageSize)).map (pageAt (pageOf address)) := by
  unfold pagesOf
  split
  · rfl
  · refine List.map_congr_left fun index _ => ?_
    rw [← UInt64.toNat_inj, pageAt, toNat_add_ofNat, UInt64.toNat_ofNat']

theorem lt_count_iff {index length : Nat} : index < (length + pageSize - 1) / pageSize ↔ index * pageSize < length := by
  rw [pageSize]
  omega

theorem toNat_page_of_query {index : Nat}
    (inside : index * pageSize < min (address.toNat + size.toNat) 0xffffffffffffffff - (pageOf address).toNat) :
    (pageAt (pageOf address) index).toNat = (pageOf address).toNat + index * pageSize :=
  toNat_pageAt (by omega)

theorem mem_pagesOf : page ∈ pagesOf address size ↔ Meets address size page := by
  have bound := address.toNat_lt
  have first := toNat_pageOf address
  rw [pagesOf_eq]
  split
  · next empty =>
    subst empty
    constructor
    · intro member
      cases member
    · rintro ⟨byte, low, high, _⟩
      rw [UInt64.le_iff_toNat_le] at low
      rw [UInt64.toNat_zero] at high
      omega
  · next some =>
    have pos : 0 < size.toNat := by
      rw [← UInt64.toNat_inj, UInt64.toNat_zero] at some
      omega
    simp only [List.mem_map, List.mem_range, lt_count_iff]
    constructor
    · rintro ⟨index, inside, rfl⟩
      have place := toNat_page_of_query inside
      rw [pageSize] at inside place
      cases index with
      | zero => exact ⟨address, UInt64.le_refl address, Nat.lt_add_of_pos_right pos, by rw [pageAt_zero]⟩
      | succ index =>
        refine ⟨_, ?_, ?_, pageOf_eq_self (inPage_pageAt (inPage_pageOf address) (index + 1))⟩
        · rw [UInt64.le_iff_toNat_le, place]
          omega
        · rw [place]
          omega
    · rintro ⟨byte, low, high, rfl⟩
      have byteBound := byte.toNat_lt
      have own := toNat_pageOf byte
      rw [UInt64.le_iff_toNat_le] at low
      have inside : ((pageOf byte).toNat - (pageOf address).toNat) / pageSize * pageSize <
          min (address.toNat + size.toNat) 0xffffffffffffffff - (pageOf address).toNat := by
        rw [pageSize]
        omega
      refine ⟨_, inside, ?_⟩
      rw [← UInt64.toNat_inj, toNat_page_of_query inside, pageSize]
      omega

theorem inPage_of_mem_pagesOf (member : page ∈ pagesOf address size) : inPage page = 0 := by
  obtain ⟨byte, _, _, rfl⟩ := mem_pagesOf.mp member
  exact inPage_pageOf byte

theorem pairwise_pagesOf (address size : UInt64) : (pagesOf address size).Pairwise (· < ·) := by
  have bound := address.toNat_lt
  have first := toNat_pageOf address
  rw [pagesOf_eq]
  split
  · exact .nil
  · refine List.pairwise_map.mpr (List.pairwise_lt_range.imp_of_mem fun {early late} _ member before => ?_)
    have inside := lt_count_iff.mp (List.mem_range.mp member)
    have earlier : early * pageSize < _ := (Nat.mul_lt_mul_of_pos_right before (by decide)).trans inside
    rw [UInt64.lt_iff_toNat_lt, toNat_page_of_query inside, toNat_page_of_query earlier, pageSize]
    omega

theorem Tidy.tail {range : UInt64 × Nat} (tidy : Tidy (range :: ranges)) : Tidy ranges :=
  ⟨fun other member => tidy.whole other (List.mem_cons_of_mem _ member),
    fun other member => tidy.below other (List.mem_cons_of_mem _ member), tidy.apart.of_cons⟩

/-- A range may come before others if it ends before the first of them. -/
theorem Tidy.cons (tidy : Tidy ranges) (whole : inPage start = 0 ∧ length % pageSize = 0 ∧ 0 < length)
    (below : start.toNat + length ≤ 0x10000000000000000)
    (apart : ∀ range ∈ ranges, start.toNat + length < range.1.toNat) : Tidy ((start, length) :: ranges) :=
  ⟨List.forall_mem_cons.mpr ⟨whole, tidy.whole⟩, List.forall_mem_cons.mpr ⟨below, tidy.below⟩,
    List.pairwise_cons.mpr ⟨apart, tidy.apart⟩⟩

theorem covers_cons {range : UInt64 × Nat} : Covers (range :: ranges) byte ↔
    (range.1.toNat ≤ byte.toNat ∧ byte.toNat < range.1.toNat + range.2) ∨ Covers ranges byte := by
  simp [Covers]

theorem coalesce_cons (page : UInt64) (rest : List UInt64) :
    ∃ length ranges, coalesce (page :: rest) = (page, length) :: ranges := by
  rw [coalesce]
  split
  · split <;> exact ⟨_, _, rfl⟩
  · exact ⟨_, _, rfl⟩

/-- Joined, ascending pages are tidy ranges that cover just these pages. -/
theorem coalesce_spec (pages : List UInt64) (aligned : ∀ page ∈ pages, inPage page = 0) (ascending : pages.Pairwise (· < ·)) :
    Tidy (coalesce pages) ∧ ∀ byte, Covers (coalesce pages) byte ↔ pageOf byte ∈ pages := by
  induction pages with
  | nil => exact ⟨⟨by simp [coalesce], by simp [coalesce], .nil⟩, by simp [coalesce, Covers]⟩
  | cons page rest ih =>
    obtain ⟨own, others⟩ := List.forall_mem_cons.mp aligned
    obtain ⟨before, later⟩ := List.pairwise_cons.mp ascending
    obtain ⟨tidy, covers⟩ := ih others later
    have inOwn : ∀ byte, pageOf byte = page ↔ page.toNat ≤ byte.toNat ∧ byte.toNat < page.toNat + pageSize :=
      fun byte => pageOf_eq_iff_within own
    have whole : inPage page = 0 ∧ pageSize % pageSize = 0 ∧ 0 < pageSize := ⟨own, by decide, by decide⟩
    cases rest with
    | nil =>
      refine ⟨tidy.cons whole (page_below own) (by simp [coalesce]), fun byte => ?_⟩
      rw [List.mem_singleton, inOwn]
      simp [coalesce, Covers]
    | cons next rest =>
      obtain ⟨length, ranges, joined⟩ := coalesce_cons next rest
      rw [joined] at tidy covers
      have behind := before next List.mem_cons_self
      have nextOwn := others next List.mem_cons_self
      obtain ⟨⟨_, multiple, pos⟩, _⟩ := List.forall_mem_cons.mp tidy.whole
      obtain ⟨limit, _⟩ := List.forall_mem_cons.mp tidy.below
      obtain ⟨first, _⟩ := List.pairwise_cons.mp tidy.apart
      rw [UInt64.lt_iff_toNat_lt] at behind
      rw [coalesce, joined]
      dsimp only
      split
      · next touching =>
        -- the first of the other ranges grows towards the front
        constructor
        · refine tidy.tail.cons ⟨own, by rw [Nat.add_mod_right]; exact multiple, by omega⟩ (by dsimp only at limit; omega) ?_
          intro range member
          have apart := first range member
          dsimp only at apart
          omega
        · intro byte
          have rest := covers byte
          rw [covers_cons] at rest
          rw [covers_cons, List.mem_cons, ← rest, inOwn]
          dsimp only
          rw [← or_assoc]
          refine or_congr_left ?_
          omega
      · next gap =>
        have clear : page.toNat + pageSize < next.toNat := by
          rw [inPage_eq] at own nextOwn
          rw [pageSize] at *
          omega
        constructor
        · refine tidy.cons whole (page_below own) (List.forall_mem_cons.mpr ⟨clear, ?_⟩)
          intro range member
          have apart := first range member
          dsimp only at apart
          omega
        · intro byte
          rw [covers_cons, List.mem_cons, covers byte, inOwn]

end Memory
end Dynarec
