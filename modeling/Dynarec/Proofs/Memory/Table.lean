import Dynarec.Memory.Mapping
import Dynarec.Proofs.Effect
import Dynarec.Proofs.Memory.Piece

/-!
The page table behind mapping and unmapping. A request is granted if it asks for whole pages below the top, to map for a
part of the store and to unmap for pages that are mapped; then exactly the requested pages change. The table stays
sound.
-/
namespace Dynarec
namespace Memory
open Effect

/-- The table with `count` pages from `address` on led to the store from `place` on. -/
def mapped (pages : Std.HashMap UInt64 Nat) (address : UInt64) (place count : Nat) : Std.HashMap UInt64 Nat :=
  (List.range count).foldl (fun pages index => pages.insert (pageAt address index) (place + index * pageSize)) pages

/-- The table without `count` pages from `address` on. -/
def unmapped (pages : Std.HashMap UInt64 Nat) (address : UInt64) (count : Nat) : Std.HashMap UInt64 Nat :=
  (List.range count).foldl (fun pages index => pages.erase (pageAt address index)) pages

variable {memory after : Memory} {pages : Std.HashMap UInt64 Nat} {address physical size page : UInt64}
  {place count index : Nat}

theorem mapped_succ : mapped pages address place (count + 1) =
    (mapped pages address place count).insert (pageAt address count) (place + count * pageSize) := by
  simp only [mapped, List.range_succ, List.foldl_append, List.foldl_cons, List.foldl_nil]

theorem unmapped_succ : unmapped pages address (count + 1) =
    (unmapped pages address count).erase (pageAt address count) := by
  simp only [unmapped, List.range_succ, List.foldl_append, List.foldl_cons, List.foldl_nil]

theorem pageAt_inj {other : Nat} (below : address.toNat + count * pageSize ≤ 0x10000000000000000) (inside : index < count)
    (insideToo : other < count) (same : pageAt address index = pageAt address other) : index = other := by
  rw [← UInt64.toNat_inj] at same
  rw [pageSize] at below
  rw [toNat_pageAt (by rw [pageSize]; omega), toNat_pageAt (by rw [pageSize]; omega), pageSize] at same
  omega

theorem getElem?_mapped (below : address.toNat + count * pageSize ≤ 0x10000000000000000) (inside : index < count) :
    (mapped pages address place count)[pageAt address index]? = some (place + index * pageSize) := by
  induction count with
  | zero => omega
  | succ count ih =>
    rw [mapped_succ, Std.HashMap.getElem?_insert]
    split
    · next same =>
      obtain rfl := pageAt_inj below (Nat.lt_succ_self count) inside (by simpa using same)
      rfl
    · next other =>
      have apart : index ≠ count := by
        rintro rfl
        simp at other
      have fewer : count * pageSize ≤ (count + 1) * pageSize := Nat.mul_le_mul_right _ (Nat.le_succ count)
      exact ih ((Nat.add_le_add_left fewer _).trans below) (by omega)

theorem getElem?_mapped_other (other : ∀ index < count, page ≠ pageAt address index) :
    (mapped pages address place count)[page]? = pages[page]? := by
  induction count with
  | zero => rfl
  | succ count ih =>
    have apart : ¬ (pageAt address count == page) = true := by
      simpa using (other count (Nat.lt_succ_self count)).symm
    rw [mapped_succ, Std.HashMap.getElem?_insert, if_neg apart]
    exact ih fun index inside => other index (by omega)

theorem getElem?_unmapped (inside : index < count) : (unmapped pages address count)[pageAt address index]? = none := by
  induction count with
  | zero => omega
  | succ count ih =>
    rw [unmapped_succ, Std.HashMap.getElem?_erase]
    split
    · rfl
    · next other =>
      have apart : index ≠ count := by
        rintro rfl
        simp at other
      exact ih (by omega)

theorem getElem?_unmapped_other (other : ∀ index < count, page ≠ pageAt address index) :
    (unmapped pages address count)[page]? = pages[page]? := by
  induction count with
  | zero => rfl
  | succ count ih =>
    have apart : ¬ (pageAt address count == page) = true := by
      simpa using (other count (Nat.lt_succ_self count)).symm
    rw [unmapped_succ, Std.HashMap.getElem?_erase, if_neg apart]
    exact ih fun index inside => other index (by omega)

theorem of_getElem?_mapped {found : Nat} (below : address.toNat + count * pageSize ≤ 0x10000000000000000)
    (entry : (mapped pages address place count)[page]? = some found) :
    (∃ index < count, page = pageAt address index ∧ found = place + index * pageSize) ∨ pages[page]? = some found := by
  by_cases new : ∃ index < count, page = pageAt address index
  · obtain ⟨index, inside, rfl⟩ := new
    rw [getElem?_mapped below inside] at entry
    exact .inl ⟨index, inside, rfl, (Option.some.inj entry).symm⟩
  · rw [getElem?_mapped_other fun index inside same => new ⟨index, inside, same⟩] at entry
    exact .inr entry

/-- A request to map that is granted. -/
@[mk_iff] structure Mappable (memory : Memory) (address physical size : UInt64) : Prop where
  start : inPage address = 0
  frame : inPage physical = 0
  whole : inPage size = 0
  below : address.toNat + size.toNat ≤ 0x10000000000000000
  inside : physical.toNat + size.toNat ≤ memory.capacity

theorem count_mul_pageSize (whole : inPage size = 0) : size.toNat / pageSize * pageSize = size.toNat := by
  rw [inPage_eq] at whole
  rw [pageSize]
  omega

theorem run_demand (condition : Bool) (error : MapError) (memory : Memory) :
    (demand condition error).run memory = (if condition then .ok () else .error error, memory) := by
  cases condition <;> rfl

/-- Changes of the table alone, one after another. -/
theorem foldl_pages {α : Type} (items : List α) (change : α → Std.HashMap UInt64 Nat → Std.HashMap UInt64 Nat)
    (memory : Memory) :
    items.foldl (fun memory item => { memory with pages := change item memory.pages }) memory =
      { memory with pages := items.foldl (fun pages item => change item pages) memory.pages } := by
  induction items generalizing memory with
  | nil => rfl
  | cons first rest ih => exact ih _

theorem map_of_mappable (mappable : memory.Mappable address physical size) :
    (map address physical size).run memory =
      (.ok (), { memory with pages := mapped memory.pages address physical.toNat (size.toNat / pageSize) }) := by
  obtain ⟨start, frame, whole, below, inside⟩ := mappable
  have inPages : (aligned address && aligned physical && aligned size) = true := by simp [aligned, start, frame, whole]
  have inSpace : (!passesTop address size) = true := by simpa [passesTop] using below
  simp only [map, run_bind, run_demand, run_get, inPages, inSpace, decide_eq_true inside, if_true, insertPage]
  rw [run_forM_modify]
  exact congrArg (Prod.mk _) (foldl_pages (List.range (size.toNat / pageSize))
    (fun index pages => pages.insert (pageAt address index) (physical.toNat + index * pageSize)) memory)

/-- A request that is refused has changed nothing. -/
theorem map_of_not_mappable (refused : ¬ memory.Mappable address physical size) :
    ∃ error, (map address physical size).run memory = (.error error, memory) := by
  simp only [map, run_bind, run_demand, run_get]
  cases whole : aligned address && aligned physical && aligned size with
  | false => exact ⟨_, rfl⟩
  | true =>
    cases below : !passesTop address size with
    | false => exact ⟨_, rfl⟩
    | true =>
      by_cases inside : physical.toNat + size.toNat ≤ memory.capacity
      · simp only [aligned, Bool.and_eq_true, beq_iff_eq] at whole
        simp only [passesTop, gt_iff_lt, Bool.not_eq_true', decide_eq_false_iff_not, not_lt] at below
        exact absurd ⟨whole.1.1, whole.1.2, whole.2, below, inside⟩ refused
      · simp only [if_true, decide_eq_false inside]
        exact ⟨_, rfl⟩

theorem Sound.mapped (sound : memory.Sound) (mappable : memory.Mappable address physical size) :
    Sound { memory with pages := mapped memory.pages address physical.toNat (size.toNat / pageSize) } := by
  obtain ⟨start, frame, whole, below, inside⟩ := mappable
  have pages := count_mul_pageSize whole
  intro page place entry
  rcases of_getElem?_mapped (by rw [pages]; exact below) entry with ⟨index, early, rfl, rfl⟩ | old
  · refine ⟨inPage_pageAt start index, ?_, ?_⟩
    · rw [inPage_eq] at frame
      rw [pageSize]
      omega
    · change physical.toNat + index * pageSize + pageSize ≤ memory.capacity
      rw [pageSize] at *
      omega
  · exact sound page place old

/-- The lowest of `count` pages from `address` on that is not mapped. -/
def firstUnmapped (memory : Memory) (address : UInt64) : Nat → Option UInt64
  | 0 => none
  | count + 1 =>
    if memory.isMapped address then memory.firstUnmapped (pageAt address 1) count else some address

/-- The check changes nothing. -/
theorem run_demandMapped (memory : Memory) (address : UInt64) (count : Nat) :
    (demandMapped address count).run memory =
      (match memory.firstUnmapped address count with
        | some page => .error (.notMapped page)
        | none => .ok (), memory) := by
  induction count generalizing address with
  | zero => rfl
  | succ count ih =>
    rw [demandMapped, run_bind, run_get]
    dsimp only
    rw [run_bind, run_demand, firstUnmapped]
    cases memory.isMapped address with
    | true => exact ih _
    | false => rfl

theorem firstUnmapped_eq_find (memory : Memory) (address : UInt64) (count : Nat) : memory.firstUnmapped address count =
    ((List.range count).find? fun index => !memory.isMapped (pageAt address index)).map (pageAt address) := by
  induction count generalizing address with
  | zero => rfl
  | succ count ih =>
    have behind : pageAt (pageAt address 1) = fun index => pageAt address index.succ := by
      funext index
      rw [pageAt_pageAt, Nat.add_comm]
    rw [firstUnmapped, List.range_succ_eq_map, List.find?_cons, pageAt_zero]
    cases memory.isMapped address with
    | true => simp only [ih, if_true, Bool.not_true, List.find?_map, Option.map_map, Function.comp_def, behind]
    | false => simp [pageAt_zero]

theorem firstUnmapped_eq_some : memory.firstUnmapped address count = some page ↔
    ∃ index < count, page = pageAt address index ∧ memory.isMapped page = false ∧
      ∀ earlier < index, memory.isMapped (pageAt address earlier) = true := by
  simp only [firstUnmapped_eq_find, Option.map_eq_some_iff, List.find?_range_eq_some, List.mem_range, Bool.not_eq_true',
    Bool.not_eq_false']
  constructor
  · rintro ⟨index, ⟨missing, inside, before⟩, rfl⟩
    exact ⟨index, inside, rfl, missing, before⟩
  · rintro ⟨index, inside, rfl, missing, before⟩
    exact ⟨index, ⟨missing, inside, before⟩, rfl⟩

theorem firstUnmapped_eq_none : memory.firstUnmapped address count = none ↔
    ∀ index < count, memory.isMapped (pageAt address index) = true := by
  simp only [firstUnmapped_eq_find, Option.map_eq_none_iff, List.find?_range_eq_none, Bool.not_not]

/-- A request to unmap that names whole pages below the top. -/
@[mk_iff] structure Range (address size : UInt64) : Prop where
  start : inPage address = 0
  whole : inPage size = 0
  below : address.toNat + size.toNat ≤ 0x10000000000000000

theorem unmap_of_range (range : Range address size) :
    (unmap address size).run memory = match memory.firstUnmapped address (size.toNat / pageSize) with
      | some page => (.error (.notMapped page), memory)
      | none => (.ok (), { memory with pages := unmapped memory.pages address (size.toNat / pageSize) }) := by
  obtain ⟨start, whole, below⟩ := range
  have inPages : (aligned address && aligned size) = true := by simp [aligned, start, whole]
  have inSpace : (!passesTop address size) = true := by simpa [passesTop] using below
  cases missing : memory.firstUnmapped address (size.toNat / pageSize) with
  | some page => simp only [unmap, run_bind, run_demand, inPages, inSpace, if_true, run_demandMapped, missing]
  | none =>
    simp only [unmap, run_bind, run_demand, inPages, inSpace, if_true, run_demandMapped, missing]
    unfold erasePage
    rw [run_forM_modify, foldl_pages _ fun index pages => pages.erase (pageAt address index)]
    rfl

theorem unmap_of_not_range (memory : Memory) (refused : ¬ Range address size) :
    (unmap address size).run memory = (.error (.unaligned address size), memory) ∨
      (unmap address size).run memory = (.error (.addressOverflow address size), memory) := by
  simp only [unmap, run_bind, run_demand]
  cases whole : aligned address && aligned size with
  | false => exact .inl rfl
  | true =>
    cases below : !passesTop address size with
    | false => exact .inr rfl
    | true =>
      simp only [aligned, Bool.and_eq_true, beq_iff_eq] at whole
      simp only [passesTop, gt_iff_lt, Bool.not_eq_true', decide_eq_false_iff_not, not_lt] at below
      exact absurd ⟨whole.1, whole.2, below⟩ refused

theorem Sound.unmapped (sound : memory.Sound) (address : UInt64) (count : Nat) :
    Sound { memory with pages := unmapped memory.pages address count } := by
  intro page place entry
  by_cases gone : ∃ index < count, page = pageAt address index
  · obtain ⟨index, inside, rfl⟩ := gone
    rw [getElem?_unmapped inside] at entry
    cases entry
  · rw [getElem?_unmapped_other fun index inside same => gone ⟨index, inside, same⟩] at entry
    exact sound page place entry

theorem sound_empty (capacity : UInt64) : (empty capacity).Sound := by
  intro page place entry
  simp [empty] at entry

theorem sound_identity (size : UInt64) : (identity size).Sound := by
  have entries : (identity size).pages = mapped ∅ 0 0 ((empty size).capacity / pageSize) := by
    simp only [identity, mapped, List.foldl_map, pageAt, UInt64.zero_add, Nat.zero_add]
    rfl
  have capacity : (identity size).capacity = (empty size).capacity := rfl
  have bound : (empty size).capacity ≤ 0x10000000000000000 := by
    have small := size.toNat_lt
    simp only [Memory.capacity, empty, Array.size_replicate, wholePages, pageSize]
    omega
  intro page place entry
  rw [entries] at entry
  have below : (0 : UInt64).toNat + (empty size).capacity / pageSize * pageSize ≤ 0x10000000000000000 := by
    rw [pageSize, UInt64.toNat_zero]
    omega
  rcases of_getElem?_mapped below entry with ⟨index, early, rfl, rfl⟩ | old
  · refine ⟨inPage_pageAt rfl index, ?_, ?_⟩
    · rw [pageSize]
      omega
    · rw [capacity]
      rw [pageSize] at *
      omega
  · simp at old

end Memory
end Dynarec
