import Dynarec.Proofs.Memory.Faults
import Dynarec.Proofs.Memory.History
import Dynarec.World

/-!
Mapping and unmapping. Behind every history the page table leads into the store, so that mapped bytes do not fault; a
request changes exactly the pages it asks for, or is refused and changes nothing.
-/
namespace Dynarec
namespace Memory

/-- Exactly the addresses of a range translate anew, to what `leads` says of their distance; all else is as it was. -/
structure Rewires (before : Memory) (address size : UInt64) (leads : Nat → Option Nat) (after : Memory) : Prop where
  requested : ∀ distance < size.toNat, after.translate (address + UInt64.ofNat distance) = leads distance
  others : ∀ other, other ∉ span address size.toNat → after.translate other = before.translate other
  rest : { after with pages := before.pages } = before

variable {memory after : Memory} {address physical size page : UInt64}

theorem mem_span_of_pageOf {other : UInt64} {index count : Nat} (inside : index < count)
    (same : pageOf other = pageAt address index) : other ∈ span address (count * pageSize) := by
  have small := inPage_lt other
  have room : (index + 1) * pageSize ≤ count * pageSize := Nat.mul_le_mul_right _ inside
  rw [Nat.succ_mul] at room
  refine mem_span.mpr ⟨index * pageSize + inPage other, by omega, ?_⟩
  rw [← add_ofNat_add, ← pageAt, ← same, pageOf_add_inPage]

/-- A table that leads the pages of a range to other frames rewires the range. -/
theorem rewires_of_table {pages : Std.HashMap UInt64 Nat} (frames : Nat → Option Nat) (start : inPage address = 0)
    (whole : inPage size = 0)
    (requested : ∀ index < size.toNat / pageSize, pages[pageAt address index]? = frames index)
    (others : ∀ page, (∀ index < size.toNat / pageSize, page ≠ pageAt address index) → pages[page]? = memory.pages[page]?) :
    memory.Rewires address size (fun distance => (frames (distance / pageSize)).map (· + distance % pageSize))
      { memory with pages } := by
  have count := count_mul_pageSize whole
  refine ⟨?_, ?_, rfl⟩
  · intro distance inside
    have page : distance / pageSize < size.toNat / pageSize := by
      rw [inPage_eq] at whole
      rw [pageSize]
      omega
    rw [translate, pageOf_add start, inPage_add_of_aligned start]
    exact congrArg (Option.map (· + distance % pageSize)) (requested _ page)
  · intro other outside
    have elsewhere : ∀ index < size.toNat / pageSize, pageOf other ≠ pageAt address index := by
      intro index inside same
      exact outside (count ▸ mem_span_of_pageOf inside same)
    rw [translate, translate, others _ elsewhere]

theorem rewires_of_map (mapped : (map address physical size).run memory = (.ok (), after)) :
    memory.Rewires address size (fun distance => some (physical.toNat + distance)) after := by
  by_cases mappable : memory.Mappable address physical size
  · rw [map_of_mappable mappable] at mapped
    cases mapped
    have count := count_mul_pageSize mappable.whole
    have below : address.toNat + size.toNat / pageSize * pageSize ≤ 0x10000000000000000 := by
      rw [count]
      exact mappable.below
    have rewires : memory.Rewires address size _ _ :=
      rewires_of_table (fun index => some (physical.toNat + index * pageSize)) mappable.start mappable.whole
        (fun index => getElem?_mapped below) fun page => getElem?_mapped_other
    refine ⟨fun distance inside => (rewires.requested distance inside).trans ?_, rewires.others, rewires.rest⟩
    rw [Option.map_some, Nat.add_assoc, Nat.mul_comm, Nat.div_add_mod]
  · obtain ⟨error, refused⟩ := map_of_not_mappable mappable
    cases mapped.symm.trans refused

/-- A request to map that is refused leaves the memory as it was. -/
theorem map_refused {error : MapError} (refused : ((map address physical size).run memory).1 = .error error) :
    ((map address physical size).run memory).2 = memory := by
  by_cases mappable : memory.Mappable address physical size
  · rw [map_of_mappable mappable] at refused
    cases refused
  · obtain ⟨error, refused⟩ := map_of_not_mappable mappable
    rw [refused]

theorem map_error_iff : (∃ error, ((map address physical size).run memory).1 = .error error) ↔
    inPage address ≠ 0 ∨ inPage physical ≠ 0 ∨ inPage size ≠ 0 ∨
      0x10000000000000000 < address.toNat + size.toNat ∨ memory.capacity < physical.toNat + size.toNat := by
  have refused : (∃ error, ((map address physical size).run memory).1 = .error error) ↔
      ¬ memory.Mappable address physical size := by
    constructor
    · rintro ⟨error, refused⟩ mappable
      rw [map_of_mappable mappable] at refused
      cases refused
    · intro other
      obtain ⟨error, refused⟩ := map_of_not_mappable other
      exact ⟨error, congrArg Prod.fst refused⟩
  rw [refused, mappable_iff]
  simp only [not_and_or, not_le, ne_eq]

theorem all_mapped_iff (range : Range address size) :
    (∀ index < size.toNat / pageSize, memory.isMapped (pageAt address index) = true) ↔
      ∀ byte ∈ span address size.toNat, memory.isMapped byte = true := by
  obtain ⟨start, whole, below⟩ := range
  have count := count_mul_pageSize whole
  constructor
  · intro all byte member
    obtain ⟨distance, inside, rfl⟩ := mem_span.mp member
    rw [← isMapped_pageOf, pageOf_add start]
    exact all _ (Nat.div_lt_of_lt_mul (by rwa [Nat.mul_comm, count]))
  · intro all index inside
    refine all _ (mem_span.mpr ⟨index * pageSize, ?_, rfl⟩)
    rw [← count]
    exact Nat.mul_lt_mul_of_pos_right inside (by decide)

/-- The first page of a range that is not mapped is the lowest. -/
theorem firstUnmapped_iff_lowest (range : Range address size) :
    memory.firstUnmapped address (size.toNat / pageSize) = some page ↔
      inPage page = 0 ∧ page ∈ span address size.toNat ∧ memory.isMapped page = false ∧
        ∀ byte ∈ span address size.toNat, byte < page → memory.isMapped byte = true := by
  obtain ⟨start, whole, below⟩ := range
  have count := count_mul_pageSize whole
  have place : ∀ distance < size.toNat, (address + UInt64.ofNat distance).toNat = address.toNat + distance := by
    intro distance inside
    rw [toNat_add_ofNat, Nat.mod_eq_of_lt (by omega)]
  rw [firstUnmapped_eq_some]
  constructor
  · rintro ⟨index, inside, rfl, unmapped, before⟩
    have early : index * pageSize < size.toNat := by
      rw [← count]
      exact Nat.mul_lt_mul_of_pos_right inside (by decide)
    refine ⟨inPage_pageAt start index, mem_span.mpr ⟨_, early, rfl⟩, unmapped, ?_⟩
    intro byte member lower
    obtain ⟨distance, near, rfl⟩ := mem_span.mp member
    rw [UInt64.lt_iff_toNat_lt, place distance near, pageAt, place _ early] at lower
    rw [← isMapped_pageOf, pageOf_add start]
    exact before _ (Nat.div_lt_of_lt_mul (by rw [Nat.mul_comm]; omega))
  · rintro ⟨aligned, member, unmapped, before⟩
    obtain ⟨distance, inside, rfl⟩ := mem_span.mp member
    rw [inPage_add_of_aligned start] at aligned
    have own : address + UInt64.ofNat distance = pageAt address (distance / pageSize) := by
      rw [pageAt, Nat.div_mul_cancel (Nat.dvd_of_mod_eq_zero aligned)]
    refine ⟨distance / pageSize, Nat.div_lt_of_lt_mul (by rwa [Nat.mul_comm, count]), own, unmapped, ?_⟩
    intro earlier early
    have lower : earlier * pageSize < distance := by
      rw [← Nat.div_mul_cancel (Nat.dvd_of_mod_eq_zero aligned)]
      exact Nat.mul_lt_mul_of_pos_right early (by decide)
    refine before _ (mem_span.mpr ⟨_, lower.trans inside, rfl⟩) ?_
    rw [UInt64.lt_iff_toNat_lt, place distance inside, pageAt, place _ (lower.trans inside)]
    omega

theorem unmap_notMapped_iff : ((unmap address size).run memory).1 = .error (.notMapped page) ↔
    inPage address = 0 ∧ inPage size = 0 ∧ address.toNat + size.toNat ≤ 0x10000000000000000 ∧
      inPage page = 0 ∧ page ∈ span address size.toNat ∧ memory.isMapped page = false ∧
        ∀ byte ∈ span address size.toNat, byte < page → memory.isMapped byte = true := by
  by_cases range : Range address size
  · have holds := range
    obtain ⟨start, whole, below⟩ := holds
    rw [unmap_of_range range, ← firstUnmapped_iff_lowest range, and_iff_right start, and_iff_right whole,
      and_iff_right below]
    cases memory.firstUnmapped address (size.toNat / pageSize) <;> simp
  · constructor
    · intro named
      rcases unmap_of_not_range memory range with refused | refused <;> rw [refused] at named <;> cases named
    · rintro ⟨start, whole, below, _⟩
      exact absurd ⟨start, whole, below⟩ range

theorem unmap_error_iff : (∃ error, ((unmap address size).run memory).1 = .error error) ↔
    inPage address ≠ 0 ∨ inPage size ≠ 0 ∨ 0x10000000000000000 < address.toNat + size.toNat ∨
      ∃ byte ∈ span address size.toNat, memory.isMapped byte = false := by
  have refused : (∃ error, ((unmap address size).run memory).1 = .error error) ↔
      ¬ (Range address size ∧ ∀ byte ∈ span address size.toNat, memory.isMapped byte = true) := by
    by_cases range : Range address size
    · rw [unmap_of_range range, and_iff_right range, ← all_mapped_iff range, ← firstUnmapped_eq_none]
      cases memory.firstUnmapped address (size.toNat / pageSize) <;> simp
    · refine iff_of_true ?_ fun both => range both.1
      rcases unmap_of_not_range memory range with refused | refused <;> exact ⟨_, congrArg Prod.fst refused⟩
  rw [refused, range_iff]
  simp only [not_and_or, not_le, ne_eq, or_assoc, not_forall, exists_prop, Bool.not_eq_true]

theorem rewires_of_unmap (gone : (unmap address size).run memory = (.ok (), after)) :
    memory.Rewires address size (fun _ => none) after := by
  by_cases range : Range address size
  · rw [unmap_of_range range] at gone
    split at gone
    · cases gone
    · cases gone
      exact rewires_of_table (fun _ => none) range.start range.whole (fun index => getElem?_unmapped) fun page => getElem?_unmapped_other
  · rcases unmap_of_not_range memory range with refused | refused <;> cases gone.symm.trans refused

/-- A request to unmap that is refused leaves the memory as it was: no page is taken out before all are checked. -/
theorem unmap_refused {error : MapError} (refused : ((unmap address size).run memory).1 = .error error) :
    ((unmap address size).run memory).2 = memory := by
  by_cases range : Range address size
  · rw [unmap_of_range range] at refused ⊢
    split at refused
    · rfl
    · cases refused
  · rcases unmap_of_not_range memory range with same | same <;> rw [same]

theorem Sound.word?_eq (sound : memory.Sound) (inside : inPage address + 4 ≤ pageSize) :
    memory.word? address = memory.translate address := by
  unfold word?
  cases found : memory.translate address with
  | none => rfl
  | some place =>
    have room := sound.room found
    rw [capacity] at room
    have fits : place + 4 ≤ memory.backing.size := by omega
    simp [inside, fits]

/-- Behind every history entries lead from whole pages to whole pages of the store, so that no place lies beyond it and
mapped bytes do not fault. A request to map or unmap is refused exactly if it is not of whole pages, passes the top, passes
the store or names a page that is not mapped, of which the lowest is reported; else it rewires what it asks for alone. -/
theorem mapping_exact (history : History) :
    let memory := history.memory
    memory.Sound ∧
    (∀ address place, memory.translate address = some place → place < memory.capacity) ∧
    (∀ address size, (∀ byte ∈ span address size, memory.isMapped byte = true) →
      (∃ bytes, memory.read address size = (.ok bytes, memory)) ∧
        ∀ bytes : List UInt8, bytes.length = size → (memory.write address bytes).faults = memory.faults) ∧
    (∀ address, memory.isMapped address = true → inPage address + 4 ≤ pageSize → ∀ expected desired change,
      (memory.compareAndSwap address expected desired).2.faults = memory.faults ∧
        (memory.update address change).2.faults = memory.faults) ∧
    (∀ address physical size,
      ((∃ error, ((map address physical size).run memory).1 = .error error) ↔
        inPage address ≠ 0 ∨ inPage physical ≠ 0 ∨ inPage size ≠ 0 ∨
          0x10000000000000000 < address.toNat + size.toNat ∨ memory.capacity < physical.toNat + size.toNat) ∧
      (∀ after, (map address physical size).run memory = (.ok (), after) →
        memory.Rewires address size (fun distance => some (physical.toNat + distance)) after) ∧
      (∀ error, ((map address physical size).run memory).1 = .error error →
        ((map address physical size).run memory).2 = memory) ∧
      ∀ (world : World) error, (world.map address physical size).1 = .error error →
        (world.map address physical size).2 = world) ∧
    ∀ address size,
      ((∃ error, ((unmap address size).run memory).1 = .error error) ↔
        inPage address ≠ 0 ∨ inPage size ≠ 0 ∨ 0x10000000000000000 < address.toNat + size.toNat ∨
          ∃ byte ∈ span address size.toNat, memory.isMapped byte = false) ∧
      (∀ page, ((unmap address size).run memory).1 = .error (.notMapped page) ↔
        inPage address = 0 ∧ inPage size = 0 ∧ address.toNat + size.toNat ≤ 0x10000000000000000 ∧
          inPage page = 0 ∧ page ∈ span address size.toNat ∧ memory.isMapped page = false ∧
            ∀ byte ∈ span address size.toNat, byte < page → memory.isMapped byte = true) ∧
      (∀ after, (unmap address size).run memory = (.ok (), after) →
        memory.Rewires address size (fun _ => none) after) ∧
      (∀ error, ((unmap address size).run memory).1 = .error error → ((unmap address size).run memory).2 = memory) ∧
      ∀ (world : World) error, (world.unmap address size).1 = .error error → (world.unmap address size).2 = world := by
  intro memory
  have sound : memory.Sound := history.sound
  refine ⟨sound, fun _ _ => sound.place_lt, ?_, ?_, ?_, ?_⟩
  · intro address size mapped
    refine ⟨⟨_, sound.read_mapped mapped⟩, ?_⟩
    rintro bytes rfl
    exact sound.faults_write_mapped mapped
  · intro address mapped inside expected desired change
    obtain ⟨place, found⟩ := Option.isSome_iff_exists.mp mapped
    have word := (sound.word?_eq inside).trans found
    simp only [compareAndSwap, update, word]
    refine ⟨?_, rfl⟩
    split <;> rfl
  · intro address physical size
    refine ⟨map_error_iff, fun after => rewires_of_map, fun error => map_refused, fun world error refused => ?_⟩
    unfold World.map at refused ⊢
    rcases asked : (map address physical size).run world.memory with ⟨cause | _, after⟩
    · have same : ((map address physical size).run world.memory).2 = world.memory :=
        map_refused (congrArg Prod.fst asked)
      rw [asked] at same
      cases same
      rfl
    · rw [asked] at refused
      cases refused
  · intro address size
    refine ⟨unmap_error_iff, fun page => unmap_notMapped_iff, fun after => rewires_of_unmap, fun error => unmap_refused,
      fun world error refused => ?_⟩
    have same : ((unmap address size).run world.memory).2 = world.memory := unmap_refused refused
    exact congrArg (fun memory => { world with memory }) same

/-- The last page of the address space can be mapped, and nothing wraps around to the first. -/
theorem mapping_exact_top : ∃ after, (map 0xfffffffffffff000 0x1000 0x1000).run (empty 0x2000) = (.ok (), after) ∧
    after.translate 0xfffffffffffff008 = some 0x1008 ∧ after.translate 0 = none := by
  have room : (empty 0x2000).capacity = 0x2000 := by simp [capacity, empty, wholePages, pageSize]
  obtain ⟨refused, granted, _⟩ := (mapping_exact ⟨.empty 0x2000, []⟩).2.2.2.2.1 0xfffffffffffff000 0x1000 0x1000
  change _ ↔ _ ∨ _ ∨ _ ∨ _ ∨ (empty 0x2000).capacity < _ at refused
  rw [room] at refused
  rcases asked : (map 0xfffffffffffff000 0x1000 0x1000).run (empty 0x2000) with ⟨cause | ⟨⟩, after⟩
  · simpa [inPage, pageSize] using refused.mp ⟨cause, congrArg Prod.fst asked⟩
  · have rewires := granted after asked
    refine ⟨after, rfl, rewires.requested 8 (by simp), ?_⟩
    have outside : 0 ∉ span 0xfffffffffffff000 (0x1000 : UInt64).toNat := by
      intro member
      obtain ⟨distance, inside, same⟩ := mem_span.mp member
      rw [← UInt64.toNat_inj, toNat_add_ofNat] at same
      simp at same inside
      omega
    rw [rewires.others 0 outside]
    simp [translate, History.memory, Origin.memory, empty]

end Memory
end Dynarec
