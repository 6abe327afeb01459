import Dynarec.Proofs.Memory.Marks

/-!
Faults of an access. Its pieces without a place in the store fault, one after another; below the top of the address space
there are as many of them as the access meets pages that are not mapped.
-/
namespace Dynarec
namespace Memory

/-- The pieces of an access that no page backs. -/
def missing (memory : Memory) (address : UInt64) (size : Nat) : List Piece :=
  (pieces address size).filter fun piece => (memory.place? piece).isNone

/-- The pages an access meets that are not mapped. -/
def unmappedPages (memory : Memory) (address : UInt64) (size : Nat) : Finset UInt64 :=
  ((span address size).map pageOf).toFinset.filter fun page => memory.isMapped page = false

/-- What is logged of a piece that faults. -/
def Piece.fault (write : Bool) (piece : Piece) : Fault := ⟨piece.address, piece.size, write⟩

variable {memory before after : Memory} {touched : UInt64 → Prop} {address : UInt64} {offset left size : Nat}

theorem missing_eq_nil (sound : memory.Sound) (mapped : ∀ byte ∈ span address size, memory.isMapped byte = true) :
    memory.missing address size = [] := by
  refine List.filter_eq_nil_iff.mpr fun piece member => ?_
  have placed := sound.all_placed mapped piece member
  simpa [Option.isSome_iff_ne_none] using placed

/-- A read whose faulting pieces start below the top has the bytes of its pieces. -/
theorem read_eq (below : ∀ piece ∈ memory.missing address size, address.toNat + piece.offset < 0x10000000000000000) :
    memory.read address size = (.ok ((pieces address size).flatMap memory.fetch),
      { memory with faults := memory.faults ++ (memory.missing address size).map (Piece.fault false) }) := by
  have all : (memory.missing address size).takeWhile
      (fun piece => address.toNat + piece.offset < 0x10000000000000000) = memory.missing address size :=
    List.takeWhile_eq_self_iff.mpr fun piece member => by simpa using below piece member
  unfold missing at all
  simp only [read, all, if_true]
  rfl

theorem below_of_le (below : address.toNat + size ≤ 0x10000000000000000) :
    ∀ piece ∈ memory.missing address size, address.toNat + piece.offset < 0x10000000000000000 := by
  intro piece member
  have within := within_of_mem_split (List.mem_filter.mp member).1
  have pos := within.pos
  have last := within.last
  omega

theorem Marks.place? (marks : Marks touched before after) : after.place? = before.place? := by
  funext piece
  have size : after.backing.size = before.backing.size := marks.capacity
  rw [Memory.place?, Memory.place?, marks.translate, size]

theorem faults_store (memory : Memory) (piece : Piece) (bytes : List UInt8) :
    (memory.store piece bytes).faults =
      if (memory.place? piece).isNone then memory.faults.push (piece.fault true) else memory.faults := by
  unfold store
  cases memory.place? piece <;> rfl

theorem faults_stored (memory : Memory) (bytes : List UInt8) (parts : List Piece) :
    (memory.stored bytes parts).faults =
      memory.faults ++ (parts.filter fun piece => (memory.place? piece).isNone).map (Piece.fault true) := by
  induction parts generalizing memory with
  | nil => simp [stored]
  | cons piece rest ih =>
    have same := (marks_store memory piece ((bytes.drop piece.offset).take piece.size)).place?
    have step : memory.stored bytes (piece :: rest) =
        (memory.store piece ((bytes.drop piece.offset).take piece.size)).stored bytes rest := rfl
    rw [step, ih, same, faults_store]
    cases placed : memory.place? piece <;> simp [placed]

theorem faults_write (memory : Memory) (address : UInt64) (bytes : List UInt8) :
    (memory.write address bytes).faults =
      memory.faults ++ (memory.missing address bytes.length).map (Piece.fault true) := by
  obtain ⟨versions, generation, written⟩ := write_eq_stored memory address bytes
  rw [written, faults_stored]
  rfl

theorem Sound.read_mapped (sound : memory.Sound) (mapped : ∀ byte ∈ span address size, memory.isMapped byte = true) :
    memory.read address size = (.ok ((pieces address size).flatMap memory.fetch), memory) := by
  have none := missing_eq_nil sound mapped
  rw [read_eq (by simp [none]), none]
  simp

theorem Sound.faults_write_mapped (sound : memory.Sound) {bytes : List UInt8}
    (mapped : ∀ byte ∈ span address bytes.length, memory.isMapped byte = true) :
    (memory.write address bytes).faults = memory.faults := by
  rw [faults_write, missing_eq_nil sound mapped]
  simp

theorem nodup_pages_split (address : UInt64) (offset left : Nat)
    (below : address.toNat + (offset + left) ≤ 0x10000000000000000) :
    ((split address offset left).map fun piece => pageOf piece.address).Nodup := by
  fun_induction split address offset left with
  | case1 => simp
  | case2 offset left more start size ih =>
    have room := inPage_lt start
    have shorter : size ≤ left := Nat.min_le_right _ _
    rw [List.map_cons, List.nodup_cons]
    refine ⟨?_, ih (by omega)⟩
    intro again
    obtain ⟨piece, member, same⟩ := List.mem_map.mp again
    obtain ⟨place, first, last, pos, _⟩ := within_of_mem_split member
    -- what is left starts with a page of its own
    have full : size = pageSize - inPage start := by omega
    have early : start.toNat = address.toNat + offset := by
      rw [toNat_add_ofNat, Nat.mod_eq_of_lt (by omega)]
    have late : piece.address.toNat = address.toNat + piece.offset := by
      rw [place, toNat_add_ofNat, Nat.mod_eq_of_lt (by omega)]
    rw [inPage_eq, pageSize] at full
    have behind := pageOf_eq_iff.mp same
    dsimp only at behind
    omega

/-- As many pieces fault as the access meets pages that are not mapped. -/
theorem length_missing (sound : memory.Sound) (below : address.toNat + size ≤ 0x10000000000000000) :
    (memory.missing address size).length = (memory.unmappedPages address size).card := by
  have distinct : ((memory.missing address size).map fun piece => pageOf piece.address).Nodup :=
    (nodup_pages_split address 0 size (by omega)).sublist (List.filter_sublist.map _)
  have same : ((memory.missing address size).map fun piece => pageOf piece.address).toFinset =
      memory.unmappedPages address size := by
    ext page
    have bytewise := exists_piece_iff address size
      fun own => own = page ∧ memory.isMapped page = false
    simp only [unmappedPages, missing, List.mem_toFinset, List.mem_map, List.mem_filter, Finset.mem_filter]
    constructor
    · rintro ⟨piece, ⟨member, unplaced⟩, rfl⟩
      have unmapped : memory.isMapped (pageOf piece.address) = false := by
        rw [← sound.isSome_place? member]
        simpa using unplaced
      obtain ⟨byte, inside, own, _⟩ := bytewise.mp ⟨piece, member, rfl, unmapped⟩
      exact ⟨⟨byte, inside, own⟩, unmapped⟩
    · rintro ⟨⟨byte, inside, own⟩, unmapped⟩
      obtain ⟨piece, member, rfl, _⟩ := bytewise.mpr ⟨byte, inside, own, unmapped⟩
      refine ⟨piece, ⟨member, ?_⟩, rfl⟩
      have placed := sound.isSome_place? member
      rw [unmapped] at placed
      simpa using placed
  rw [← same, List.toFinset_card_of_nodup distinct, List.length_map]

theorem size_append_missing (sound : memory.Sound) (below : address.toNat + size ≤ 0x10000000000000000) (write : Bool) :
    (memory.faults ++ (memory.missing address size).map (Piece.fault write)).size =
      memory.faultCount + (memory.unmappedPages address size).card := by
  rw [← Array.length_toList, Array.toList_appendList, List.length_append, Array.length_toList, List.length_map,
    length_missing sound below]
  rfl

end Memory
end Dynarec
