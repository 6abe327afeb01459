import Dynarec.Memory.Access
import Dynarec.Proofs.Memory.Page

/-!
The pieces of an access. Each lies in one page, every byte of the access is in one of them, and where the page table is
sound a piece has a place in the store exactly if its page is mapped.
-/
namespace Dynarec
namespace Memory

/-- A page can be led to a place: both are whole pages, and the place's lies in the store. -/
structure Fits (capacity : Nat) (page : UInt64) (place : Nat) : Prop where
  whole : inPage page = 0
  frame : place % pageSize = 0
  inside : place + pageSize ≤ capacity

/-- Every entry of the page table leads from a page to a page of the store. -/
def Sound (memory : Memory) : Prop :=
  ∀ (page : UInt64) (place : Nat), memory.pages[page]? = some place → Fits memory.capacity page place

variable {memory before after : Memory} {address : UInt64} {place offset left : Nat} {piece : Piece}

theorem Sound.congr (sound : before.Sound) (pages : after.pages = before.pages)
    (capacity : after.capacity = before.capacity) : after.Sound := by
  intro page place entry
  rw [pages] at entry
  rw [capacity]
  exact sound page place entry

theorem Sound.room (sound : memory.Sound) (found : memory.translate address = some place) :
    place + (pageSize - inPage address) ≤ memory.capacity := by
  obtain ⟨frame, entry, rfl⟩ := Option.map_eq_some_iff.mp found
  have inside := (sound _ frame entry).inside
  have small := inPage_lt address
  omega

theorem Sound.place_lt (sound : memory.Sound) (found : memory.translate address = some place) :
    place < memory.capacity := by
  have room := sound.room found
  have small := inPage_lt address
  omega

theorem Sound.place_mod (sound : memory.Sound) (found : memory.translate address = some place) :
    place % pageSize = inPage address := by
  obtain ⟨frame, entry, rfl⟩ := Option.map_eq_some_iff.mp found
  have aligned := (sound _ frame entry).frame
  have small := inPage_lt address
  rw [pageSize] at *
  omega

/-- What a piece of an access to `left` bytes from `offset` on is. -/
structure Piece.Within (piece : Piece) (address : UInt64) (offset left : Nat) : Prop where
  start : piece.address = address + UInt64.ofNat piece.offset
  first : offset ≤ piece.offset
  last : piece.offset + piece.size ≤ offset + left
  pos : 0 < piece.size
  page : inPage piece.address + piece.size ≤ pageSize

theorem within_of_mem_split (member : piece ∈ split address offset left) : piece.Within address offset left := by
  fun_induction split address offset left with
  | case1 => cases member
  | case2 offset left more start size ih =>
    have room := inPage_lt start
    rcases List.mem_cons.mp member with rfl | later
    · exact ⟨rfl, Nat.le_refl _, by dsimp only; omega, by dsimp only; omega, by dsimp only; omega⟩
    · obtain ⟨same, first, last, pos, page⟩ := ih later
      exact ⟨same, by omega, by omega, pos, page⟩

/-- The pieces of an access lie side by side and hold all of it. -/
theorem flatMap_range'_split (address : UInt64) (offset left : Nat) :
    (split address offset left).flatMap (fun piece => List.range' piece.offset piece.size) = List.range' offset left := by
  fun_induction split address offset left with
  | case1 => rfl
  | case2 offset left more start size ih =>
    have parts : size + (left - size) = left := by omega
    rw [List.flatMap_cons, ih, List.range'_append_1, parts]

theorem exists_covering (address : UInt64) {offset left distance : Nat} (inside : distance ∈ List.range' offset left) :
    ∃ piece ∈ split address offset left, distance ∈ List.range' piece.offset piece.size := by
  rwa [← flatMap_range'_split address, List.mem_flatMap] at inside

theorem exists_split (address : UInt64) (offset left : Nat) : ∀ distance < left,
    ∃ piece ∈ split address offset left,
      pageOf piece.address = pageOf (address + UInt64.ofNat (offset + distance)) := by
  intro distance inside
  obtain ⟨piece, member, own⟩ := exists_covering address (List.mem_range'_1.mpr ⟨by omega, by omega⟩ :
    offset + distance ∈ List.range' offset left)
  obtain ⟨start, first, last, pos, page⟩ := within_of_mem_split member
  rw [List.mem_range'_1] at own
  refine ⟨piece, member, ?_⟩
  obtain ⟨ahead, same⟩ := Nat.exists_eq_add_of_le own.1
  rw [same, ← add_ofNat_add, ← start, pageOf_add_of_lt (by omega)]

/-- The addresses of `size` bytes from `address` on. -/
def span (address : UInt64) (size : Nat) : List UInt64 := (List.range size).map (address + UInt64.ofNat ·)

theorem mem_span {byte : UInt64} {size : Nat} :
    byte ∈ span address size ↔ ∃ distance < size, address + UInt64.ofNat distance = byte := by
  simp [span]

/-- The pages of the pieces of an access are those of its bytes. -/
theorem exists_piece_iff (address : UInt64) (size : Nat) (holds : UInt64 → Prop) :
    (∃ piece ∈ pieces address size, holds (pageOf piece.address)) ↔
      ∃ byte ∈ span address size, holds (pageOf byte) := by
  constructor
  · rintro ⟨piece, member, held⟩
    have within := within_of_mem_split member
    have pos := within.pos
    have last := within.last
    exact ⟨piece.address, mem_span.mpr ⟨piece.offset, by omega, within.start.symm⟩, held⟩
  · rintro ⟨byte, member, held⟩
    obtain ⟨distance, inside, rfl⟩ := mem_span.mp member
    obtain ⟨piece, found, same⟩ := exists_split address 0 size distance inside
    rw [Nat.zero_add] at same
    exact ⟨piece, found, same ▸ held⟩

theorem Sound.place?_eq (sound : memory.Sound) (page : inPage piece.address + piece.size ≤ pageSize) :
    memory.place? piece = memory.translate piece.address := by
  unfold place?
  cases found : memory.translate piece.address with
  | none => rfl
  | some place =>
    have room := sound.room found
    rw [capacity] at room
    simp only [Option.filter_some, decide_eq_true_eq, ite_eq_left_iff]
    omega

theorem Sound.isSome_place? (sound : memory.Sound) {size : Nat} (member : piece ∈ pieces address size) :
    (memory.place? piece).isSome = memory.isMapped (pageOf piece.address) := by
  rw [sound.place?_eq (within_of_mem_split member).page, isMapped_pageOf, isMapped]

theorem Sound.all_placed {size : Nat} (sound : memory.Sound)
    (mapped : ∀ byte ∈ span address size, memory.isMapped byte = true) :
    ∀ piece ∈ pieces address size, (memory.place? piece).isSome = true := by
  intro piece member
  obtain ⟨byte, inside, same⟩ :=
    (exists_piece_iff address size (· = pageOf piece.address)).mp ⟨piece, member, rfl⟩
  rw [sound.isSome_place? member, ← same, isMapped_pageOf]
  exact mapped byte inside

end Memory
end Dynarec
