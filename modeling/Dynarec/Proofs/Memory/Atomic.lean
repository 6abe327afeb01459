import Dynarec.Proofs.Memory.Access
import Dynarec.Proofs.Memory.Mapping

/-!
Atomic words against words that are read and written. An access that stays in its page is one piece, so that reading a
word finds what an atomic update finds, and writing one stores and marks what an atomic update does.
-/
namespace Dynarec
namespace Memory

variable {memory : Memory} {address : UInt64} {place size : Nat} {bytes : List UInt8}

theorem pieces_inPage (pos : 0 < size) (inside : inPage address + size ≤ pageSize) :
    pieces address size = [⟨0, address, size⟩] := by
  have some : size ≠ 0 := by omega
  have room : min (pageSize - inPage address) size = size := by omega
  rw [pieces, split, if_neg some]
  simp only [add_ofNat_zero, room, Nat.sub_self]
  rw [split, if_pos rfl]

theorem Sound.place?_inPage (sound : memory.Sound) (inside : inPage address + size ≤ pageSize)
    (found : memory.translate address = some place) : memory.place? ⟨0, address, size⟩ = some place := by
  rw [sound.place?_eq inside, found]

/-- A write to a mapped page is laid over the store as it is and marks the page once. -/
theorem Sound.write_inPage (sound : memory.Sound) (pos : 0 < bytes.length)
    (inside : inPage address + bytes.length ≤ pageSize) (found : memory.translate address = some place) :
    memory.write address bytes = { memory with backing := overlay memory.backing place bytes }.touch address := by
  have placed := sound.place?_inPage inside found
  rw [write_eq, pieces_inPage pos inside]
  simp [stored, store, placed]

theorem Sound.read_inPage (sound : memory.Sound) (pos : 0 < size) (inside : inPage address + size ≤ pageSize)
    (found : memory.translate address = some place) :
    memory.read address size = (.ok (memory.backing.extract place (place + size)).toList, memory) := by
  have placed := sound.place?_inPage inside found
  simp [read, pieces_inPage pos inside, placed, fetch]

theorem toNat_wordAt (fits : place + 4 ≤ memory.capacity) :
    (memory.wordAt place).toNat = Bytes.toNat (memory.backing.extract place (place + 4)).toList := by
  have length : (memory.backing.extract place (place + 4)).toList.length = 4 := by
    rw [capacity] at fits
    simp only [Array.length_toList, Array.size_extract]
    omega
  have small := Bytes.toNat_lt (memory.backing.extract place (place + 4)).toList
  rw [length] at small
  rw [wordAt, UInt32.toNat_ofNat']
  exact Nat.mod_eq_of_lt small

theorem Sound.readNat_word (sound : memory.Sound) (inside : inPage address + 4 ≤ pageSize)
    (found : memory.translate address = some place) :
    memory.readNat address 4 = (.ok (memory.wordAt place).toNat, memory) := by
  have room := sound.room found
  rw [readNat, sound.read_inPage (by omega) inside found, toNat_wordAt (by omega)]
  rfl

theorem Sound.writeNat_word (sound : memory.Sound) (inside : inPage address + 4 ≤ pageSize)
    (found : memory.translate address = some place) (word : UInt32) :
    memory.writeNat address 4 word.toNat = memory.setWord address place word := by
  have length := Bytes.length_ofNat 4 word.toNat
  exact sound.write_inPage (by omega) (by rwa [length]) found

theorem Sound.word?_eq_none (sound : memory.Sound)
    (refused : ¬ (memory.isMapped address = true ∧ inPage address + 4 ≤ pageSize)) : memory.word? address = none := by
  by_contra found
  have held := Option.isSome_iff_ne_none.mpr found
  have inside := inside_of_word? held
  rw [sound.word?_eq inside] at held
  exact refused ⟨held, inside⟩

/-- Atomic updates of a word in one mapped page return what a read of the word returns and leave the memory that a write of
the word leaves, its record of writes included, or the memory as it was where a comparison fails. Any other word is one
fault, and nothing else changes. -/
theorem atomics_agree (history : History) (address : UInt64) :
    let memory := history.memory
    if memory.isMapped address = true ∧ inPage address + 4 ≤ pageSize then
      ∃ word : UInt32, memory.readNat address 4 = (.ok word.toNat, memory) ∧
        (∀ expected desired, memory.compareAndSwap address expected desired =
          if word = expected then (true, memory.writeNat address 4 desired.toNat) else (false, memory)) ∧
        memory.increment address = (word + 1, memory.writeNat address 4 (word + 1).toNat) ∧
        memory.decrement address = (word - 1, memory.writeNat address 4 (word - 1).toNat) ∧
        ∀ written, (memory.writeNat address 4 written).faultCount = memory.faultCount
    else
      ∃ after : Memory, (∀ expected desired, memory.compareAndSwap address expected desired = (false, after)) ∧
        memory.increment address = (0, after) ∧ memory.decrement address = (0, after) ∧
        after.faultCount = memory.faultCount + 1 ∧ { after with faults := memory.faults } = memory := by
  intro memory
  have sound : memory.Sound := history.sound
  split
  · next held =>
    obtain ⟨mapped, inside⟩ := held
    obtain ⟨place, found⟩ := Option.isSome_iff_exists.mp mapped
    have word := (sound.word?_eq inside).trans found
    have writes := sound.writeNat_word inside found
    refine ⟨memory.wordAt place, sound.readNat_word inside found, fun expected desired => ?_, ?_, ?_, fun written => ?_⟩
    · rw [compareAndSwap, word, writes]
    · rw [increment, update, word, writes]
    · rw [decrement, update, word, writes]
    · have length := Bytes.length_ofNat 4 written
      rw [writeNat, sound.write_inPage (by omega) (by rwa [length]) found]
      rfl
  · next refused =>
    have word := sound.word?_eq_none refused
    refine ⟨memory.fault address 4 true, fun expected desired => ?_, ?_, ?_, faultCount_fault memory address 4 true, rfl⟩
    · rw [compareAndSwap, word]
    · rw [increment, update, word]
    · rw [decrement, update, word]

end Memory
end Dynarec
