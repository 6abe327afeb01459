import Dynarec.Proofs.Memory.Bytewise
import Dynarec.Proofs.Memory.Mapping

/-!
Accesses that run past the top of the address space. Their addresses wrap, and a write acts on the bytes it wraps to as on
any other. A read reports a faulting piece by its distance from the first byte, so that it fails exactly if a byte it wraps
to is not mapped; a load of words fails exactly if one of them starts past the top.
-/
namespace Dynarec
namespace Memory

/-- A byte of an access lies past the top of the address space and wraps to one that is not mapped. -/
def Stumbles (memory : Memory) (address : UInt64) (size : Nat) : Prop :=
  ∃ distance < size, 0x10000000000000000 ≤ address.toNat + distance ∧
    memory.isMapped (address + UInt64.ofNat distance) = false

/-- The pieces `parts` of an access hold each of its bytes once, in order, and stay in their pages and in the store. -/
structure Divides (memory : Memory) (address : UInt64) (size : Nat) (parts : List Piece) : Prop where
  whole : parts.flatMap (fun piece => List.range' piece.offset piece.size) = List.range' 0 size
  start : ∀ piece ∈ parts, piece.address = address + UInt64.ofNat piece.offset
  page : ∀ piece ∈ parts, inPage piece.address + piece.size ≤ pageSize
  room : ∀ piece ∈ parts, ∀ place, memory.translate piece.address = some place → place + piece.size ≤ memory.capacity
  missing : ∀ piece ∈ parts, piece ∈ memory.missing address size ↔ memory.isMapped piece.address = false

variable {memory : Memory} {address : UInt64} {size : Nat} {piece : Piece}

theorem Sound.mem_missing_iff (sound : memory.Sound) (member : piece ∈ pieces address size) :
    piece ∈ memory.missing address size ↔ memory.isMapped piece.address = false := by
  rw [missing, List.mem_filter, and_iff_right member, sound.place?_eq (within_of_mem_split member).page, isMapped]
  cases memory.translate piece.address <;> simp

theorem Sound.divides (sound : memory.Sound) (address : UInt64) (size : Nat) :
    memory.Divides address size (pieces address size) where
  whole := flatMap_range'_split address 0 size
  start piece member := (within_of_mem_split member).start
  page piece member := (within_of_mem_split member).page
  room piece member place found := by
    have room := sound.room found
    have page := (within_of_mem_split member).page
    omega
  missing piece member := sound.mem_missing_iff member

/-- A read fails exactly if a piece that faults starts past the top. -/
theorem read_error_iff : (memory.read address size).1 = .error .overflow ↔
    ∃ piece ∈ memory.missing address size, 0x10000000000000000 ≤ address.toNat + piece.offset := by
  by_cases below : ∀ piece ∈ memory.missing address size, address.toNat + piece.offset < 0x10000000000000000
  · rw [read_eq below]
    constructor
    · rintro ⟨⟩
    · rintro ⟨piece, member, past⟩
      exact absurd (below piece member) (Nat.not_lt.mpr past)
  · refine iff_of_true ?_ (by simpa only [not_forall, exists_prop, Nat.not_lt] using below)
    refine if_neg fun same => below fun piece member => ?_
    have all := (List.takeWhile_prefix _).eq_of_length same
    rw [missing, ← all] at member
    simpa using List.mem_takeWhile_imp member

/-- A piece that has a byte past the top starts past it, since the top is the border of a page. -/
theorem past_of_page (page : inPage (address + UInt64.ofNat piece.offset) + piece.size ≤ pageSize) {distance : Nat}
    (own : distance ∈ List.range' piece.offset piece.size) (past : 0x10000000000000000 ≤ address.toNat + distance) :
    0x10000000000000000 ≤ address.toNat + piece.offset := by
  rw [List.mem_range'_1] at own
  rw [inPage_add, pageSize] at page
  omega

theorem Sound.read_error_iff (sound : memory.Sound) :
    (memory.read address size).1 = .error .overflow ↔ memory.Stumbles address size := by
  rw [Memory.read_error_iff]
  constructor
  · rintro ⟨piece, member, past⟩
    have within := within_of_mem_split (List.mem_filter.mp member).1
    have pos := within.pos
    have last := within.last
    refine ⟨piece.offset, by omega, past, ?_⟩
    rw [← within.start]
    exact (sound.mem_missing_iff (List.mem_filter.mp member).1).mp member
  · rintro ⟨distance, inside, past, unmapped⟩
    have held : distance ∈ List.range' 0 size := List.mem_range'_1.mpr ⟨Nat.zero_le _, by omega⟩
    obtain ⟨piece, member, own⟩ := exists_covering address held
    have within := within_of_mem_split member
    have page := within.page
    have bounds := List.mem_range'_1.mp own
    refine ⟨piece, (sound.mem_missing_iff member).mpr ?_, past_of_page (within.start ▸ page) own past⟩
    obtain ⟨ahead, same⟩ := Nat.exists_eq_add_of_le bounds.1
    rw [same, ← add_ofNat_add, ← within.start, isMapped_congr (pageOf_add_of_lt (by omega))] at unmapped
    exact unmapped

theorem readNat_error_iff :
    (memory.readNat address size).1 = .error .overflow ↔ (memory.read address size).1 = .error .overflow := by
  unfold readNat
  obtain ⟨result, after⟩ := memory.read address size
  cases result <;> simp [Except.map]

theorem Sound.read_eq (sound : memory.Sound) (steady : ¬ memory.Stumbles address size) :
    memory.read address size = (.ok ((List.range size).map fun distance => memory.byteAt (address + UInt64.ofNat distance)),
      { memory with faults := memory.faults ++ (memory.missing address size).map (Piece.fault false) }) := by
  rw [← sound.read_error_iff, Memory.read_error_iff] at steady
  have below : ∀ piece ∈ memory.missing address size, address.toNat + piece.offset < 0x10000000000000000 := by
    intro piece member
    by_contra past
    exact steady ⟨piece, member, Nat.not_lt.mp past⟩
  rw [Memory.read_eq below, pieces, flatMap_fetch_split sound]
  simp only [Nat.zero_add]

/-- Words whose starts stay below the top are stored one after another. -/
theorem foldl_loadOne_ok (address : UInt64) (words : List (UInt32 × Nat)) (memory : Memory)
    (below : ∀ entry ∈ words, address.toNat + entry.2 * 4 < 0x10000000000000000) :
    words.foldl (loadOne address) (.ok (), memory) = (.ok (), words.foldl
      (fun memory entry => memory.writeNat (address + UInt64.ofNat (entry.2 * 4)) 4 entry.1.toNat) memory) := by
  induction words generalizing memory with
  | nil => rfl
  | cons first rest ih =>
    rw [List.foldl_cons, loadOne, if_pos (below first List.mem_cons_self),
      ih _ fun entry member => below entry (List.mem_cons_of_mem _ member), List.foldl_cons]

theorem foldl_loadOne_past (address : UInt64) (words : List (UInt32 × Nat)) (memory : Memory)
    (past : ∃ entry ∈ words, 0x10000000000000000 ≤ address.toNat + entry.2 * 4) :
    (words.foldl (loadOne address) (.ok (), memory)).1 = .error .overflow := by
  induction words generalizing memory with
  | nil => simp at past
  | cons first rest ih =>
    rw [List.foldl_cons, loadOne]
    split
    · next below =>
      obtain ⟨entry, member, past⟩ := past
      rcases List.mem_cons.mp member with rfl | later
      · omega
      · exact ih _ ⟨entry, later, past⟩
    · rw [foldl_loadOne_error]

/-- Where the last word starts below the top, all do. -/
theorem exists_word_past_iff {words : List UInt32} :
    (∃ entry ∈ words.zipIdx, 0x10000000000000000 ≤ address.toNat + entry.2 * 4) ↔
      0x10000000000000000 ≤ address.toNat + (words.length - 1) * 4 := by
  have small := address.toNat_lt
  constructor
  · rintro ⟨⟨word, index⟩, member, past⟩
    have inside := (List.mem_zipIdx' member).1
    dsimp only at past
    omega
  · intro past
    have inside : words.length - 1 < words.length := by omega
    exact ⟨(words[words.length - 1], words.length - 1), List.mk_mem_zipIdx_iff_getElem?.mpr (List.getElem?_eq_getElem inside), past⟩

theorem loadWords_error_iff {words : List UInt32} : (memory.loadWords address words).1 = .error .overflow ↔
    0x10000000000000000 ≤ address.toNat + (words.length - 1) * 4 := by
  rw [← exists_word_past_iff, loadWords_eq_foldl]
  refine ⟨fun failed => ?_, foldl_loadOne_past address _ memory⟩
  by_contra none
  rw [foldl_loadOne_ok address _ memory fun entry member => Nat.lt_of_not_le fun past => none ⟨entry, member, past⟩] at failed
  cases failed

/-- Writes and atomic updates never fail, wherever their addresses wrap. A read fails exactly if it meets a byte past the
top that is not mapped, and a load of words exactly if one of them starts there; any other acts on the bytes its addresses
wrap to, and each of its pieces without a page faults once. -/
theorem access_past_top (history : History) (address : UInt64) :
    let memory := history.memory
    (∀ size, memory.Divides address size (pieces address size)) ∧
    (∀ size,
      ((memory.read address size).1 = .error .overflow ↔ memory.Stumbles address size) ∧
      ((memory.readNat address size).1 = .error .overflow ↔ memory.Stumbles address size) ∧
      { (memory.read address size).2 with faults := memory.faults } = memory ∧
      (¬ memory.Stumbles address size → memory.read address size =
        (.ok ((List.range size).map fun distance => memory.byteAt (address + UInt64.ofNat distance)),
          { memory with faults := memory.faults ++ (memory.missing address size).map (Piece.fault false) }))) ∧
    (∀ bytes : List UInt8,
      (memory.write address bytes).backing = lay memory.translate address bytes memory.backing ∧
      (memory.write address bytes).pages = memory.pages ∧
      (memory.write address bytes).faults =
        memory.faults ++ (memory.missing address bytes.length).map (Piece.fault true)) ∧
    (∀ words : List UInt32,
      ((memory.loadWords address words).1 = .error .overflow ↔
        0x10000000000000000 ≤ address.toNat + (words.length - 1) * 4) ∧
      (address.toNat + (words.length - 1) * 4 < 0x10000000000000000 →
        memory.loadWords address words = (.ok (), words.zipIdx.foldl
          (fun memory entry => memory.writeNat (address + UInt64.ofNat (entry.2 * 4)) 4 entry.1.toNat) memory))) ∧
    ∀ expected desired change,
      if memory.isMapped address = true ∧ inPage address + 4 ≤ pageSize then
        ∃ place, memory.translate address = some place ∧ place + 4 ≤ memory.capacity ∧
          memory.compareAndSwap address expected desired = (if memory.wordAt place = expected then
            (true, memory.setWord address place desired) else (false, memory)) ∧
          memory.update address change =
            (change (memory.wordAt place), memory.setWord address place (change (memory.wordAt place)))
      else
        memory.compareAndSwap address expected desired = (false, memory.fault address 4 true) ∧
          memory.update address change = (0, memory.fault address 4 true) := by
  intro memory
  have sound : memory.Sound := history.sound
  refine ⟨sound.divides address, ?_, ?_, ?_, ?_⟩
  · intro size
    refine ⟨sound.read_error_iff, ?_, rfl, sound.read_eq⟩
    rw [← sound.read_error_iff, readNat_error_iff]
  · intro bytes
    exact ⟨backing_write sound address bytes, (marks_write sound address bytes).pages, faults_write memory address bytes⟩
  · intro words
    refine ⟨loadWords_error_iff, fun below => ?_⟩
    rw [loadWords_eq_foldl]
    refine foldl_loadOne_ok address _ memory fun entry member => ?_
    by_contra past
    exact absurd (exists_word_past_iff.mp ⟨entry, member, Nat.not_lt.mp past⟩) (Nat.not_le.mpr below)
  · intro expected desired change
    split
    · next held =>
      obtain ⟨place, found⟩ := Option.isSome_iff_exists.mp held.1
      have room := sound.room found
      have word := (sound.word?_eq held.2).trans found
      refine ⟨place, found, by omega, ?_, ?_⟩
      · simp only [compareAndSwap, word]
      · simp only [update, word]
    · next refused =>
      have word : memory.word? address = none := by
        by_contra found
        have some := Option.isSome_iff_ne_none.mpr found
        have inside := inside_of_word? some
        rw [sound.word?_eq inside] at some
        exact refused ⟨some, inside⟩
      simp only [compareAndSwap, update, word, and_self]

/-- A word that starts four bytes below the top of an address space with nothing mapped cannot be read, nor can the second
of two words be loaded there, though the same eight bytes can be written, for two faults. -/
theorem access_past_top_unmapped :
    let memory := (⟨.empty 0x1000, []⟩ : History).memory
    (memory.readNat 0xfffffffffffffffc 8).1 = .error .overflow ∧
      (memory.loadWords 0xfffffffffffffffc [1, 2]).1 = .error .overflow ∧
      (memory.writeNat 0xfffffffffffffffc 8 0).faultCount = 2 := by
  intro memory
  have sound : memory.Sound := History.sound _
  have unmapped : ∀ address, memory.isMapped address = false := by
    intro address
    simp [memory, History.memory, Origin.memory, isMapped, translate, empty]
  have parts : pieces 0xfffffffffffffffc 8 = [⟨0, 0xfffffffffffffffc, 4⟩, ⟨4, 0, 4⟩] := by
    simp [pieces, split, inPage, pageSize]
  refine ⟨?_, ?_, ?_⟩
  · rw [readNat_error_iff, sound.read_error_iff]
    exact ⟨4, by decide, by decide, unmapped _⟩
  · rw [loadWords_error_iff]
    decide
  · have missing : memory.missing 0xfffffffffffffffc 8 = pieces 0xfffffffffffffffc 8 :=
      List.filter_eq_self.mpr fun piece member => (List.mem_filter.mp ((sound.mem_missing_iff member).mpr (unmapped _))).2
    rw [writeNat, faultCount, faults_write, Bytes.length_ofNat, missing, parts]
    rfl

end Memory
end Dynarec
