import Dynarec.Memory.Atomic
import Dynarec.Proofs.Memory.Piece

/-!
What an access leaves alone and what it marks. The page table, the size of the store and what tracking ids were told
stay; the pages through which bytes are stored get a generation later than all before, and other pages keep theirs.
-/
namespace Dynarec
namespace Memory

/-- The pages that `touched` tells of are marked as written, and nothing else is. -/
structure Marks (touched : UInt64 → Prop) (before after : Memory) : Prop where
  pages : after.pages = before.pages
  capacity : after.capacity = before.capacity
  seen : after.seen = before.seen
  generation : before.generation ≤ after.generation
  later : ∀ page, touched page → before.generation < after.versions.getD page 0
  bounded : ∀ page, touched page → after.versions.getD page 0 ≤ after.generation
  others : ∀ page, ¬ touched page → after.versions.getD page 0 = before.versions.getD page 0

variable {touched touchedToo : UInt64 → Prop} {before middle after memory : Memory} {address : UInt64}

theorem Marks.of_untouched (pages : after.pages = before.pages) (capacity : after.capacity = before.capacity)
    (seen : after.seen = before.seen) (generation : after.generation = before.generation)
    (versions : after.versions = before.versions) : Marks (fun _ => False) before after :=
  ⟨pages, capacity, seen, generation.ge, by simp, by simp, fun page _ => by rw [versions]⟩

theorem Marks.refl (memory : Memory) : Marks (fun _ => False) memory memory := .of_untouched rfl rfl rfl rfl rfl

theorem Marks.trans (first : Marks touched before middle) (second : Marks touchedToo middle after) :
    Marks (fun page => touched page ∨ touchedToo page) before after := by
  refine ⟨second.pages.trans first.pages, second.capacity.trans first.capacity, second.seen.trans first.seen,
    first.generation.trans second.generation, ?_, ?_, ?_⟩
  · intro page either
    by_cases again : touchedToo page
    · exact first.generation.trans_lt (second.later page again)
    · rw [second.others page again]
      exact first.later page (either.resolve_right again)
  · intro page either
    by_cases again : touchedToo page
    · exact second.bounded page again
    · rw [second.others page again]
      exact (first.bounded page (either.resolve_right again)).trans second.generation
  · intro page neither
    rw [second.others page fun again => neither (.inr again), first.others page fun once => neither (.inl once)]

theorem Marks.congr (marks : Marks touched before after) (same : ∀ page, touched page ↔ touchedToo page) :
    Marks touchedToo before after := by
  obtain rfl : touched = touchedToo := funext fun page => propext (same page)
  exact marks

theorem Marks.sound (marks : Marks touched before after) (sound : before.Sound) : after.Sound :=
  sound.congr marks.pages marks.capacity

theorem Marks.translate (marks : Marks touched before after) : after.translate = before.translate := by
  funext address
  rw [Memory.translate, Memory.translate, marks.pages]

theorem Marks.isMapped (marks : Marks touched before after) : after.isMapped = before.isMapped := by
  funext address
  rw [Memory.isMapped, Memory.isMapped, marks.translate]

/-- A row of steps marks what its steps mark. -/
theorem marks_foldl {α : Type} {step : Memory → α → Memory} {touched : α → UInt64 → Prop} (items : List α)
    (memory : Memory) (marks : ∀ middle : Memory, middle.pages = memory.pages → middle.capacity = memory.capacity →
      ∀ item ∈ items, Marks (touched item) middle (step middle item)) :
    Marks (fun page => ∃ item ∈ items, touched item page) memory (items.foldl step memory) := by
  induction items generalizing memory with
  | nil => exact (Marks.refl memory).congr (by simp)
  | cons item rest ih =>
    have first := marks memory rfl rfl item List.mem_cons_self
    have others := ih (step memory item) fun middle pages capacity item member =>
      marks middle (pages.trans first.pages) (capacity.trans first.capacity) item (List.mem_cons_of_mem _ member)
    exact (first.trans others).congr (by simp)

theorem marks_fault (memory : Memory) (address : UInt64) (size : Nat) (write : Bool) :
    Marks (fun _ => False) memory (memory.fault address size write) := .of_untouched rfl rfl rfl rfl rfl

theorem marks_overlay (memory : Memory) (place : Nat) (bytes : List UInt8) :
    Marks (fun _ => False) memory { memory with backing := overlay memory.backing place bytes } :=
  .of_untouched rfl (size_overlay memory.backing place bytes) rfl rfl rfl

theorem marks_touch (memory : Memory) (address : UInt64) :
    Marks (fun page => pageOf address = page) memory (memory.touch address) := by
  refine ⟨rfl, rfl, rfl, Nat.le_succ _, ?_, ?_, ?_⟩
  · rintro page rfl
    simp [touch]
  · rintro page rfl
    simp [touch]
  · intro page other
    simp [touch, Std.HashMap.getD_insert, other]

theorem marks_read (memory : Memory) (address : UInt64) (size : Nat) :
    Marks (fun _ => False) memory (memory.read address size).2 := .of_untouched rfl rfl rfl rfl rfl

theorem marks_store (memory : Memory) (piece : Piece) (bytes : List UInt8) :
    Marks (fun _ => False) memory (memory.store piece bytes) := by
  unfold store
  split
  · exact marks_overlay memory _ bytes
  · exact marks_fault memory _ _ true

/-- What is left of a memory behind the pieces of a write, none of its pages marked yet. -/
def stored (memory : Memory) (bytes : List UInt8) (parts : List Piece) : Memory :=
  parts.foldl (fun memory piece => memory.store piece ((bytes.drop piece.offset).take piece.size)) memory

theorem marks_stored (memory : Memory) (bytes : List UInt8) (parts : List Piece) :
    Marks (fun _ => False) memory (memory.stored bytes parts) :=
  (marks_foldl parts memory fun middle _ _ piece _ => marks_store middle piece _).congr (by simp)

theorem write_eq (memory : Memory) (address : UInt64) (bytes : List UInt8) :
    memory.write address bytes = (((pieces address bytes.length).filter fun piece => (memory.place? piece).isSome).foldl
      (fun memory piece => memory.touch piece.address) (memory.stored bytes (pieces address bytes.length))) := rfl

theorem foldl_touch (parts : List Piece) (memory : Memory) : ∃ versions generation,
    parts.foldl (fun memory piece => memory.touch piece.address) memory = { memory with versions, generation } := by
  induction parts generalizing memory with
  | nil => exact ⟨_, _, rfl⟩
  | cons piece rest ih => exact ih (memory.touch piece.address)

/-- Behind its pieces a write changes the record of writes alone. -/
theorem write_eq_stored (memory : Memory) (address : UInt64) (bytes : List UInt8) : ∃ versions generation,
    memory.write address bytes =
      { memory.stored bytes (pieces address bytes.length) with versions, generation } :=
  foldl_touch _ _

theorem marks_write (sound : memory.Sound) (address : UInt64) (bytes : List UInt8) :
    Marks (fun page => ∃ byte ∈ span address bytes.length, memory.isMapped byte = true ∧ pageOf byte = page) memory
      (memory.write address bytes) := by
  rw [write_eq]
  have stores := marks_stored memory bytes (pieces address bytes.length)
  have touches := marks_foldl ((pieces address bytes.length).filter fun piece => (memory.place? piece).isSome)
    (memory.stored bytes (pieces address bytes.length)) fun middle _ _ piece _ => marks_touch middle piece.address
  refine (stores.trans touches).congr fun page => ?_
  have bytewise := exists_piece_iff address bytes.length fun own => memory.isMapped own = true ∧ own = page
  simp only [isMapped_pageOf] at bytewise
  simp only [false_or, List.mem_filter, and_assoc, ← bytewise]
  refine exists_congr fun piece => and_congr_right fun member => ?_
  rw [sound.isSome_place? member, isMapped_pageOf]

/-- The words of a load, each with its address, as far as their distance from the first stays below the top. -/
def loadable (address : UInt64) (words : List UInt32) : List (UInt64 × UInt32) :=
  (words.zipIdx.takeWhile fun (_, index) => address.toNat + index * 4 < 0x10000000000000000).map
    fun (word, index) => (address + UInt64.ofNat (index * 4), word)

/-- One word of a load, unless the load has stopped. -/
def loadOne (address : UInt64) : Except Overflow Unit × Memory → UInt32 × Nat → Except Overflow Unit × Memory
  | (.error stop, memory), _ => (.error stop, memory)
  | (.ok (), memory), (word, index) =>
    if address.toNat + index * 4 < 0x10000000000000000 then
      (.ok (), memory.writeNat (address + UInt64.ofNat (index * 4)) 4 word.toNat)
    else (.error .overflow, memory)

theorem loadWords_eq_foldl (memory : Memory) (address : UInt64) (words : List UInt32) :
    memory.loadWords address words = words.zipIdx.foldl (loadOne address) (.ok (), memory) := by
  unfold loadWords
  congr 1
  funext ⟨result, memory⟩ ⟨word, index⟩
  cases result <;> rfl

theorem foldl_loadOne_error (address : UInt64) (stop : Overflow) (memory : Memory) (words : List (UInt32 × Nat)) :
    words.foldl (loadOne address) (.error stop, memory) = (.error stop, memory) := by
  induction words with
  | nil => rfl
  | cons first rest ih => exact ih

theorem loadWords_eq (memory : Memory) (address : UInt64) (words : List UInt32) :
    (memory.loadWords address words).2 = (loadable address words).foldl
      (fun memory (place, word) => memory.writeNat place 4 word.toNat) memory := by
  rw [loadWords_eq_foldl, loadable]
  generalize words.zipIdx = words
  induction words generalizing memory with
  | nil => rfl
  | cons first rest ih =>
    obtain ⟨word, index⟩ := first
    by_cases below : address.toNat + index * 4 < 0x10000000000000000
    · simp only [List.foldl_cons, loadOne, below, if_true, ih, List.takeWhile_cons, decide_true, List.map_cons]
    · simp only [List.foldl_cons, loadOne, below, if_false, foldl_loadOne_error, List.takeWhile_cons, decide_false,
        Bool.false_eq_true, List.map_nil, List.foldl_nil]

theorem marks_loadWords (sound : memory.Sound) (address : UInt64) (words : List UInt32) :
    Marks (fun page => ∃ load ∈ loadable address words, ∃ byte ∈ span load.1 4,
      memory.isMapped byte = true ∧ pageOf byte = page) memory (memory.loadWords address words).2 := by
  rw [loadWords_eq]
  refine marks_foldl (loadable address words) memory fun middle pages capacity load _ => ?_
  have same : middle.isMapped = memory.isMapped := by
    funext byte
    rw [isMapped, isMapped, translate, translate, pages]
  have marks := marks_write (sound.congr pages capacity) load.1 (Bytes.ofNat 4 load.2.toNat)
  rw [same, Bytes.length_ofNat] at marks
  exact marks

theorem marks_setWord (memory : Memory) (address : UInt64) (place : Nat) (word : UInt32) :
    Marks (fun page => pageOf address = page) memory (memory.setWord address place word) :=
  ((marks_overlay memory place _).trans (marks_touch _ address)).congr (by simp)

theorem marks_compareAndSwap (memory : Memory) (address : UInt64) (expected desired : UInt32) :
    Marks (fun page => (memory.compareAndSwap address expected desired).1 = true ∧ pageOf address = page) memory
      (memory.compareAndSwap address expected desired).2 := by
  unfold compareAndSwap
  split
  · exact (marks_fault memory address 4 true).congr (by simp)
  · split
    · exact (marks_setWord memory address _ desired).congr (by simp)
    · exact (Marks.refl memory).congr (by simp)

theorem marks_update (memory : Memory) (address : UInt64) (change : UInt32 → UInt32) :
    Marks (fun page => (memory.word? address).isSome = true ∧ pageOf address = page) memory
      (memory.update address change).2 := by
  unfold update
  split
  · next missing => exact (marks_fault memory address 4 true).congr (by simp [missing])
  · next place found => exact (marks_setWord memory address place _).congr (by simp [found])

end Memory
end Dynarec
