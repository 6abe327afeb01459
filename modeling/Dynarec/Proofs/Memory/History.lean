import Dynarec.Proofs.Memory.Marks
import Dynarec.Proofs.Memory.Ranges
import Dynarec.Proofs.Memory.Table

/-!
Memories that operations lead to. A history names the memory that was made first and what was asked of it since. The page
table is sound behind every history.
-/
namespace Dynarec
namespace Memory

/-- What can be asked of a memory. Words and vectors are read and written as their bytes. -/
inductive Operation
  | read (address : UInt64) (size : Nat)
  | write (address : UInt64) (bytes : List UInt8)
  | loadWords (address : UInt64) (words : List UInt32)
  | map (address physical size : UInt64)
  | unmap (address size : UInt64)
  | compareAndSwap (address : UInt64) (expected desired : UInt32)
  | increment (address : UInt64)
  | decrement (address : UInt64)
  | modified (address size : UInt64) (tracker : UInt32)

/-- The memory an operation leaves. -/
def Operation.run (memory : Memory) : Operation → Memory
  | .read address size => (memory.read address size).2
  | .write address bytes => memory.write address bytes
  | .loadWords address words => (memory.loadWords address words).2
  | .map address physical size => ((Memory.map address physical size).run memory).2
  | .unmap address size => ((Memory.unmap address size).run memory).2
  | .compareAndSwap address expected desired => (memory.compareAndSwap address expected desired).2
  | .increment address => (memory.increment address).2
  | .decrement address => (memory.decrement address).2
  | .modified address size tracker => (memory.modified address size tracker).2

/-- The addresses through which an operation stores a byte. -/
def Operation.stored (memory : Memory) : Operation → List UInt64
  | .write address bytes => (span address bytes.length).filter memory.isMapped
  | .loadWords address words =>
    (loadable address words).flatMap fun (place, _) => (span place 4).filter memory.isMapped
  | .compareAndSwap address expected desired =>
    if (memory.compareAndSwap address expected desired).1 then span address 4 else []
  | .increment address | .decrement address => if (memory.word? address).isSome then span address 4 else []
  | .read .. | .map .. | .unmap .. | .modified .. => []

/-- An operation stores a byte through a page. -/
def Operation.Stores (memory : Memory) (op : Operation) (page : UInt64) : Prop :=
  ∃ byte ∈ op.stored memory, pageOf byte = page

/-- An operation asks for a tracker what was written to a page. -/
def Operation.Asks (tracker : UInt32) (page : UInt64) : Operation → Prop
  | .modified address size asker => asker = tracker ∧ Meets address size page
  | _ => False

/-- What an operation can do: an access marks the pages it stores through, a request about the page table changes the
table alone, and a query answers a tracking id. Only a query asks, and it stores nothing. -/
inductive Behaves (memory : Memory) : Operation → Prop
  | access {op : Operation} (marks : Marks (op.Stores memory) memory (op.run memory))
      (silent : ∀ tracker page, ¬ op.Asks tracker page) : Behaves memory op
  | remap {op : Operation} (pages : Std.HashMap UInt64 Nat) (remapped : op.run memory = { memory with pages })
      (kept : Sound { memory with pages }) (idle : ∀ page, ¬ op.Stores memory page)
      (silent : ∀ tracker page, ¬ op.Asks tracker page) : Behaves memory op
  | query (address size : UInt64) (tracker : UInt32) : Behaves memory (.modified address size tracker)

def after (memory : Memory) (operations : List Operation) : Memory := operations.foldl Operation.run memory

/-- How a memory is made. -/
inductive Origin
  | empty (capacity : UInt64)
  | identity (size : UInt64)

def Origin.memory : Origin → Memory
  | .empty capacity => Memory.empty capacity
  | .identity size => Memory.identity size

structure History where
  origin : Origin
  operations : List Operation := []

def History.memory (history : History) : Memory := history.origin.memory.after history.operations

variable {memory : Memory} {address page : UInt64}

@[simp] theorem after_nil (memory : Memory) : memory.after [] = memory := rfl

theorem after_append (memory : Memory) (front back : List Operation) :
    memory.after (front ++ back) = (memory.after front).after back := List.foldl_append

theorem exists_word_iff (inside : inPage address + 4 ≤ pageSize) :
    (∃ byte ∈ span address 4, pageOf byte = page) ↔ pageOf address = page := by
  constructor
  · rintro ⟨byte, member, rfl⟩
    obtain ⟨distance, near, rfl⟩ := mem_span.mp member
    exact (pageOf_add_of_lt (by omega)).symm
  · rintro rfl
    exact ⟨address, mem_span.mpr ⟨0, by omega, add_ofNat_zero address⟩, rfl⟩

theorem inside_of_word? (found : (memory.word? address).isSome = true) : inPage address + 4 ≤ pageSize := by
  obtain ⟨place, found⟩ := Option.isSome_iff_exists.mp found
  have holds := (Option.filter_eq_some_iff.mp found).2
  simp only [Bool.and_eq_true, decide_eq_true_eq] at holds
  exact holds.1

theorem word?_of_compareAndSwap {expected desired : UInt32}
    (swapped : (memory.compareAndSwap address expected desired).1 = true) : (memory.word? address).isSome = true := by
  unfold compareAndSwap at swapped
  split at swapped
  · cases swapped
  · next found =>
    rw [found]
    rfl

theorem stores_update_iff :
    (∃ byte ∈ (if (memory.word? address).isSome then span address 4 else []), pageOf byte = page) ↔
      (memory.word? address).isSome = true ∧ pageOf address = page := by
  split
  · next found => rw [exists_word_iff (inside_of_word? found), and_iff_right found]
  · next missing => simp [missing]

/-- A request to map changes the page table alone, if anything. -/
theorem run_map (sound : memory.Sound) (address physical size : UInt64) :
    ∃ pages, (Operation.map address physical size).run memory = { memory with pages } ∧ Sound { memory with pages } := by
  by_cases mappable : memory.Mappable address physical size
  · exact ⟨_, by rw [Operation.run, map_of_mappable mappable], sound.mapped mappable⟩
  · obtain ⟨error, refused⟩ := map_of_not_mappable mappable
    exact ⟨memory.pages, by rw [Operation.run, refused], sound⟩

theorem run_unmap (sound : memory.Sound) (address size : UInt64) :
    ∃ pages, (Operation.unmap address size).run memory = { memory with pages } ∧ Sound { memory with pages } := by
  by_cases range : Range address size
  · rw [Operation.run, unmap_of_range range]
    cases memory.firstUnmapped address (size.toNat / pageSize) with
    | some page => exact ⟨memory.pages, rfl, sound⟩
    | none => exact ⟨_, rfl, sound.unmapped address _⟩
  · rcases unmap_of_not_range memory range with refused | refused <;>
    · exact ⟨memory.pages, by rw [Operation.run, refused], sound⟩

theorem behaves (sound : memory.Sound) (op : Operation) : Behaves memory op := by
  have quiet : ∀ page, ¬ ∃ byte ∈ ([] : List UInt64), pageOf byte = page := by simp
  cases op with
  | read address size =>
    exact .access ((marks_read memory address size).congr fun page => iff_of_false id (quiet page)) fun _ _ => id
  | write address bytes =>
    refine .access ((marks_write sound address bytes).congr fun page => ?_) fun _ _ => id
    simp only [Operation.Stores, Operation.stored, List.mem_filter, and_assoc]
  | loadWords address words =>
    refine .access ((marks_loadWords sound address words).congr fun page => ?_) fun _ _ => id
    simp only [Operation.Stores, Operation.stored, List.mem_flatMap, List.mem_filter]
    constructor
    · rintro ⟨load, member, byte, inside, held, same⟩
      exact ⟨byte, ⟨load, member, inside, held⟩, same⟩
    · rintro ⟨byte, ⟨load, member, inside, held⟩, same⟩
      exact ⟨load, member, byte, inside, held, same⟩
  | map address physical size =>
    obtain ⟨pages, remapped, kept⟩ := run_map sound address physical size
    exact .remap pages remapped kept quiet fun _ _ => id
  | unmap address size =>
    obtain ⟨pages, remapped, kept⟩ := run_unmap sound address size
    exact .remap pages remapped kept quiet fun _ _ => id
  | compareAndSwap address expected desired =>
    refine .access ((marks_compareAndSwap memory address expected desired).congr fun page => ?_) fun _ _ => id
    unfold Operation.Stores Operation.stored
    dsimp only
    split
    · next swapped =>
      rw [exists_word_iff (inside_of_word? (word?_of_compareAndSwap swapped)), and_iff_right swapped]
    · next failed => simp [failed]
  | increment address => exact .access ((marks_update memory address _).congr fun page => stores_update_iff.symm) fun _ _ => id
  | decrement address => exact .access ((marks_update memory address _).congr fun page => stores_update_iff.symm) fun _ _ => id
  | modified address size tracker => exact .query address size tracker

theorem sound_run (sound : memory.Sound) (op : Operation) : (op.run memory).Sound := by
  cases behaves sound op with
  | access marks => exact marks.sound sound
  | remap pages remapped kept =>
    rw [remapped]
    exact kept
  | query => exact sound.congr rfl rfl

theorem sound_after (sound : memory.Sound) (operations : List Operation) : (memory.after operations).Sound := by
  induction operations generalizing memory with
  | nil => exact sound
  | cons op rest ih => exact ih (sound_run sound op)

theorem Origin.sound (origin : Origin) : origin.memory.Sound := by
  cases origin with
  | empty capacity => exact sound_empty capacity
  | identity size => exact sound_identity size

theorem History.sound (history : History) : history.memory.Sound := sound_after history.origin.sound history.operations

end Memory
end Dynarec
