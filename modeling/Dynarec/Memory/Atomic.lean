import Dynarec.Memory

/-!
Atomic updates of 32-bit words. A word must lie in one mapped page; otherwise the access faults, as a write
of four bytes, and yields zero.
-/
namespace Dynarec.Memory

def word? (memory : Memory) (address : UInt64) : Option Nat :=
  (memory.translate address).filter fun place =>
    inPage address + 4 ≤ pageSize && place + 4 ≤ memory.backing.size

def wordAt (memory : Memory) (place : Nat) : UInt32 :=
  UInt32.ofNat (Bytes.toNat (memory.backing.extract place (place + 4)).toList)

def setWord (memory : Memory) (address : UInt64) (place : Nat) (word : UInt32) : Memory :=
  { memory with backing := overlay memory.backing place (Bytes.ofNat 4 word.toNat) }.touch address

/-- Stores `desired` where `expected` is found; a failed comparison changes nothing. -/
def compareAndSwap (memory : Memory) (address : UInt64) (expected desired : UInt32) : Bool × Memory :=
  match memory.word? address with
  | none => (false, memory.fault address 4 true)
  | some place =>
    if memory.wordAt place = expected then (true, memory.setWord address place desired)
    else (false, memory)

def update (memory : Memory) (address : UInt64) (change : UInt32 → UInt32) : UInt32 × Memory :=
  match memory.word? address with
  | none => (0, memory.fault address 4 true)
  | some place =>
    let word := change (memory.wordAt place)
    (word, memory.setWord address place word)

def increment (memory : Memory) (address : UInt64) : UInt32 × Memory := memory.update address (· + 1)

def decrement (memory : Memory) (address : UInt64) : UInt32 × Memory := memory.update address (· - 1)

end Dynarec.Memory
