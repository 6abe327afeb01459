import Dynarec.Alu
import Dynarec.Memory

/-!
Reading and writing bytes and words. An access is split at page boundaries; each piece is copied whole or
faults whole, a faulting piece reads as zeros and drops what is written to it. Addresses wrap at the top of
the address space, but a read reports a faulting piece by its distance from the first byte, and that sum
must not pass the top.
-/
namespace Dynarec.Memory

/-- A part of an access that lies in one page: its distance from the first byte, its address and size. -/
structure Piece where
  offset : Nat
  address : UInt64
  size : Nat
  deriving DecidableEq, Repr

/-- The pieces of an access to `left` bytes from `offset` on. -/
def split (address : UInt64) (offset left : Nat) : List Piece :=
  if left = 0 then []
  else
    let start := address + UInt64.ofNat offset
    let size := min (pageSize - inPage start) left
    ⟨offset, start, size⟩ :: split address (offset + size) (left - size)
termination_by left
decreasing_by
  have room := inPage_lt (address + UInt64.ofNat offset)
  omega

def pieces (address : UInt64) (size : Nat) : List Piece := split address 0 size

def place? (memory : Memory) (piece : Piece) : Option Nat :=
  (memory.translate piece.address).filter (· + piece.size ≤ memory.backing.size)

/-- The bytes of a piece, zeros when nothing backs it. -/
def fetch (memory : Memory) (piece : Piece) : List UInt8 :=
  match memory.place? piece with
  | some place => (memory.backing.extract place (place + piece.size)).toList
  | none => List.replicate piece.size 0

def read (memory : Memory) (address : UInt64) (size : Nat) : Except Overflow (List UInt8) × Memory :=
  let parts := pieces address size
  let missing := parts.filter fun piece => (memory.place? piece).isNone
  let reported := missing.takeWhile fun piece => address.toNat + piece.offset < 0x10000000000000000
  let bytes := parts.flatMap memory.fetch
  let faults : List Fault := reported.map fun piece => ⟨piece.address, piece.size, false⟩
  (if reported.length = missing.length then .ok bytes else .error .overflow,
    { memory with faults := memory.faults ++ faults })

/-- Copies into one piece, or drops the bytes. -/
def store (memory : Memory) (piece : Piece) (bytes : List UInt8) : Memory :=
  match memory.place? piece with
  | some place => { memory with backing := overlay memory.backing place bytes }
  | none => memory.fault piece.address piece.size true

def write (memory : Memory) (address : UInt64) (bytes : List UInt8) : Memory :=
  let parts := pieces address bytes.length
  let written := parts.filter fun piece => (memory.place? piece).isSome
  let stored := parts.foldl
    (fun memory piece => memory.store piece ((bytes.drop piece.offset).take piece.size)) memory
  written.foldl (fun memory piece => memory.touch piece.address) stored

def readNat (memory : Memory) (address : UInt64) (size : Nat) : Except Overflow Nat × Memory :=
  let (bytes, memory) := memory.read address size
  (bytes.map Bytes.toNat, memory)

def writeNat (memory : Memory) (address : UInt64) (size n : Nat) : Memory :=
  memory.write address (Bytes.ofNat size n)

def loadWords (memory : Memory) (address : UInt64) (words : List UInt32) : Except Overflow Unit × Memory :=
  words.zipIdx.foldl
    (fun (result, memory) (word, index) =>
      match result with
      | .error stop => (.error stop, memory)
      | .ok () =>
        if address.toNat + index * 4 < 0x10000000000000000 then
          (.ok (), memory.writeNat (address + UInt64.ofNat (index * 4)) 4 word.toNat)
        else (.error .overflow, memory))
    (.ok (), memory)

theorem length_fetch (memory : Memory) (piece : Piece) : (memory.fetch piece).length = piece.size := by
  unfold fetch
  cases found : memory.place? piece with
  | none => simp
  | some place =>
    have inside : place + piece.size ≤ memory.backing.size := by
      simpa using (Option.filter_eq_some_iff.mp found).2
    simp only [Array.length_toList, Array.size_extract]
    omega

theorem pieces_zero (address : UInt64) : pieces address 0 = [] := by
  rw [pieces, split]; rfl

end Dynarec.Memory
