import Dynarec.Bytes
import Std.Data.HashMap

/-!
Flat guest memory: a backing store of whole pages, a page table from virtual pages to places in the store,
the record of what was written for the dirty-page queries, and the faults so far.
-/
namespace Dynarec

/-- An access to bytes that no page backs. -/
structure Fault where
  address : UInt64
  size : Nat
  write : Bool
  deriving DecidableEq, Repr, Inhabited

/-- The address of a faulting byte run passes the top of the address space. -/
inductive Overflow
  | overflow
  deriving DecidableEq, Repr

def Overflow.message : Overflow → String
  | .overflow => "attempt to add with overflow"

structure Memory where
  backing : Array UInt8 := #[]
  /-- From the address of a page to the place of its first byte in the store. -/
  pages : Std.HashMap UInt64 Nat := ∅
  /-- The write generation that last touched a page. -/
  versions : Std.HashMap UInt64 Nat := ∅
  /-- The generation of a page that a tracking id was last told of. -/
  seen : Std.HashMap (UInt32 × UInt64) Nat := ∅
  generation : Nat := 0
  faults : Array Fault := #[]
  deriving Inhabited

namespace Memory

def pageSize : Nat := 0x1000

def inPage (address : UInt64) : Nat := address.toNat % pageSize

def pageOf (address : UInt64) : UInt64 := UInt64.ofNat (address.toNat - inPage address)

def aligned (address : UInt64) : Bool := inPage address == 0

def wholePages (size : Nat) : Nat := (size + pageSize - 1) / pageSize * pageSize

/-- Backing of at least `capacity` bytes with nothing mapped. -/
def empty (capacity : UInt64) : Memory :=
  { backing := Array.replicate (wholePages capacity.toNat) 0 }

def capacity (memory : Memory) : Nat := memory.backing.size

/-- Backing in which every byte is mapped at its own place. -/
def identity (size : UInt64) : Memory :=
  let memory := empty size
  let starts := (List.range (memory.capacity / pageSize)).map (· * pageSize)
  { memory with
    pages := starts.foldl (fun pages start => pages.insert (UInt64.ofNat start) start) memory.pages }

/-- Where a byte lies in the store, when its page is mapped. -/
def translate (memory : Memory) (address : UInt64) : Option Nat :=
  memory.pages[pageOf address]?.map (· + inPage address)

def isMapped (memory : Memory) (address : UInt64) : Bool := (memory.translate address).isSome

def fault (memory : Memory) (address : UInt64) (size : Nat) (write : Bool) : Memory :=
  { memory with faults := memory.faults.push ⟨address, size, write⟩ }

def faultCount (memory : Memory) : Nat := memory.faults.size

/-- Notes a write to the page of an address. -/
def touch (memory : Memory) (address : UInt64) : Memory :=
  { memory with
    generation := memory.generation + 1
    versions := memory.versions.insert (pageOf address) (memory.generation + 1) }

/-- Bytes laid over the store from a place on. -/
def overlay (backing : Array UInt8) (place : Nat) : List UInt8 → Array UInt8
  | [] => backing
  | byte :: rest => overlay (backing.setIfInBounds place byte) (place + 1) rest

def summary (memory : Memory) : String :=
  "FlatMemory \x7b capacity: " ++ toString memory.capacity
    ++ ", mapped_pages: " ++ toString memory.pages.size
    ++ ", faults: " ++ toString memory.faultCount ++ " \x7d"

@[simp] theorem size_overlay (backing : Array UInt8) (place : Nat) (bytes : List UInt8) :
    (overlay backing place bytes).size = backing.size := by
  induction bytes generalizing backing place with
  | nil => rfl
  | cons byte rest ih => simp [overlay, ih]

theorem inPage_lt (address : UInt64) : inPage address < pageSize := Nat.mod_lt _ (by decide)

@[simp] theorem faultCount_fault (memory : Memory) (address : UInt64) (size : Nat) (write : Bool) :
    (memory.fault address size write).faultCount = memory.faultCount + 1 := by
  simp [fault, faultCount]

@[simp] theorem translate_fault (memory : Memory) (address other : UInt64) (size : Nat) (write : Bool) :
    (memory.fault address size write).translate other = memory.translate other := rfl

@[simp] theorem translate_touch (memory : Memory) (address other : UInt64) :
    (memory.touch address).translate other = memory.translate other := rfl

end Memory
end Dynarec
