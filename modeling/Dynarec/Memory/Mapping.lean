import Dynarec.Memory
import Dynarec.Text.Render

/-!
Mapping and unmapping of page runs. Both check everything first, unmapping each page in turn, and then change the
page table one page after another.
-/
namespace Dynarec.Memory

inductive MapError
  | unaligned (address size : UInt64)
  | outOfBacking (physical size : UInt64) (capacity : Nat)
  | addressOverflow (address size : UInt64)
  | notMapped (page : UInt64)
  deriving DecidableEq, Repr

def MapError.kind : MapError → String
  | .unaligned .. => "Unaligned"
  | .outOfBacking .. => "OutOfBacking"
  | .addressOverflow .. => "AddressOverflow"
  | .notMapped .. => "NotMapped"

def MapError.message : MapError → String
  | .unaligned address size =>
    s!"unaligned mapping: address {Text.hex address.toNat}, size {Text.hex size.toNat}"
  | .outOfBacking physical size capacity =>
    s!"physical range {Text.hex physical.toNat}+{Text.hex size.toNat} exceeds backing store of {Text.hex capacity} bytes"
  | .addressOverflow address size =>
    s!"range {Text.hex address.toNat}+{Text.hex size.toNat} wraps the address space"
  | .notMapped page => s!"page {Text.hex page.toNat} is not mapped"

/-- Whether the last byte of a range lies past the top of the address space. -/
def passesTop (address size : UInt64) : Bool := address.toNat + size.toNat > 0x10000000000000000

def pageAt (address : UInt64) (index : Nat) : UInt64 := address + UInt64.ofNat (index * pageSize)

/-- Work on a memory that may be refused; what was done by then stays done. -/
abbrev Request := ExceptT MapError (StateM Memory)

/-- Goes on only if a condition holds. -/
def demand (condition : Bool) (error : MapError) : Request Unit := if condition then pure () else throw error

def insertPage (page : UInt64) (place : Nat) : Request Unit :=
  modify fun memory => { memory with pages := memory.pages.insert page place }

/-- Goes through `count` pages from `address` on, up to the first that is not mapped. -/
def demandMapped (address : UInt64) : Nat → Request Unit
  | 0 => pure ()
  | count + 1 => do
    demand ((← get).isMapped address) (.notMapped address)
    demandMapped (pageAt address 1) count

def erasePage (page : UInt64) : Request Unit :=
  modify fun memory => { memory with pages := memory.pages.erase page }

def map (address physical size : UInt64) : Request Unit := do
  demand (aligned address && aligned physical && aligned size) (.unaligned address size)
  demand (!passesTop address size) (.addressOverflow address size)
  let capacity := (← get).capacity
  demand (physical.toNat + size.toNat ≤ capacity) (.outOfBacking physical size capacity)
  (List.range (size.toNat / pageSize)).forM fun index =>
    insertPage (pageAt address index) (physical.toNat + index * pageSize)

def unmap (address size : UInt64) : Request Unit := do
  demand (aligned address && aligned size) (.unaligned address size)
  demand (!passesTop address size) (.addressOverflow address size)
  let count := size.toNat / pageSize
  demandMapped address count
  (List.range count).forM fun index => erasePage (pageAt address index)

end Dynarec.Memory
