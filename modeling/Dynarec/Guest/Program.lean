import Dynarec.Error
import Dynarec.Guest.Block
import Std.Data.TreeMap

/-!
Scripted programs: a table of instructions by address, and the blocks and graphs found in it. A block runs up
to the first control transfer or the first gap. The graph of an address holds the blocks reachable from it,
breadth first, without those at addresses known elsewhere.
-/
namespace Dynarec.Guest

structure Program where
  table : Std.TreeMap UInt64 Instruction := ∅
  deriving Inhabited

namespace Program

/-- The last of several instructions at one address stays. -/
def ofList (instructions : List Instruction) : Program :=
  ⟨instructions.foldl (fun table instruction => table.insert instruction.address instruction) ∅⟩

def at? (program : Program) (address : UInt64) : Option Instruction := program.table[address]?

def contains (program : Program) (address : UInt64) : Bool := program.table.contains address

def size (program : Program) : Nat := program.table.size

/-- Up to `bound` instructions in a row from `address` on. -/
def run (program : Program) : Nat → UInt64 → List Instruction
  | 0, _ => []
  | bound + 1, address =>
    match program.at? address with
    | none => []
    | some instruction =>
      if instruction.endsBlock then [instruction]
      else instruction :: program.run bound instruction.next

/-- The block at an address. A run that meets more instructions than the program has would go in circles, so
the program's size bounds it. A decoder without the bound does not return from such a run, which an instruction of
size 0 that ends no block makes at once; here the run is cut off at the size. -/
def block (program : Program) (address : UInt64) : Except TranslationError Block :=
  match program.run program.size address with
  | [] => .error (.decode address "no instruction scripted")
  | instructions => .ok ⟨address, instructions⟩

/-- Blocks from the addresses waiting, each followed by those it leads to first. -/
def explore (program : Program) (known : UInt64 → Bool) :
    Nat → List UInt64 → List UInt64 → Except TranslationError (List Block)
  | 0, _, _ => .ok []
  | _, [], _ => .ok []
  | bound + 1, address :: waiting, seen => do
    let block ← program.block address
    let found := (block.successors.filter fun next =>
      program.contains next && !known next && !seen.contains next).eraseDups
    let rest ← program.explore known bound (waiting ++ found) (found ++ seen)
    return block :: rest

/-- The graph of an address. Every block but the entry starts at an instruction of its own, which bounds their
number. -/
def graph (program : Program) (known : UInt64 → Bool) (address : UInt64) : Except TranslationError Graph :=
  (program.explore known (program.size + 1) [address] [address]).map Graph.mk

end Program
end Dynarec.Guest
