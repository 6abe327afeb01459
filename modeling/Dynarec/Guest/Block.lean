import Dynarec.Guest.Instruction

/-!
Basic blocks and the graphs of blocks that a subroutine is built from. The first block of a graph is its
entry. A graph is sound when it has blocks, at distinct addresses, whose last instructions alone transfer
control, to addresses that direct transfers name.
-/
namespace Dynarec.Guest

structure Block where
  address : UInt64
  instructions : List Instruction := []
  deriving DecidableEq, Repr, Inhabited

/-- Where control falls out of the block; an empty block ends where it starts. -/
def Block.last (block : Block) : UInt64 :=
  (block.instructions.getLast?.map Instruction.next).getD block.address

def Block.successors (block : Block) : List UInt64 :=
  (block.instructions.getLast?.map Instruction.successors).getD []

/-- An instruction with a target if its form has one. -/
def Instruction.Named (instruction : Instruction) : Prop :=
  instruction.form.isDirect = true → instruction.target.isSome = true

instance (instruction : Instruction) : Decidable instruction.Named :=
  inferInstanceAs (Decidable (instruction.form.isDirect = true → instruction.target.isSome = true))

/-- A block whose last instruction alone transfers control. -/
structure Block.Straight (block : Block) : Prop where
  nonempty : block.instructions ≠ []
  sequential : ∀ instruction ∈ block.instructions.dropLast, instruction.endsBlock = false
  named : ∀ instruction ∈ block.instructions, instruction.Named

instance (block : Block) : Decidable block.Straight :=
  decidable_of_iff (block.instructions ≠ [] ∧
      (∀ instruction ∈ block.instructions.dropLast, instruction.endsBlock = false) ∧
        ∀ instruction ∈ block.instructions, instruction.Named)
    ⟨fun ⟨nonempty, sequential, named⟩ => ⟨nonempty, sequential, named⟩,
      fun ⟨nonempty, sequential, named⟩ => ⟨nonempty, sequential, named⟩⟩

structure Graph where
  blocks : List Block := []
  deriving DecidableEq, Repr, Inhabited

namespace Graph

def single (block : Block) : Graph := ⟨[block]⟩

def entry? (graph : Graph) : Option UInt64 := graph.blocks.head?.map Block.address

def contains (graph : Graph) (address : UInt64) : Bool := graph.blocks.any (·.address == address)

def instructions (graph : Graph) : List Instruction := graph.blocks.flatMap Block.instructions

def size (graph : Graph) : Nat := graph.instructions.length

/-- What a graph is to be like for its code to be built. -/
structure Sound (graph : Graph) : Prop where
  nonempty : graph.blocks ≠ []
  distinct : (graph.blocks.map Block.address).Nodup
  straight : ∀ block ∈ graph.blocks, block.Straight

instance (graph : Graph) : Decidable graph.Sound :=
  decidable_of_iff (graph.blocks ≠ [] ∧ (graph.blocks.map Block.address).Nodup ∧ ∀ block ∈ graph.blocks, block.Straight)
    ⟨fun ⟨nonempty, distinct, straight⟩ => ⟨nonempty, distinct, straight⟩,
      fun ⟨nonempty, distinct, straight⟩ => ⟨nonempty, distinct, straight⟩⟩

end Graph
end Dynarec.Guest
