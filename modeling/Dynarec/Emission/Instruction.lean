import Dynarec.Emission
import Dynarec.Error

/-!
What each form of instruction emits. A direct branch or call that names no target fails; what was emitted for
it until then stays.
-/
namespace Dynarec

abbrev Emit := ExceptT TranslationError (StateM Emission)

namespace Emit

def put (op : Ir.Op) : Emit Unit := modify (Emission.emit op)

def use (register : Register) : Emit Ir.Local := modifyGet (Emission.register register)

def temp (kind : Ir.LocalKind) : Emit Ir.Local := modifyGet (Emission.temp kind)

def constant (value : UInt64) : Emit Ir.Local := modifyGet (Emission.constant value)

def target (instruction : Guest.Instruction) : Emit UInt64 :=
  match instruction.target with
  | some target => pure target
  | none => throw (.decode instruction.address s!"{instruction.form.name} without target")

def binary (op : BinaryOp) (instruction : Guest.Instruction) : Emit Unit := do
  let lhs ← use (instruction.x 1)
  let rhs ← use (instruction.x 2)
  let dst ← use (instruction.x 0)
  put (.binary op dst lhs rhs)

def binaryImm (op : BinaryOp) (instruction : Guest.Instruction) : Emit Unit := do
  let lhs ← use (instruction.x 1)
  let dst ← use (instruction.x 0)
  put (.binaryImm op dst lhs (instruction.operand 2))

def instruction (instruction : Guest.Instruction) : Emit Unit := do
  match instruction.form with
  | .movz =>
    let dst ← use (instruction.x 0)
    put (.const dst (instruction.operand 1))
  | .add => binary .add instruction
  | .addImm => binaryImm .add instruction
  | .sub => binary .sub instruction
  | .subImm => binaryImm .sub instruction
  | .cmpImm =>
    let lhs ← use (instruction.x 0)
    let rhs ← constant (instruction.operand 1)
    let dst ← use .zero
    put (.compare .eq dst lhs rhs)
  | .b =>
    let target ← target instruction
    modify (Emission.branch target)
  | .bEq =>
    let flag ← use .zero
    let target ← target instruction
    modify (Emission.branchIf flag target)
  | .cbnz =>
    let value ← use (instruction.x 0)
    let target ← target instruction
    modify (Emission.branchIf value target)
  | .bl =>
    let link ← use .link
    put (.const link instruction.next)
    let target ← target instruction
    modify (Emission.call target instruction.next)
  | .ret => modify Emission.retToLink
  | .ldr =>
    let address ← use (instruction.x 1)
    let dst ← use (instruction.x 0)
    put (.load .w64 dst address)
  | .str =>
    let address ← use (instruction.x 1)
    let src ← use (instruction.x 0)
    put (.store .w64 address src)
  | .cas =>
    let address ← use (instruction.x 1)
    let expected ← use (instruction.x 2)
    let desired ← use (instruction.x 3)
    let dst ← use (instruction.x 0)
    put (.cas32 dst address expected desired)
  | .nop => pure ()
  | .insPair =>
    let low ← use (instruction.x 1)
    let high ← use (instruction.x 2)
    let dst ← use (instruction.v 0)
    put (.vectorPack dst low high)
  | .eorV =>
    let lhs ← use (instruction.v 1)
    let rhs ← use (instruction.v 2)
    let dst ← use (instruction.v 0)
    put (.vector .xor dst lhs rhs)
  | .umovLo =>
    let src ← use (instruction.v 1)
    let scratch ← temp .i64
    put (.vectorExtract scratch src false)
    let dst ← use (instruction.x 0)
    put (.move dst scratch)
  | .bloat =>
    let slot ← use (.int 0)
    modify fun emission => (instruction.operand 0).toNat.repeat (Emission.emit (.move slot slot)) emission

def spanned (instruction : Guest.Instruction) : Emit Unit := do
  modify (Emission.beginSpan instruction)
  Emit.instruction instruction
  modify Emission.endSpan

/-- A block: its label, its instructions, and the way on to what follows it if control gets there. -/
def block (block : Guest.Block) : Emit Unit := do
  modify fun emission =>
    match emission.blockLabel? block.address with
    | some label => emission.emit (.place label)
    | none => emission
  block.instructions.forM spanned
  modify fun emission => if emission.isTerminated then emission else emission.branch block.last

end Emit

def Emitted.ofGraph (name : String) (tier : Tier) (graph : Guest.Graph) (linkable : UInt64 → Bool)
    (params : List Register) : Except TranslationError Emitted :=
  match (graph.blocks.forM Emit.block).run (Emission.start name tier graph linkable params) with
  | (.ok (), emission) => .ok emission.finish
  | (.error error, _) => .error error

end Dynarec
