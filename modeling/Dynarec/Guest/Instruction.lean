import Dynarec.Profile.Opcode
import Dynarec.Register
import Dynarec.Text.Quoted
import Dynarec.Text.Render

/-!
Decoded guest instructions: a form with its operands, its place, and the address it names directly. Flags
other than the zero flag are never set.
-/
namespace Dynarec.Guest

inductive Flow
  | sequential
  | branch
  | conditional
  | call
  | indirect
  deriving DecidableEq, Repr, Inhabited

def Flow.name : Flow → String
  | .sequential => "Sequential"
  | .branch => "Branch"
  | .conditional => "ConditionalBranch"
  | .call => "Call"
  | .indirect => "IndirectBranch"

def Flow.endsBlock (flow : Flow) : Bool := flow != .sequential

inductive Form
  /-- `xd = imm` -/
  | movz
  /-- `xd = xn + xm` -/
  | add
  /-- `xd = xn + imm` -/
  | addImm
  /-- `xd = xn - xm` -/
  | sub
  /-- `xd = xn - imm` -/
  | subImm
  /-- `Z = xn == imm` -/
  | cmpImm
  /-- Branch. -/
  | b
  /-- Branch if Z. -/
  | bEq
  /-- Branch if `xt != 0`. -/
  | cbnz
  /-- Branch with link. -/
  | bl
  /-- Return through the link register. -/
  | ret
  /-- `xt = mem64[xn]` -/
  | ldr
  /-- `mem64[xn] = xt` -/
  | str
  /-- `xd = 1` when the word at `xn` was swapped from `xe` to `xw`, else `0`. -/
  | cas
  | nop
  /-- `vd = (low: xn, high: xm)` -/
  | insPair
  /-- `vd = vn ^ vm` -/
  | eorV
  /-- `xd = vn.low` -/
  | umovLo
  /-- As many register moves as the operand says, all without effect. -/
  | bloat
  deriving DecidableEq, Repr, Inhabited

namespace Form

def all : List Form :=
  [.movz, .add, .addImm, .sub, .subImm, .cmpImm, .b, .bEq, .cbnz, .bl, .ret, .ldr, .str, .cas, .nop,
    .insPair, .eorV, .umovLo, .bloat]

def name : Form → String
  | .movz => "movz" | .add => "add" | .addImm => "add_imm" | .sub => "sub" | .subImm => "sub_imm"
  | .cmpImm => "cmp_imm" | .b => "b" | .bEq => "b.eq" | .cbnz => "cbnz" | .bl => "bl" | .ret => "ret"
  | .ldr => "ldr" | .str => "str" | .cas => "cas" | .nop => "nop" | .insPair => "ins_pair"
  | .eorV => "eor_v" | .umovLo => "umov_lo" | .bloat => "bloat"

/-- The routine that emits code for the form. -/
def emitter : Form → String
  | .movz => "emit_mov"
  | .add | .sub => "emit_alu"
  | .addImm | .subImm => "emit_alu_imm"
  | .cmpImm => "emit_cmp"
  | .b => "emit_b"
  | .bEq => "emit_b_cond"
  | .cbnz => "emit_cb"
  | .bl => "emit_bl"
  | .ret => "emit_ret"
  | .ldr | .str => "emit_mem"
  | .cas => "emit_atomic"
  | .nop => "emit_nop"
  | .insPair | .eorV | .umovLo => "emit_simd"
  | .bloat => "emit_bloat"

def flow : Form → Flow
  | .b => .branch
  | .bEq | .cbnz => .conditional
  | .bl => .call
  | .ret => .indirect
  | _ => .sequential

/-- Whether an instruction of the form names the address it transfers control to. -/
def isDirect (form : Form) : Bool :=
  match form.flow with
  | .branch | .conditional | .call => true
  | .sequential | .indirect => false

def ofName? (name : String) : Option Form := all.find? (·.name == name)

def key (form : Form) : Profile.OpcodeKey := ⟨form.emitter, form.name⟩

theorem ofName?_name (form : Form) : ofName? form.name = some form := by
  cases form <;> decide

end Form

structure Instruction where
  form : Form
  address : UInt64
  operands : List UInt64 := []
  /-- Destination of a direct branch or call. -/
  target : Option UInt64 := none
  size : UInt32 := 4
  deriving DecidableEq, Repr, Inhabited

namespace Instruction

/-- Address of the following instruction; it wraps at the top. -/
def next (instruction : Instruction) : UInt64 := instruction.address + instruction.size.toUInt64

/-- A missing operand is zero. -/
def operand (instruction : Instruction) (index : Nat) : UInt64 := instruction.operands.getD index 0

def endsBlock (instruction : Instruction) : Bool := instruction.form.flow.endsBlock

/-- Whether control can come to the following instruction from it. -/
def fallsOut (instruction : Instruction) : Bool :=
  match instruction.form.flow with
  | .sequential | .conditional => true
  | .branch | .call | .indirect => false

def x (instruction : Instruction) (index : Nat) : Register := .int (instruction.operand index).toNat

def v (instruction : Instruction) (index : Nat) : Register := .vec (instruction.operand index).toNat

/-- Addresses control can statically go to next, where a call is taken to come back. -/
def successors (instruction : Instruction) : List UInt64 :=
  match instruction.form.flow with
  | .branch => instruction.target.toList
  | .conditional => instruction.target.toList ++ [instruction.next]
  | .call => [instruction.next]
  | .indirect | .sequential => []

def render (instruction : Instruction) : String :=
  let form := instruction.form
  let kind := Text.partialRecord "OpKind"
    [("emitter", Text.Quoted.render form.emitter), ("form", Text.Quoted.render form.name),
      ("flow", form.flow.name)]
  Text.record "DecodedOp"
    [("address", toString instruction.address), ("size", toString instruction.size), ("kind", kind),
      ("operands", Text.list (instruction.operands.map toString)),
      ("target", Text.optional (instruction.target.map toString))]

end Instruction
end Dynarec.Guest
