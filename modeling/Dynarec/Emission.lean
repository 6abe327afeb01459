import Dynarec.Guest.Block
import Dynarec.Ir.Expansion
import Dynarec.Ir.Function
import Dynarec.Subroutine.Promotion
import Std.Data.TreeSet

/-!
Emission of a function. Guest registers live in locals, allotted at their first use; parameters get theirs in
the prologue and take their values from the arguments. Placeholders stand where registers are loaded or stored,
and are expanded once all registers in use are known. Each instruction's operations are noted as a span.
-/
namespace Dynarec

/-- The operations emitted for one instruction, from `start` up to and without `stop`. -/
structure Span where
  key : Profile.OpcodeKey
  address : UInt64
  start : Nat
  stop : Nat
  deriving DecidableEq, Repr, Inhabited

def Span.size (span : Span) : Nat := span.stop - span.start

structure OpenSpan where
  key : Profile.OpcodeKey
  address : UInt64
  start : Nat
  deriving DecidableEq, Repr, Inhabited

/-- A finished function with its spans, the targets of its calls and those called in place, ascending. -/
structure Emitted where
  function : Ir.Function
  spans : List Span
  callees : List UInt64
  linked : List UInt64
  deriving DecidableEq, Repr, Inhabited

structure Emission where
  tier : Tier
  name : String
  params : List Register
  /-- Whether calls to an address can be made in place. -/
  linkable : UInt64 → Bool
  argWords : Nat := 0
  ops : Array Ir.Op := #[]
  locals : Array Ir.LocalKind := #[]
  bindings : List Ir.Binding := []
  /-- Labels of the blocks, newest first. -/
  blockLabels : List (UInt64 × Ir.Label) := []
  labels : Nat := 0
  callees : Std.TreeSet UInt64 := ∅
  linked : Std.TreeSet UInt64 := ∅
  spans : Array Span := #[]
  opened : Option OpenSpan := none
  deriving Inhabited

namespace Emission

def emit (op : Ir.Op) (emission : Emission) : Emission := { emission with ops := emission.ops.push op }

def temp (kind : Ir.LocalKind) (emission : Emission) : Ir.Local × Emission :=
  (emission.locals.size, { emission with locals := emission.locals.push kind })

def label (emission : Emission) : Ir.Label × Emission :=
  (emission.labels, { emission with labels := emission.labels + 1 })

/-- The local of a register, allotted now unless it was before. -/
def bind (register : Register) (isParam : Bool) (emission : Emission) : Ir.Local × Emission :=
  match emission.bindings.find? (·.register == register) with
  | some binding => (binding.slot, emission)
  | none =>
    let (slot, emission) := emission.temp (.of register)
    (slot, { emission with bindings := emission.bindings ++ [⟨register, slot, isParam⟩] })

def register (register : Register) (emission : Emission) : Ir.Local × Emission :=
  emission.bind register false

def constant (value : UInt64) (emission : Emission) : Ir.Local × Emission :=
  let (dst, emission) := emission.temp .i64
  (dst, emission.emit (.const dst value))

/-- Gives a parameter its local and takes its value from the arguments not yet taken. -/
def param (emission : Emission) (register : Register) : Emission :=
  let (dst, emission) := emission.bind register true
  { emission with argWords := emission.argWords + register.words }.emit (.loadArg dst emission.argWords)

def announce (emission : Emission) (address : UInt64) : Emission :=
  let (label, emission) := emission.label
  { emission with blockLabels := (address, label) :: emission.blockLabels }

/-- Labels for the blocks, then the prologue. -/
def start (name : String) (tier : Tier) (graph : Guest.Graph) (linkable : UInt64 → Bool)
    (params : List Register) : Emission :=
  let emission : Emission := { tier, name, params, linkable }
  let emission := (graph.blocks.map Guest.Block.address).foldl announce emission
  (params.foldl param emission).emit .preload

def blockLabel? (address : UInt64) (emission : Emission) : Option Ir.Label :=
  emission.blockLabels.lookup address

/-- Whether control cannot come to the next operation from the last one. -/
def isTerminated (emission : Emission) : Bool := emission.ops.back?.any Ir.Op.isTerminator

def ret (next : Ir.Local) (emission : Emission) : Emission := (emission.emit .spill).emit (.ret next)

/-- The label to go on at for an address. Tier-0 code always leaves, so that each run covers one block. -/
def jumpTarget? (target : UInt64) (emission : Emission) : Option Ir.Label :=
  match emission.tier with
  | .tier0 => none
  | .tier1 => emission.blockLabel? target

def leave (target : UInt64) (emission : Emission) : Emission :=
  let (next, emission) := emission.constant target
  emission.ret next

/-- Goes on at an address: by a jump if its block is here, by leaving otherwise. -/
def branch (target : UInt64) (emission : Emission) : Emission :=
  match emission.jumpTarget? target with
  | some label => emission.emit (.jump label)
  | none => emission.leave target

/-- Goes on at an address when a local is not zero, and falls through otherwise. -/
def branchIf (cond : Ir.Local) (target : UInt64) (emission : Emission) : Emission :=
  match emission.jumpTarget? target with
  | some label => emission.emit (.branchIf cond label)
  | none =>
    let (nought, emission) := emission.constant 0
    let (untaken, emission) := emission.temp .i64
    let emission := emission.emit (.compare .eq untaken cond nought)
    let (skip, emission) := emission.label
    let emission := (emission.emit (.branchIf untaken skip)).leave target
    emission.emit (.place skip)

/-- Calls a target in place: all registers are stored, the target runs, all are loaded again, and the code goes
on behind the call if the target came back there. -/
def callInPlace (target back : UInt64) (emission : Emission) : Emission :=
  let emission := { emission with linked := emission.linked.insert target }
  let (next, emission) := emission.temp .i64
  let emission := ((emission.emit .spill).emit (.call next target)).emit .reload
  let (expected, emission) := emission.constant back
  let (returned, emission) := emission.temp .i64
  let emission := emission.emit (.compare .eq returned next expected)
  let (resume, emission) := emission.label
  let emission := (emission.emit (.branchIf returned resume)).ret next
  (emission.emit (.place resume)).branch back

/-- Calls a target that is to return to `back`, an address the link register holds already. Only tier-1 code
calls in place. -/
def call (target back : UInt64) (emission : Emission) : Emission :=
  let emission := { emission with callees := emission.callees.insert target }
  if emission.tier = .tier1 ∧ emission.linkable target then emission.callInPlace target back
  else emission.branch target

def retToLink (emission : Emission) : Emission :=
  let (next, emission) := emission.register .link
  emission.ret next

def beginSpan (instruction : Guest.Instruction) (emission : Emission) : Emission :=
  { emission with opened := some ⟨instruction.form.key, instruction.address, emission.ops.size⟩ }

/-- Ends the span begun last, if it has not ended. -/
def endSpan (emission : Emission) : Emission :=
  match emission.opened with
  | none => emission
  | some ⟨key, address, start⟩ =>
    { emission with
      spans := emission.spans.push ⟨key, address, start, emission.ops.size⟩
      opened := none }

/-- Expands the placeholders and carries the spans over to the expanded operations. -/
def finish (emission : Emission) : Emitted :=
  let ops := emission.ops.toList
  let positions := (Ir.Expansion.positions emission.bindings 0 ops).toArray
  { function :=
      { name := emission.name
        params := emission.params
        argWords := emission.argWords
        locals := emission.locals
        labels := emission.labels
        ops := (Ir.Expansion.expand emission.bindings ops).toArray }
    spans := emission.spans.toList.map fun span =>
      { span with start := positions.getD span.start 0, stop := positions.getD span.stop 0 }
    callees := emission.callees.toList
    linked := emission.linked.toList }

@[simp] theorem isTerminated_emit (op : Ir.Op) (emission : Emission) :
    (emission.emit op).isTerminated = op.isTerminator := by
  simp [emit, isTerminated]

theorem isTerminated_branch (target : UInt64) (emission : Emission) :
    (emission.branch target).isTerminated = true := by
  unfold branch
  split <;> simp [leave, ret, Ir.Op.isTerminator]

end Emission
end Dynarec
