import Dynarec.Alu
import Dynarec.Register
import Dynarec.Text.Render

/-!
Operations of the intermediate code. They work on numbered locals of a function; guest registers are moved
between locals and the register file by operations of their own. Three placeholders stand for the register
traffic that is known only when the whole body has been emitted.
-/
namespace Dynarec.Ir

abbrev Local := Nat

abbrev Label := Nat

inductive LocalKind
  | i64 | v128
  deriving DecidableEq, Repr, Inhabited

def LocalKind.of (register : Register) : LocalKind :=
  match register.cls with
  | .vector => .v128
  | _ => .i64

/-- Argument words that carry a value of the kind. -/
def LocalKind.words : LocalKind → Nat
  | .i64 => 1
  | .v128 => 2

def LocalKind.letter : LocalKind → Char
  | .i64 => 'i'
  | .v128 => 'v'

inductive Width
  | w8 | w16 | w32 | w64
  deriving DecidableEq, Repr, Inhabited

def Width.bytes : Width → Nat
  | .w8 => 1 | .w16 => 2 | .w32 => 4 | .w64 => 8

def Width.all : List Width := [.w8, .w16, .w32, .w64]

inductive Op
  /-- Takes the argument words from `slot` on. -/
  | loadArg (dst : Local) (slot : Nat)
  | const (dst : Local) (value : UInt64)
  | move (dst src : Local)
  | unary (op : UnaryOp) (dst src : Local)
  | binary (op : BinaryOp) (dst lhs rhs : Local)
  | binaryImm (op : BinaryOp) (dst lhs : Local) (imm : UInt64)
  /-- Yields 1 or 0. -/
  | compare (cond : Cond) (dst lhs rhs : Local)
  | select (dst cond ifTrue ifFalse : Local)
  | vector (op : VectorOp) (dst lhs rhs : Local)
  | vectorPack (dst low high : Local)
  | vectorExtract (dst src : Local) (high : Bool)
  | loadRegister (dst : Local) (register : Register)
  | storeRegister (register : Register) (src : Local)
  /-- Widens with zeros. -/
  | load (width : Width) (dst address : Local)
  /-- Stores the low bits. -/
  | store (width : Width) (address src : Local)
  | loadVector (dst address : Local)
  | storeVector (address src : Local)
  /-- Yields 1 when the word was swapped, else 0. -/
  | cas32 (dst address expected desired : Local)
  | place (label : Label)
  | jump (label : Label)
  /-- Branches when the local's low word is not zero. -/
  | branchIf (cond : Local) (label : Label)
  /-- Runs the cached subroutine of an address and takes its next address. -/
  | call (dst : Local) (target : UInt64)
  | ret (next : Local)
  /-- Stands for loads of the registers that are not parameters. -/
  | preload
  /-- Stands for stores of all registers. -/
  | spill
  /-- Stands for loads of all registers. -/
  | reload
  deriving DecidableEq, Repr, Inhabited

namespace Op

/-- Whether control never falls through. -/
def isTerminator : Op → Bool
  | .jump _ | .ret _ => true
  | _ => false

def isPlaceholder : Op → Bool
  | .preload | .spill | .reload => true
  | _ => false

/-- The locals an operation names, in the order it names them. -/
def locals : Op → List Local
  | .loadArg dst _ | .const dst _ | .loadRegister dst _ | .call dst _ => [dst]
  | .move dst src | .unary _ dst src | .vectorExtract dst src _ => [dst, src]
  | .binary _ dst lhs rhs | .compare _ dst lhs rhs | .vector _ dst lhs rhs => [dst, lhs, rhs]
  | .binaryImm _ dst lhs _ => [dst, lhs]
  | .select dst cond ifTrue ifFalse => [dst, cond, ifTrue, ifFalse]
  | .vectorPack dst low high => [dst, low, high]
  | .storeRegister _ src => [src]
  | .load _ dst address | .loadVector dst address => [dst, address]
  | .store _ address src | .storeVector address src => [address, src]
  | .cas32 dst address expected desired => [dst, address, expected, desired]
  | .branchIf cond _ => [cond]
  | .ret next => [next]
  | .place _ | .jump _ | .preload | .spill | .reload => []

def target? : Op → Option Label
  | .jump label | .branchIf _ label => some label
  | _ => none

def placed? : Op → Option Label
  | .place label => some label
  | _ => none

def render : Op → String
  | .loadArg dst slot => s!"l{dst} = arg[{slot}]"
  | .const dst value => s!"l{dst} = {Text.hex value.toNat}"
  | .move dst src => s!"l{dst} = l{src}"
  | .unary op dst src => s!"l{dst} = {op.name} l{src}"
  | .binary op dst lhs rhs => s!"l{dst} = {op.name} l{lhs}, l{rhs}"
  | .binaryImm op dst lhs imm => s!"l{dst} = {op.name} l{lhs}, {Text.hex imm.toNat}"
  | .compare cond dst lhs rhs => s!"l{dst} = cmp.{cond.name} l{lhs}, l{rhs}"
  | .select dst cond ifTrue ifFalse => s!"l{dst} = select l{cond}, l{ifTrue}, l{ifFalse}"
  | .vector op dst lhs rhs => s!"l{dst} = v{op.name} l{lhs}, l{rhs}"
  | .vectorPack dst low high => s!"l{dst} = vpack l{low}, l{high}"
  | .vectorExtract dst src true => s!"l{dst} = vextract.hi l{src}"
  | .vectorExtract dst src false => s!"l{dst} = vextract.lo l{src}"
  | .loadRegister dst register => s!"l{dst} = {register.render}"
  | .storeRegister register src => s!"{register.render} = l{src}"
  | .load width dst address => s!"l{dst} = load{width.bytes * 8} [l{address}]"
  | .store width address src => s!"store{width.bytes * 8} [l{address}], l{src}"
  | .loadVector dst address => s!"l{dst} = load128 [l{address}]"
  | .storeVector address src => s!"store128 [l{address}], l{src}"
  | .cas32 dst address expected desired => s!"l{dst} = cas32 [l{address}], l{expected}, l{desired}"
  | .place label => s!"L{label}:"
  | .jump label => s!"jump L{label}"
  | .branchIf cond label => s!"brif l{cond}, L{label}"
  | .call dst target => s!"l{dst} = call {Text.hex target.toNat}"
  | .ret next => s!"return l{next}"
  | .preload => "<preload>"
  | .spill => "<spill>"
  | .reload => "<reload>"

end Op
end Dynarec.Ir
