import Dynarec.Cache

/-!
One step of the intermediate code. A step carries out one operation; the operation decides whether the code
goes on and where. Linked calls are made by a function that the step is given.
-/
namespace Dynarec

/-- What code runs in: the registers, what lies outside them, and how many linked calls it is nested in. -/
structure Context where
  regs : RegisterFile := {}
  world : World := {}
  depth : Nat := 0
  deriving Inhabited

namespace Context

def note (context : Context) (event : Event) : Context := { context with world := context.world.note event }

def write (context : Context) (register : Register) (bits : Wide) : Context :=
  { context with regs := context.regs.write register bits }

def load (context : Context) (address : UInt64) (size : Nat) : Outcome (Nat × Context) :=
  match context with
  | ⟨regs, world, depth⟩ =>
    match world.readNat address size with
    | (.ok word, world) => .ok (word, ⟨regs, world, depth⟩)
    | (.error .overflow, _) => .error .overflow

def store (context : Context) (address : UInt64) (size n : Nat) : Context :=
  match context with
  | ⟨regs, world, depth⟩ => ⟨regs, world.writeNat address size n, depth⟩

def compareAndSwap (context : Context) (address : UInt64) (expected desired : UInt32) : Bool × Context :=
  match context with
  | ⟨regs, world, depth⟩ =>
    let (swapped, world) := world.compareAndSwap address expected desired
    (swapped, ⟨regs, world, depth⟩)

end Context

/-- Where a function stands, and its locals. -/
structure Frame where
  position : Nat := 0
  locals : Array Wide := #[]
  deriving Inhabited

namespace Frame

def start (function : Ir.Function) : Frame := ⟨0, Array.replicate function.locals.size 0⟩

def get (frame : Frame) (slot : Ir.Local) : Outcome Wide :=
  match frame.locals[slot]? with
  | some wide => .ok wide
  | none => .error .badIndex

def word (frame : Frame) (slot : Ir.Local) : Outcome UInt64 := (frame.get slot).map Wide.low

def set (frame : Frame) (slot : Ir.Local) (wide : Wide) : Outcome Frame :=
  if slot < frame.locals.size then .ok { frame with locals := frame.locals.setIfInBounds slot wide }
  else .error .badIndex

def goto (frame : Frame) (function : Ir.Function) (label : Ir.Label) : Outcome Frame :=
  match function.placement? label with
  | some position => .ok { frame with position }
  | none => .error .badIndex

end Frame

/-- After a step the code goes on or has come to its next address. -/
inductive Step
  | next (frame : Frame) (context : Context)
  | done (next : UInt64) (context : Context)
  deriving Inhabited

namespace Interpreter

/-- The argument words a local of its kind takes from `slot` on; a word that was not given is zero. Slots are
numbered with 32 bits. -/
def argument (function : Ir.Function) (args : List UInt64) (dst : Ir.Local) (slot : Nat) : Outcome Wide :=
  match function.locals[dst]? with
  | none => .error .badIndex
  | some .i64 => .ok (.ofWord (args.getD slot 0))
  | some .v128 =>
    if slot + 1 < 0x100000000 then .ok (.pack (args.getD slot 0) (args.getD (slot + 1) 0)) else .error .overflow

def assign (frame : Frame) (context : Context) (dst : Ir.Local) (wide : Wide) : Outcome Step := do
  return .next (← frame.set dst wide) context

/-- Carries out an operation in a frame that already stands behind it. -/
def perform (call : UInt64 → Context → Outcome (UInt64 × Context)) (function : Ir.Function)
    (args : List UInt64) (frame : Frame) (context : Context) : Ir.Op → Outcome Step
  | .loadArg dst slot => do assign frame context dst (← argument function args dst slot)
  | .const dst value => assign frame context dst (.ofWord value)
  | .move dst src => do assign frame context dst (← frame.get src)
  | .unary op dst src => do assign frame context dst (.ofWord (op.apply (← frame.word src)))
  | .binary op dst lhs rhs => do
    assign frame context dst (.ofWord (op.apply (← frame.word lhs) (← frame.word rhs)))
  | .binaryImm op dst lhs imm => do
    assign frame context dst (.ofWord (op.apply (← frame.word lhs) imm))
  | .compare cond dst lhs rhs => do
    assign frame context dst (if cond.holds (← frame.word lhs) (← frame.word rhs) then 1 else 0)
  | .select dst cond ifTrue ifFalse => do
    let picked := if (← frame.word cond) ≠ 0 then ifTrue else ifFalse
    assign frame context dst (.ofWord (← frame.word picked))
  | .vector op dst lhs rhs => do assign frame context dst (op.apply (← frame.get lhs) (← frame.get rhs))
  | .vectorPack dst low high => do
    assign frame context dst (.pack (← frame.word low) (← frame.word high))
  | .vectorExtract dst src high => do
    let wide ← frame.get src
    assign frame context dst (.ofWord (if high then wide.high else wide.low))
  | .loadRegister dst register => assign frame context dst (context.regs.read register)
  | .storeRegister register src => do return .next frame (context.write register (← frame.get src))
  | .load width dst address => do
    let (word, context) ← context.load (← frame.word address) width.bytes
    assign frame context dst (BitVec.ofNat 128 word)
  | .store width address src => do
    let address ← frame.word address
    let word ← frame.word src
    return .next frame (context.store address width.bytes word.toNat)
  | .loadVector dst address => do
    let (bits, context) ← context.load (← frame.word address) 16
    assign frame context dst (BitVec.ofNat 128 bits)
  | .storeVector address src => do
    let address ← frame.word address
    let wide ← frame.get src
    return .next frame (context.store address 16 wide.toNat)
  | .cas32 dst address expected desired => do
    let address ← frame.word address
    let expected ← frame.word expected
    let desired ← frame.word desired
    let (swapped, context) := context.compareAndSwap address expected.toUInt32 desired.toUInt32
    assign frame context dst (if swapped then 1 else 0)
  | .place _ | .preload | .spill | .reload => .ok (.next frame context)
  | .jump label => do return .next (← frame.goto function label) context
  | .branchIf cond label => do
    if (← frame.word cond) ≠ 0 then return .next (← frame.goto function label) context
    else return .next frame context
  | .call dst target => do
    let (next, context) ← call target context
    assign frame context dst (.ofWord next)
  | .ret next => do return .done (← frame.word next) context

/-- Carries out the operation the frame stands at. Code that runs off its end comes to address 0. -/
def step (call : UInt64 → Context → Outcome (UInt64 × Context)) (function : Ir.Function)
    (args : List UInt64) (frame : Frame) (context : Context) : Outcome Step :=
  match function.ops[frame.position]? with
  | none => .ok (.done 0 context)
  | some op => perform call function args { frame with position := frame.position + 1 } context op

theorem get_set_same {frame after : Frame} {slot : Ir.Local} {wide : Wide}
    (ok : frame.set slot wide = .ok after) : after.get slot = .ok wide := by
  unfold Frame.set at ok
  split at ok
  · next bound =>
    cases ok
    simp [Frame.get, bound]
  · cases ok

theorem get_set_other {frame after : Frame} {written read : Ir.Local} {wide : Wide}
    (ok : frame.set written wide = .ok after) (other : written ≠ read) :
    after.get read = frame.get read := by
  unfold Frame.set at ok
  split at ok
  · cases ok
    simp [Frame.get, other]
  · cases ok

end Interpreter
end Dynarec
