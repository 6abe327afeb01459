import Dynarec.Interpreter.Step

/-!
Running subroutines. A linked call runs the callee in the caller's context, up to a limit of nested calls;
past it, and where the cache has no code, the call yields its target at once, so that the dispatcher goes on
from there. Code may loop, so each run has a bound on its steps.
-/
namespace Dynarec

/-- Code about to run or underway. -/
inductive Activation
  | compiled (function : Ir.Function) (args : List UInt64) (frame : Frame)
  | thunk (layout : Calling.Layout) (function : Calling.HostFunction)
  | probe (probe : Probe) (args : List UInt64)
  deriving Inhabited

/-- Code before its first step, with its arguments taken from the registers. -/
def Subroutine.activate (subroutine : Subroutine) (regs : RegisterFile) : Activation :=
  match subroutine.code with
  | .compiled function => .compiled function (subroutine.arguments regs) (.start function)
  | .thunk layout function => .thunk layout function
  | .probe probe => .probe probe (subroutine.arguments regs)

namespace Interpreter

/-- Linked calls may nest this deep. -/
def maxLinkDepth : Nat := 64

/-- A linked call to an address, where `run` runs code. -/
def link (cache : Cache) (run : Activation → Context → Outcome (UInt64 × Context)) (target : UInt64)
    (context : Context) : Outcome (UInt64 × Context) :=
  if maxLinkDepth ≤ context.depth then
    .ok (target, context.note (.linkDepth target context.depth))
  else
    match cache.get? target with
    | none => .ok (target, context)
    | some subroutine => do
      let (next, context) ← run (subroutine.activate context.regs) { context with depth := context.depth + 1 }
      return (next, { context with depth := context.depth - 1 })

/-- What a probe answers, where `call` makes linked calls. -/
def answer (cache : Cache) (call : UInt64 → Context → Outcome (UInt64 × Context)) (args : List UInt64)
    (context : Context) : Probe → Outcome (UInt64 × Context)
  | .const value => .ok (value, context)
  | .call target => call target context
  | .arg index => .ok (args.getD index 0xdead, context)
  | .args => .ok (UInt64.ofNat args.length, context)
  | .depth => .ok (UInt64.ofNat context.depth, context)
  | .known address => .ok (if cache.contains address then 1 else 0, context)
  | .load address => do
    let (word, context) ← context.load address 8
    return (UInt64.ofNat word, context)
  | .increment index => do
    let sum := (← Outcome.ofRegister (context.regs.wordAt index)) + 1
    let regs ← Outcome.ofRegister (context.regs.setWordAt index sum)
    return (sum, { context with regs })

/-- Runs an activation to its end: the next address and the context it leaves. -/
def exec (cache : Cache) : Nat → Activation → Context → Outcome (UInt64 × Context)
  | 0, _, _ => .error .outOfFuel
  | fuel + 1, .compiled function args frame, context =>
    match step (link cache (exec cache fuel)) function args frame context with
    | .ok (.next frame context) => exec cache fuel (.compiled function args frame) context
    | .ok (.done next context) => .ok (next, context)
    | .error halt => .error halt
  | _ + 1, .thunk layout function, context => do
    let (next, regs, world) ← function.enter layout context.regs context.world
    return (next, { context with regs, world })
  | fuel + 1, .probe probe args, context => answer cache (link cache (exec cache fuel)) args context probe

def invoke (cache : Cache) (fuel : Nat) (subroutine : Subroutine) (context : Context) :
    Outcome (UInt64 × Context) :=
  exec cache fuel (subroutine.activate context.regs) context

def call (cache : Cache) (fuel : Nat) (target : UInt64) (context : Context) : Outcome (UInt64 × Context) :=
  link cache (exec cache fuel) target context

theorem link_at_limit (cache : Cache) (run : Activation → Context → Outcome (UInt64 × Context))
    (target : UInt64) {context : Context} (deep : maxLinkDepth ≤ context.depth) :
    link cache run target context = .ok (target, context.note (.linkDepth target context.depth)) := by
  simp [link, deep]

theorem link_unknown {cache : Cache} (run : Activation → Context → Outcome (UInt64 × Context))
    {target : UInt64} {context : Context} (shallow : context.depth < maxLinkDepth)
    (unknown : cache.get? target = none) :
    link cache run target context = .ok (target, context) := by
  simp [link, Nat.not_le.2 shallow, unknown]

end Interpreter
end Dynarec
