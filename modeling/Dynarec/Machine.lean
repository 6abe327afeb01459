import Dynarec.Interpreter

/-!
A cache together with the world its code runs in. Publishing leaves its mark in the world's log, and running a
subroutine on a register file leaves the registers and the world as the code does.
-/
namespace Dynarec

structure Machine where
  cache : Cache := {}
  world : World := {}
  deriving Inhabited

namespace Machine

def note (machine : Machine) (event : Event) : Machine := { machine with world := machine.world.note event }

/-- Takes a subroutine in, not yet published. -/
def add (machine : Machine) (subroutine : Subroutine) : Handle × Machine :=
  let (handle, cache) := machine.cache.add subroutine
  (handle, { machine with cache })

/-- Publishes a subroutine in place of what was there, and yields the handle of that. -/
def publish (machine : Machine) (address : UInt64) (handle : Handle) (sizeHint : UInt64) :
    Option Handle × Machine :=
  let (replaced, cache) := machine.cache.publish address handle sizeHint
  (replaced, { machine with cache }.note (.published address sizeHint replaced.isSome))

/-- Publishes tier-0 code unless tier-1 code is there, and yields the handle of what is there afterwards. -/
def publishTier0 (machine : Machine) (address : UInt64) (handle : Handle) (sizeHint : UInt64) :
    Handle × Machine :=
  match machine.cache.publishTier0 address handle sizeHint with
  | (.error resident, cache) => (resident, { machine with cache }.note (.kept address))
  | (.ok replaced, cache) =>
    (handle, { machine with cache }.note (.published address sizeHint replaced.isSome))

def addAt (machine : Machine) (address : UInt64) (subroutine : Subroutine) (sizeHint : UInt64) : Machine :=
  let (handle, machine) := machine.add subroutine
  (machine.publish address handle sizeHint).2

/-- Runs code of its own on the registers of a thread. -/
def run (machine : Machine) (fuel : Nat) (subroutine : Subroutine) (regs : RegisterFile) :
    Outcome (UInt64 × RegisterFile × Machine) :=
  match machine with
  | ⟨cache, world⟩ => do
    let (next, context) ← Interpreter.invoke cache fuel subroutine { regs, world }
    return (next, context.regs, ⟨cache, context.world⟩)

/-- A linked call from outside any code; yields the depth it leaves too. -/
def call (machine : Machine) (fuel : Nat) (target : UInt64) (regs : RegisterFile) :
    Outcome (UInt64 × Nat × RegisterFile × Machine) :=
  match machine with
  | ⟨cache, world⟩ => do
    let (next, context) ← Interpreter.call cache fuel target { regs, world }
    return (next, context.depth, context.regs, ⟨cache, context.world⟩)

theorem cache_run {machine after : Machine} {fuel : Nat} {subroutine : Subroutine} {regs left : RegisterFile}
    {next : UInt64} (ok : machine.run fuel subroutine regs = .ok (next, left, after)) :
    after.cache = machine.cache := by
  obtain ⟨cache, world⟩ := machine
  simp only [run] at ok
  cases ran : Interpreter.invoke cache fuel subroutine { regs, world } with
  | error halt => simp [ran, bind, Except.bind] at ok
  | ok found =>
    simp only [ran, bind, Except.bind, pure, Except.pure, Except.ok.injEq, Prod.mk.injEq] at ok
    rw [← ok.2.2]

end Machine
end Dynarec
