import Dynarec.Engine.Translation

/-!
The dispatch loop. Each dispatch tells the subscribers of an address, finds its code and runs it; the address
the code comes to is dispatched next, until it is 0 or the thread has been stopped. The first subroutine runs
even on a stopped thread.
-/
namespace Dynarec

/-- Work of a session that may fail; what was done by then stays done. -/
abbrev Run := ExceptT Failure (StateM Session)

def Run.ofWork {α : Type} (work : Work α) : Run α :=
  ExceptT.mk fun
    | ⟨engine, cpu⟩ =>
      let (result, engine) := work.run engine
      (result, ⟨engine, cpu⟩)

namespace Engine

/-- Tells the subscribers of an address, when tracing is on. -/
def notify (address : UInt64) : Work Unit := do
  let engine ← get
  if engine.config.trace then
    let (verdict, subscribers) := Subscriber.tell address engine.subscribers
    let engine := { engine with subscribers }
    set (if verdict.cancelled then engine.setRunning false else engine)
    match verdict.failure with
    | some reason => throw (.error (.trace address reason))
    | none => pure ()

def recordRun (address next : UInt64) (tier : Tier) (times : Profile.SubroutineTimes) (engine : Engine) :
    Engine :=
  let observation := { times with execution := some 0 }
  let engine := { engine with
    stats := { engine.stats with executions := engine.stats.executions + 1 }
    tables := engine.tables.map fun (tables : Profile.Tables) => tables.trackSubroutine address observation }
  engine.note (.executed address next tier)

end Engine

namespace Session

def run (fuel : Nat) (subroutine : Subroutine) : Run UInt64 :=
  ExceptT.mk fun
    | ⟨engine, cpu⟩ =>
      match engine.machine.run fuel subroutine cpu.regs with
      | .error halt => (.error (.halt halt), ⟨engine, cpu⟩)
      | .ok (next, regs, machine) => (.ok next, ⟨{ engine with machine }, { cpu with regs }⟩)

def dispatch (disturb : UInt64 → Engine → Engine) (fuel : Nat) (address : UInt64) : Run UInt64 := do
  .ofWork (Engine.notify address)
  let mode := (← get).cpu.mode
  let (subroutine, times) ← .ofWork (Engine.resolve disturb mode address)
  let next ← run fuel subroutine
  modify fun
    | ⟨engine, cpu⟩ => ⟨engine.recordRun address next subroutine.tier times, cpu⟩
  return next

/-- The dispatch loop. It goes on while `poll` says so; `disturb` takes place before a block is decoded. -/
def loop (disturb : UInt64 → Engine → Engine) (poll : Engine → Bool) : Nat → UInt64 → Run UInt64
  | 0, _ => throw (.halt .outOfFuel)
  | fuel + 1, address => do
    let next ← dispatch disturb fuel address
    if next = 0 ∨ !poll (← get).engine then return next
    else loop disturb poll fuel next

/-- What the runs of other threads do to an engine. Each has a new thread of its own, which nobody stops, and
its outcome is its own. -/
def rivals (fuel : Nat) (address : UInt64) (engine : Engine) : Engine :=
  match engine.rivals with
  | none => engine
  | some plan =>
    if plan.address = address then
      let run (engine : Engine) : Engine :=
        ((loop (fun _ engine => engine) (fun _ => true) fuel address).run ⟨engine, {}⟩).2.engine
      plan.runs.repeat run { engine with rivals := none }
    else engine

/-- Runs guest code from an address until it hands control back or is stopped; yields the address it would go
on at, 0 when it handed control back. -/
def execute (fuel : Nat) (address : UInt64) : Run UInt64 := loop (rivals fuel) Engine.isRunning fuel address

end Session
end Dynarec
