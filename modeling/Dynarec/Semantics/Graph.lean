import Dynarec.Guest.Block
import Dynarec.Interpreter.Step
import Dynarec.Semantics.Guest

/-!
A graph of blocks run by itself. A block runs to its end; then control goes on at the next address if that has a
block, but a return leaves for good, and a linked call runs its target first and leaves unless the target comes
back behind the call. In tier 0 no second block is run.
-/
namespace Dynarec.Semantics

/-- The instructions one after the other. -/
def executeAll? (instructions : List Guest.Instruction) (state : State) : Option State :=
  instructions.foldlM (fun state instruction => execute? instruction state) state

/-- How a block is left: to go on at an address, or for good. -/
inductive Exit
  | onward (next : UInt64)
  | away (next : UInt64)
  deriving DecidableEq, Repr, Inhabited

/-- How control leaves behind an instruction that goes to `next`, where `call` makes linked calls. -/
def depart (links : UInt64 → Bool) (call : UInt64 → Context → Outcome (UInt64 × Context))
    (last : Guest.Instruction) (next : UInt64) (context : Context) : Outcome (Exit × Context) :=
  match last.form with
  | .ret => .ok (.away next, context)
  | .bl =>
    if links next then do
      let (back, context) ← call next context
      return (if back = last.next then .onward back else .away back, context)
    else .ok (.onward next, context)
  | _ => .ok (.onward next, context)

def runBlock (links : UInt64 → Bool) (call : UInt64 → Context → Outcome (UInt64 × Context))
    (block : Guest.Block) (context : Context) : Outcome (Exit × Context) :=
  match executeAll? block.instructions ⟨block.address, context.regs, context.world⟩ with
  | none => .error .overflow
  | some state =>
    let context := { context with regs := state.regs, world := state.world }
    match block.instructions.getLast? with
    | some last => depart links call last state.address context
    | none => .ok (.onward state.address, context)

/-- Goes on where a block has left to, unless tier 0 is done with its one block. -/
def follow (tier : Tier) (run : UInt64 → Context → Outcome (UInt64 × Context)) :
    Exit × Context → Outcome (UInt64 × Context)
  | (.away next, context) => .ok (next, context)
  | (.onward next, context) => if tier = .tier0 then .ok (next, context) else run next context

/-- Runs up to `fuel` blocks from an address on. -/
def runGraph (graph : Guest.Graph) (tier : Tier) (links : UInt64 → Bool)
    (call : UInt64 → Context → Outcome (UInt64 × Context)) :
    Nat → UInt64 → Context → Outcome (UInt64 × Context)
  | 0, _, _ => .error .outOfFuel
  | fuel + 1, address, context =>
    match graph.blocks.find? (·.address == address) with
    | none => .ok (address, context)
    | some block => do follow tier (runGraph graph tier links call fuel) (← runBlock links call block context)

end Dynarec.Semantics
