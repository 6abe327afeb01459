import Dynarec.Calling.Host
import Dynarec.Guest.Program

/-!
The guest machine by itself, one instruction at a time: what an instruction does to the registers and to memory,
and where control goes after it. Nothing here knows of blocks, tiers or emitted code.
-/
namespace Dynarec.Semantics

/-- The guest about to run what is at an address. -/
structure State where
  address : UInt64
  regs : RegisterFile := {}
  world : World := {}
  deriving Inhabited

/-- What there is to run: guest instructions, and host functions with the places of their arguments. -/
structure Code where
  program : Guest.Program := {}
  host : UInt64 → Option (Calling.Layout × Calling.HostFunction) := fun _ => none
  deriving Inhabited

namespace State

def word (state : State) (register : Register) : UInt64 := (state.regs.read register).low

def set (state : State) (register : Register) (bits : Wide) : State :=
  { state with regs := state.regs.write register bits }

def setWord (state : State) (register : Register) (word : UInt64) : State := state.set register (.ofWord word)

/-- Zero or one. -/
def setTruth (state : State) (register : Register) (truth : Bool) : State :=
  state.set register (if truth then 1 else 0)

end State

/-- What an instruction does before control moves on. A load past the top of the address space has no outcome. -/
def effect? (instruction : Guest.Instruction) (state : State) : Option State :=
  let x := instruction.x
  let v := instruction.v
  match instruction.form with
  | .movz => some (state.setWord (x 0) (instruction.operand 1))
  | .add => some (state.setWord (x 0) (state.word (x 1) + state.word (x 2)))
  | .addImm => some (state.setWord (x 0) (state.word (x 1) + instruction.operand 2))
  | .sub => some (state.setWord (x 0) (state.word (x 1) - state.word (x 2)))
  | .subImm => some (state.setWord (x 0) (state.word (x 1) - instruction.operand 2))
  | .cmpImm => some (state.setTruth .zero (state.word (x 0) == instruction.operand 1))
  | .bl => some (state.setWord .link instruction.next)
  | .ldr =>
    match state.world.readNat (state.word (x 1)) 8 with
    | (.ok word, world) => some ({ state with world }.setWord (x 0) (UInt64.ofNat word))
    | (.error _, _) => none
  | .str => some { state with world := state.world.writeNat (state.word (x 1)) 8 (state.word (x 0)).toNat }
  | .cas =>
    let (swapped, world) := state.world.compareAndSwap (state.word (x 1))
      (state.word (x 2)).toUInt32 (state.word (x 3)).toUInt32
    some ({ state with world }.setTruth (x 0) swapped)
  | .insPair => some (state.set (v 0) (.pack (state.word (x 1)) (state.word (x 2))))
  | .eorV => some (state.set (v 0) (state.regs.read (v 1) ^^^ state.regs.read (v 2)))
  | .umovLo => some (state.setWord (x 0) (state.word (v 1)))
  | .b | .bEq | .cbnz | .ret | .nop | .bloat => some state

/-- Where control goes after an instruction, whose effect has been had. A direct transfer to no target goes
nowhere. -/
def successor? (instruction : Guest.Instruction) (state : State) : Option UInt64 :=
  match instruction.form with
  | .b | .bl => instruction.target
  | .bEq => if state.word .zero ≠ 0 then instruction.target else some instruction.next
  | .cbnz => if state.word (instruction.x 0) ≠ 0 then instruction.target else some instruction.next
  | .ret => some (state.word .link)
  | _ => some instruction.next

def execute? (instruction : Guest.Instruction) (state : State) : Option State := do
  let state ← effect? instruction state
  return { state with address := ← successor? instruction state }

/-- Runs the host function or the instruction at the state's address. -/
def step? (code : Code) (state : State) : Option State :=
  match code.host state.address with
  | some (layout, function) =>
    match function.enter layout state.regs state.world with
    | .ok (address, regs, world) => some ⟨address, regs, world⟩
    | .error _ => none
  | none => (code.program.at? state.address).bind (execute? · state)

inductive Ending
  /-- Control came to address 0. -/
  | halted (state : State)
  /-- There was nothing to run, or it had no outcome. -/
  | stuck (state : State)

/-- Runs up to `fuel` steps; none when that is not enough to come to an end. -/
def run (code : Code) : Nat → State → Option Ending
  | 0, _ => none
  | fuel + 1, state =>
    match step? code state with
    | none => some (.stuck state)
    | some next => if next.address = 0 then some (.halted next) else run code fuel next

/-- More fuel keeps an ending. -/
theorem run_add {code : Code} {fuel : Nat} {state : State} {ending : Ending}
    (ended : run code fuel state = some ending) (more : Nat) :
    run code (fuel + more) state = some ending := by
  induction fuel generalizing state with
  | zero => simp [run] at ended
  | succ fuel ih =>
    rw [Nat.succ_add_eq_add_succ, Nat.add_succ, run]
    rw [run] at ended
    cases moved : step? code state with
    | none => simpa [moved] using ended
    | some next =>
      simp only [moved] at ended ⊢
      split
      · simpa [*] using ended
      · exact ih (by simpa [*] using ended)

end Dynarec.Semantics
