import Dynarec.Memory
import Dynarec.Register.File

/-!
Ways for running code to stop without a result.
-/
namespace Dynarec

inductive Halt
  /-- The bound on its steps was too small. -/
  | outOfFuel
  /-- A checked sum passed its range. -/
  | overflow
  /-- An operation names a local or label that the function does not have. -/
  | badIndex
  /-- Code asked for a register that does not exist. -/
  | badRegister (cause : BadIndex)
  deriving DecidableEq, Repr, Inhabited

def Halt.message : Halt → String
  | .outOfFuel => "step bound reached"
  | .overflow => Overflow.overflow.message
  | .badIndex => "index out of bounds"
  | .badRegister cause => cause.message

abbrev Outcome (α : Type) := Except Halt α

/-- An address overflow stops the code. -/
def Outcome.ofAccess {α : Type} : Except Overflow α → Outcome α
  | .ok value => .ok value
  | .error .overflow => .error .overflow

/-- A register that does not exist stops the code. -/
def Outcome.ofRegister {α : Type} (result : Except BadIndex α) : Outcome α := result.mapError .badRegister

end Dynarec
