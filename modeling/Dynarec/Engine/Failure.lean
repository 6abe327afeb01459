import Dynarec.Calling.Layout
import Dynarec.Error
import Dynarec.Halt

/-!
Why a guest call or a run of guest code ended early. Errors are part of an engine's answers; a halt is not, it
says that the code went beyond what the engine follows.
-/
namespace Dynarec

inductive ExecError
  | translate (address : UInt64) (cause : TranslationError)
  | trace (address : UInt64) (reason : String)
  | arguments (cause : Calling.TooManyArguments)
  deriving DecidableEq, Repr

namespace ExecError

def kind : ExecError → String
  | .translate .. => "Translate"
  | .trace .. => "Trace"
  | .arguments _ => "TooManyArguments"

def message : ExecError → String
  | .translate address cause => s!"translation of {Text.hex address.toNat} failed: {cause.message}"
  | .trace address reason => s!"trace subscriber failed at {Text.hex address.toNat}: {reason}"
  | .arguments cause => cause.message

end ExecError

inductive Failure
  | error (error : ExecError)
  | halt (halt : Halt)
  deriving DecidableEq, Repr

end Dynarec
