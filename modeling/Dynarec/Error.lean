import Dynarec.Register.LiveIn
import Dynarec.Text.Render

/-!
Why a subroutine could not be translated.
-/
namespace Dynarec

inductive TranslationError
  | decode (address : UInt64) (reason : String)
  | invalidIr (function reason : String)
  | unsupportedRegister (cause : UnsupportedRegister)
  /-- The code generator was asked for an unknown optimisation level. -/
  | builder (reason : String)
  deriving DecidableEq, Repr

namespace TranslationError

def kind : TranslationError → String
  | .decode .. => "Decode"
  | .invalidIr .. => "InvalidIr"
  | .unsupportedRegister .. => "UnsupportedRegister"
  | .builder .. => "Builder"

def message : TranslationError → String
  | .decode address reason => s!"decode failed at {Text.hex address.toNat}: {reason}"
  | .invalidIr function reason => s!"invalid IR in {function}: {reason}"
  | .unsupportedRegister cause => cause.message
  | .builder reason => s!"jit builder initialization failed: {reason}"

end TranslationError
end Dynarec
