import Dynarec.Event
import Dynarec.Text.Character
import Dynarec.Text.Numeral

/-!
Overrides of a configuration by named variables. Values are read without the blanks around them and without
regard to the case of ASCII letters; a value that cannot be used leaves its setting alone, and only an unknown
backend is reported.
-/
namespace Dynarec.Config

/-- A positive number of 32 bits; one plus sign may stand before the digits. -/
def positive? (text : List Char) : Option Nat :=
  let digits := match text with
    | '+' :: rest => rest
    | _ => text
  (Text.numeral? 10 digits).filter fun value => 0 < value && value < 0x100000000

/-- The words that switch a setting off; every other value switches it on. -/
def offWords : List String := ["", "0", "false", "off", "no"]

def isOn (value : String) : Bool :=
  let word := String.ofList (Text.foldCase (Text.trim value.toList))
  !offWords.contains word

def backendOf? (value : String) : Option Backend :=
  let word := String.ofList (Text.foldCase (Text.trim value.toList))
  if word == "cranelift" || word == "native" then some .cranelift
  else if word == "interpreter" || word == "interp" then some .interpreter
  else none

/-- Applies the variables that `lookup` knows. -/
def withOverrides (config : Config) (lookup : String → Option String) : Config × List Event :=
  let number (key : String) (standing : Nat) : Nat :=
    ((lookup key).bind fun value => positive? (Text.trim value.toList)).getD standing
  let switch (key : String) (standing : Bool) : Bool := ((lookup key).map isOn).getD standing
  let chosen := lookup "ARMADA_JIT_BACKEND"
  ({ threshold := number "ARMADA_JIT_TIER1_THRESHOLD" config.threshold
     bulk := number "ARMADA_JIT_CODE_SIZE_WARNING" config.bulk
     backend := (chosen.bind backendOf?).getD config.backend
     introspection := switch "ARMADA_JIT_INTROSPECTION" config.introspection
     trace := switch "ARMADA_CPU_TRACE" config.trace },
    (chosen.filter fun value => (backendOf? value).isNone).toList.map (.unknownBackend · config.backend))

theorem withOverrides_none (config : Config) : config.withOverrides (fun _ => none) = (config, []) := rfl

end Dynarec.Config
