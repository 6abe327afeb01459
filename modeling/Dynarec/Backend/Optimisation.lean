import Dynarec.Error

/-!
Levels of optimisation of native code.
-/
namespace Dynarec

inductive Optimisation
  | none | speed | speedAndSize
  deriving DecidableEq, Repr, Inhabited

namespace Optimisation

def all : List Optimisation := [.none, .speed, .speedAndSize]

def name : Optimisation → String
  | .none => "none"
  | .speed => "speed"
  | .speedAndSize => "speed_and_size"

def ofName (name : String) : Except TranslationError Optimisation :=
  match all.find? (·.name == name) with
  | some level => .ok level
  | .none =>
    .error (.builder ("Unexpected value for a setting, expected any among "
      ++ ", ".intercalate (all.map Optimisation.name)))

theorem ofName_name (level : Optimisation) : ofName level.name = .ok level := by
  cases level <;> rfl

end Optimisation
end Dynarec
