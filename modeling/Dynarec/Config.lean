/-!
Settings of an engine and their defaults.
-/
namespace Dynarec

/-- What is to run the intermediate code. Here it is interpreted, whichever is chosen; native code is not modelled, and may
differ from it where a flag holds more than a bit. The choice shows in names alone. -/
inductive Backend
  | cranelift | interpreter
  deriving DecidableEq, Repr, Inhabited

/-- As events and built code name it. -/
def Backend.name : Backend → String
  | .cranelift => "cranelift" | .interpreter => "interpreter"

/-- As configurations name it. -/
def Backend.title : Backend → String
  | .cranelift => "Cranelift" | .interpreter => "Interpreter"

def Backend.all : List Backend := [.cranelift, .interpreter]

structure Config where
  /-- Tier-0 dispatches before a subroutine is rebuilt. -/
  threshold : Nat := 250
  /-- Generated operations per instruction above which they are reported one by one. -/
  bulk : Nat := 400
  backend : Backend := .cranelift
  /-- Whether profiles are kept. -/
  introspection : Bool := true
  /-- Whether trace subscribers are told of each dispatch. -/
  trace : Bool := false
  deriving DecidableEq, Repr, Inhabited

/-- Thresholds of zero give way to the defaults. -/
def Config.normalized (config : Config) : Config :=
  { config with
    threshold := if config.threshold = 0 then ({} : Config).threshold else config.threshold
    bulk := if config.bulk = 0 then ({} : Config).bulk else config.bulk }

theorem Config.normalized_normalized (config : Config) :
    config.normalized.normalized = config.normalized := by
  simp only [normalized]
  congr 1 <;> split <;> simp_all

end Dynarec
