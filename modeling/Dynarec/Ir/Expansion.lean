import Dynarec.Ir.Op

/-!
Expansion of placeholders, once it is known which registers a body keeps in locals. Positions before the
expansion are carried over by a map that has one entry per operation and one for the end.
-/
namespace Dynarec.Ir

/-- A register and the local that holds it. A parameter's value comes in as an argument. -/
structure Binding where
  register : Register
  slot : Local
  isParam : Bool
  deriving DecidableEq, Repr, Inhabited

namespace Expansion

def load (binding : Binding) : Op := .loadRegister binding.slot binding.register

def store (binding : Binding) : Op := .storeRegister binding.register binding.slot

def expandOp (bindings : List Binding) : Op → List Op
  | .preload => (bindings.filter (!·.isParam)).map load
  | .spill => bindings.map store
  | .reload => bindings.map load
  | op => [op]

def expand (bindings : List Binding) (ops : List Op) : List Op := ops.flatMap (expandOp bindings)

/-- Where each operation's expansion begins when the output starts at `start`, and where the last ends. -/
def positions (bindings : List Binding) (start : Nat) : List Op → List Nat
  | [] => [start]
  | op :: rest => start :: positions bindings (start + (expandOp bindings op).length) rest

theorem length_positions (bindings : List Binding) (start : Nat) (ops : List Op) :
    (positions bindings start ops).length = ops.length + 1 := by
  induction ops generalizing start with
  | nil => rfl
  | cons op rest ih => simp [positions, ih]

theorem expand_cons (bindings : List Binding) (op : Op) (rest : List Op) :
    expand bindings (op :: rest) = expandOp bindings op ++ expand bindings rest := rfl

theorem expand_append (bindings : List Binding) (front back : List Op) :
    expand bindings (front ++ back) = expand bindings front ++ expand bindings back := by
  simp [expand]

end Expansion
end Dynarec.Ir
