import Dynarec.Engine

/-!
Calls from the host into guest code. The arguments go where the callee looks for them, the link register is
cleared so that the callee's return hands control back, and the result is taken from where the callee leaves
it; a call that was stopped yields what is there then.
-/
namespace Dynarec

structure GuestFunction where
  address : UInt64
  signature : Calling.Signature
  layout : Calling.Layout
  deriving DecidableEq, Repr, Inhabited

namespace GuestFunction

def ofSignature (address : UInt64) (signature : Calling.Signature) : Except ExecError GuestFunction :=
  match Calling.Layout.ofClasses signature.classes with
  | .ok layout => .ok { address, signature, layout }
  | .error cause => .error (.arguments cause)

/-- The registers as the callee finds them. -/
def enter (function : GuestFunction) (values : List Calling.Value) (regs : RegisterFile) : RegisterFile :=
  (function.layout.write values regs).write .link 0

def call (function : GuestFunction) (fuel : Nat) (values : List Calling.Value) : Run (Option Calling.Value) := do
  modify fun
    | ⟨engine, cpu⟩ => ⟨engine, { cpu with regs := function.enter values cpu.regs }⟩
  discard (Session.execute fuel function.address)
  return Calling.Value.load function.signature.result (← get).cpu.regs

def render (function : GuestFunction) : String :=
  Text.record "GuestFunction"
    [("address", Text.hex function.address.toNat), ("layout", function.layout.render)]

end GuestFunction
end Dynarec
