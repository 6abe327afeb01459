import Dynarec.Calling.Layout
import Dynarec.Halt
import Dynarec.World

/-!
Host functions that guest code can call. A thunk takes the arguments from the registers of its layout, leaves
the result in the first register of its class and goes on at the address in the link register.
-/
namespace Dynarec.Calling

structure Signature where
  params : List ValueType := []
  result : Option ValueType := none
  deriving DecidableEq, Repr, Inhabited

def Signature.classes (signature : Signature) : List RegisterClass := signature.params.map ValueType.cls

/-- Types between commas; `u64x8` stands for eight times `u64`, and nothing may stand between brackets. -/
def typesOf? (text : String) : Option (List ValueType) :=
  if text == "" || text == "()" then some []
  else do
    let types ← (text.splitOn ",").mapM fun item =>
      match item.splitOn "x" with
      | [name, count] => do return List.replicate (← Text.number? count) (← ValueType.ofName? name)
      | _ => do return [← ValueType.ofName? item]
    return types.flatten

/-- A signature such as `u8,f64->u64`. -/
def Signature.ofText? (text : String) : Option Signature :=
  match text.splitOn "->" with
  | [params, result] => do return ⟨← typesOf? params, (← typesOf? result).head?⟩
  | _ => none

structure HostFunction where
  name : String
  signature : Signature
  /-- Arguments and world before, result and world after. -/
  apply : List Value → World → Outcome (Option Value × World)

instance : Inhabited HostFunction := ⟨"", {}, fun _ world => .ok (none, world)⟩

namespace HostFunction

/-- Runs as guest code does: from registers to registers, with the next address. -/
def enter (function : HostFunction) (layout : Layout) (regs : RegisterFile) (world : World) :
    Outcome (UInt64 × RegisterFile × World) := do
  let (result, world) ← function.apply (layout.read function.signature.params regs) world
  let regs := Value.store result regs
  return ((regs.read .link).low, regs, world)

end HostFunction
end Dynarec.Calling
