import Dynarec.Guest.Program
import Dynarec.Ir.Expansion
import Dynarec.Ir.Function
import Dynarec.Json.Decode
import Dynarec.Json.Encode
import Dynarec.Subroutine

/-!
JSON notation of code. Registers are written by name; operations and instructions are lists that begin with
their name; a function is an object whose locals are one letter each.
-/
namespace Dynarec

open Json (entry)

instance : Decode Register := ⟨fun json => do need "register" (Register.ofName? (← decode json))⟩

instance : Encode Register := ⟨fun register => encode register.render⟩

instance : Decode RegisterClass := ⟨decodeNamed [.integer, .vector, .flag] RegisterClass.name⟩

instance : Encode RegisterClass := ⟨fun cls => encode cls.name⟩

instance : Decode BinaryOp := ⟨decodeNamed BinaryOp.all BinaryOp.name⟩

instance : Decode UnaryOp := ⟨decodeNamed UnaryOp.all UnaryOp.name⟩

instance : Decode Cond := ⟨decodeNamed Cond.all Cond.name⟩

instance : Decode VectorOp := ⟨decodeNamed VectorOp.all VectorOp.name⟩

instance : Decode Tier := ⟨fun json => return if (← decode json : Nat) = 0 then .tier0 else .tier1⟩

instance : Encode Tier := ⟨fun tier => encode tier.name⟩

instance : Encode Stage := ⟨fun stage => encode stage.name⟩

/-- A width by its bits. -/
instance : Decode Ir.Width := ⟨fun json => do
  let bits ← decode json
  need "width" (Ir.Width.all.find? (·.bytes * 8 == bits))⟩

instance : Decode Ir.Op := ⟨fun json => do
  let parts : Parts ← decode json
  match (← parts.get 0 : String) with
  | "LoadArg" => return .loadArg (← parts.get 1) (← parts.get 2)
  | "Const" => return .const (← parts.get 1) (← parts.get 2)
  | "Move" => return .move (← parts.get 1) (← parts.get 2)
  | "Unary" => return .unary (← parts.get 1) (← parts.get 2) (← parts.get 3)
  | "Binary" => return .binary (← parts.get 1) (← parts.get 2) (← parts.get 3) (← parts.get 4)
  | "BinaryImm" => return .binaryImm (← parts.get 1) (← parts.get 2) (← parts.get 3) (← parts.get 4)
  | "Compare" => return .compare (← parts.get 1) (← parts.get 2) (← parts.get 3) (← parts.get 4)
  | "Select" => return .select (← parts.get 1) (← parts.get 2) (← parts.get 3) (← parts.get 4)
  | "Vector" => return .vector (← parts.get 1) (← parts.get 2) (← parts.get 3) (← parts.get 4)
  | "VectorPack" => return .vectorPack (← parts.get 1) (← parts.get 2) (← parts.get 3)
  | "VectorExtract" => return .vectorExtract (← parts.get 1) (← parts.get 2) (← parts.get 3)
  | "LoadRegister" => return .loadRegister (← parts.get 1) (← parts.get 2)
  | "StoreRegister" => return .storeRegister (← parts.get 1) (← parts.get 2)
  | "Load" => return .load (← parts.get 1) (← parts.get 2) (← parts.get 3)
  | "Store" => return .store (← parts.get 1) (← parts.get 2) (← parts.get 3)
  | "LoadVector" => return .loadVector (← parts.get 1) (← parts.get 2)
  | "StoreVector" => return .storeVector (← parts.get 1) (← parts.get 2)
  | "AtomicCas32" => return .cas32 (← parts.get 1) (← parts.get 2) (← parts.get 3) (← parts.get 4)
  | "Label" => return .place (← parts.get 1)
  | "Jump" => return .jump (← parts.get 1)
  | "BranchIf" => return .branchIf (← parts.get 1) (← parts.get 2)
  | "CallSubroutine" => return .call (← parts.get 1) (← parts.get 2)
  | "Return" => return .ret (← parts.get 1)
  | "Preload" => return .preload
  | "Spill" => return .spill
  | "Reload" => return .reload
  | other => .error other⟩

instance : Encode Ir.Op := ⟨fun op => encode op.render⟩

instance : Decode Ir.LocalKind := ⟨fun json => do
  match (← decode json : String) with
  | "i" => return .i64
  | "v" => return .v128
  | other => .error other⟩

/-- Without a count of argument words, the parameters decide it. -/
instance : Decode Ir.Function := ⟨fun json => do
  let params : List Register ← json.fieldD "params" []
  let letters : String ← json.fieldD "locals" ""
  let locals ← letters.toList.mapM fun letter => decode (encode (toString letter))
  let ops : List Ir.Op ← json.fieldD "ops" []
  return {
    name := ← json.fieldD "name" "fn"
    params
    argWords := ← json.fieldD "arg_slots" ((params.map Register.words).foldl (· + ·) 0)
    locals := locals.toArray
    labels := ← json.fieldD "labels" 0
    ops := ops.toArray }⟩

instance : Encode Ir.Function := ⟨fun function =>
  .ofFields [entry "name" function.name, entry "params" function.params,
    entry "arg_slots" function.argWords, entry "locals" function.localLetters,
    entry "labels" function.labels, entry "ops" function.ops.toList]⟩

instance : Decode Ir.Binding := ⟨fun json => do
  let parts : Parts ← decode json
  return ⟨← parts.get 0, ← parts.get 1, ← parts.get 2⟩⟩

instance : Decode Guest.Instruction := ⟨fun json => do
  let parts : Parts ← decode json
  return {
    form := ← need "form" (Guest.Form.ofName? (← parts.get 0))
    address := ← parts.get 1
    operands := ← parts.getD 2 []
    target := ← parts.getD 3 none
    size := ← parts.getD 4 4 }⟩

instance : Encode Guest.Instruction := ⟨fun instruction =>
  encode s!"{Text.hex instruction.address.toNat} {instruction.form.name}"⟩

instance : Decode Guest.Block := ⟨fun json => do
  let parts : Parts ← decode json
  return ⟨← parts.get 0, ← parts.get 1⟩⟩

instance : Encode Guest.Block := ⟨fun block =>
  .ofFields [entry "address" block.address, entry "end" block.last,
    entry "ops" block.instructions]⟩

instance : Decode Guest.Graph := ⟨fun json => Guest.Graph.mk <$> decode json⟩

instance : Decode Guest.Program := ⟨fun json => Guest.Program.ofList <$> decode json⟩

instance : Decode Probe := ⟨fun json => do
  let parts : Parts ← decode json
  match (← parts.get 0 : String) with
  | "const" => return .const (← parts.get 1)
  | "call" => return .call (← parts.get 1)
  | "arg" => return .arg (← parts.get 1)
  | "args" => return .args
  | "depth" => return .depth
  | "known" => return .known (← parts.get 1)
  | "load" => return .load (← parts.get 1)
  | "incx" => return .increment (← parts.get 1)
  | other => .error other⟩

/-- A subroutine around a probe. -/
instance : Decode Subroutine := ⟨fun json => do
  let entry ← json.fieldD "entry" 0
  let name ← json.fieldD "name" (Subroutine.nameOf entry)
  let params ← json.fieldD "params" []
  let code := Code.probe (← json.fieldD "code" (.const 0))
  let linked ← json.fieldD "linked" []
  if ← json.fieldD "host" false then return { Subroutine.host entry name params code with linked }
  else
    return {
      entry, name, params, code, linked
      tier := ← json.fieldD "tier" .tier0
      callees := ← json.fieldD "callees" []
      generatedOps := ← json.fieldD "ops" 0
      threshold := ← json.fieldD "threshold" ({} : Config).threshold }⟩

end Dynarec
