import Dynarec.Notation.Code
import Dynarec.Thread
import Dynarec.World

/-!
JSON notation of what code runs on. Register contents are objects by register name, bytes are strings of two
digits each, and a world is described by its memory, the ranges mapped in it and the bytes written to it first.
-/
namespace Dynarec

open Json (entry)

instance : Decode Mode := ⟨decodeNamed Mode.all Mode.name⟩

instance : Encode Mode := ⟨fun mode => encode mode.name⟩

structure Settings where
  values : List (Register × Wide) := []

instance : Decode Settings := ⟨fun json => do
  let fields ← decodeFields json
  return ⟨← fields.mapM fun (key, bits) => return (← decode (encode key), bits)⟩⟩

/-- Only the registers that are not zero. -/
instance : Encode RegisterFile := ⟨fun regs =>
  .ofFields (regs.nonzero.map fun (register, bits) => entry register.render (Hex.mk bits))⟩

/-- All registers for a string, those of a list, or two masks. -/
instance : Decode LiveIn := ⟨fun
  | .string _ => .ok .all
  | .array items => return .ofList (← items.mapM decode)
  | json => return ⟨← json.fieldD "integer" 0, ← json.fieldD "vector" 0⟩⟩

structure Octets where
  bytes : List UInt8

instance : Decode Octets := ⟨fun json => do
  let text : String ← decode json
  return ⟨← need "bytes" (Text.bytes? text.toList)⟩⟩

instance : Encode Octets := ⟨fun octets => encode (Text.hexBytes octets.bytes)⟩

/-- Memory of a size with nothing mapped, or with every byte at its own place. -/
instance : Decode Memory := ⟨fun json => do
  match (← json.field "new" : Option UInt64) with
  | some size => return .empty size
  | none => return .identity (← json.field "identity")⟩

instance : Decode World := ⟨fun json => do
  let ranges : List Parts ← json.fieldD "map" []
  let contents : List Parts ← json.fieldD "init" []
  let world : World := { memory := ← json.fieldD "mem" (.identity 0x10000) }
  let world ← ranges.foldlM (fun world parts => do
    return (world.map (← parts.get 0) (← parts.get 1) (← parts.get 2)).2) world
  contents.foldlM (fun world parts => do
    let octets : Octets ← parts.get 1
    return world.write (← parts.get 0) octets.bytes) world⟩

instance : Encode Event := ⟨fun event => encode event.render⟩

end Dynarec
