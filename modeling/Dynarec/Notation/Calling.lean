import Dynarec.Calling.Samples
import Dynarec.Json.Decode
import Dynarec.Json.Encode

/-!
JSON notation of calls. Types and signatures are texts; integers are decimal, floating-point numbers and vectors
the hexadecimal numerals of their bits.
-/
namespace Dynarec.Calling

instance : Decode ValueType := ⟨fun json => do need "type" (ValueType.ofName? (← decode json))⟩

instance : Decode Signature := ⟨fun json => do need "signature" (Signature.ofText? (← decode json))⟩

instance : Decode HostFunction := ⟨fun json => do need "host function" (Samples.find? (← decode json))⟩

def decodeValue (json : Json) : ValueType → Decoded Value
  | .u8 => return .u8 (← decode json)
  | .u16 => return .u16 (← decode json)
  | .u32 => return .u32 (← decode json)
  | .u64 => return .u64 (← decode json)
  | .i8 => return .i8 (Int8.ofInt (← decode json))
  | .i16 => return .i16 (Int16.ofInt (← decode json))
  | .i32 => return .i32 (Int32.ofInt (← decode json))
  | .i64 => return .i64 (Int64.ofInt (← decode json))
  | .bool => return .bool (← decode json)
  | .f32 => return .f32 (← decode json)
  | .f64 => return .f64 (← decode json)
  | .v128 => return .v128 (← decode json)

/-- Values for the parameters of a signature. -/
def Signature.decodeValues (signature : Signature) (given : List Json) : Decoded (List Value) :=
  (given.zip signature.params).mapM fun (json, type) => decodeValue json type

instance : Encode Value := ⟨fun
  | .bool value => encode value
  | .f32 bits => encode bits
  | .f64 bits => encode bits
  | .v128 bits => encode bits
  | .u8 value => encode (toString value.toNat)
  | .u16 value => encode (toString value.toNat)
  | .u32 value => encode (toString value.toNat)
  | .u64 value => encode (toString value.toNat)
  | .i8 value => encode (toString value.toInt)
  | .i16 value => encode (toString value.toInt)
  | .i32 value => encode (toString value.toInt)
  | .i64 value => encode (toString value.toInt)⟩

end Dynarec.Calling
