import Dynarec.Alu
import Dynarec.Json

/-!
Values as JSON. Counts are numbers; machine words are strings with marked hexadecimal numerals.
-/
namespace Dynarec

class Encode (α : Type) where
  encode : α → Json

export Encode (encode)

namespace Json

def entry {α : Type} [Encode α] (key : String) (value : α) : String × Json := (key, encode value)

def ofFields (fields : List (String × Json)) : Json :=
  .object (fields.map fun (key, value) => (some key, value))

/-- Adds a field at the end of an object. -/
def push {α : Type} [Encode α] (json : Json) (key : String) (value : α) : Json :=
  match json with
  | .object fields => .object (fields ++ [(some key, encode value)])
  | other => other

end Json

/-- A number to be written in hexadecimal. -/
structure Hex where
  value : Nat

instance : Encode Json := ⟨id⟩

instance : Encode Unit := ⟨fun _ => .null⟩

instance : Encode Nat := ⟨fun n => .number (toString n)⟩

instance : Encode String := ⟨fun text => .string (some text)⟩

instance : Encode Bool := ⟨.bool⟩

instance : Encode Hex := ⟨fun n => encode (Text.hex n.value)⟩

instance : Encode UInt32 := ⟨fun word => encode (Hex.mk word.toNat)⟩

instance : Encode UInt64 := ⟨fun word => encode (Hex.mk word.toNat)⟩

instance : Encode Wide := ⟨fun bits => encode (Hex.mk bits.toNat)⟩

instance {α : Type} [Encode α] : Encode (List α) := ⟨fun items => .array (items.map encode)⟩

instance {α : Type} [Encode α] : Encode (Option α) := ⟨fun
  | some value => encode value
  | none => .null⟩

/-- The value, or else the error. -/
instance {ε α : Type} [Encode ε] [Encode α] : Encode (Except ε α) := ⟨fun
  | .ok value => encode value
  | .error cause => encode cause⟩

end Dynarec
