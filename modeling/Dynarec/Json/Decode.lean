import Dynarec.Alu
import Dynarec.Json

/-!
Values from JSON. A number is a whole one or a string with a decimal or marked hexadecimal numeral, and is cut
to the width of its type. Fields and items that are missing or null take a default where one is given; numbers,
truth values, texts, lists and objects are otherwise zero, false and empty.
-/
namespace Dynarec

/-- Decoding fails with a text that says what was expected. -/
abbrev Decoded := Except String

class Decode (α : Type) where
  decode : Json → Decoded α

export Decode (decode)

/-- What was found, if anything was. -/
def need {α : Type} (what : String) : Option α → Decoded α
  | some found => .ok found
  | none => .error what

instance : Decode Json := ⟨pure⟩

instance : Decode String := ⟨fun
  | .string (some text) => .ok text
  | .null => .ok ""
  | _ => .error "text"⟩

instance : Decode Bool := ⟨fun
  | .bool value => .ok value
  | .null => .ok false
  | _ => .error "truth value"⟩

instance : Decode Nat := ⟨fun
  | .string (some text) => need "number" (Text.number? text)
  | .null => .ok 0
  | json => need "number" (json.whole?.bind Int.toNat?)⟩

instance : Decode Int := ⟨fun
  | .string (some text) => need "number" ((Text.number? text).map Int.ofNat <|> (Json.number text).whole?)
  | .null => .ok 0
  | json => need "number" json.whole?⟩

instance : Decode UInt8 := ⟨fun json => return UInt8.ofNat (← decode json)⟩

instance : Decode UInt16 := ⟨fun json => return UInt16.ofNat (← decode json)⟩

instance : Decode UInt32 := ⟨fun json => return UInt32.ofNat (← decode json)⟩

instance : Decode UInt64 := ⟨fun json => return UInt64.ofNat (← decode json)⟩

instance : Decode Wide := ⟨fun json => return BitVec.ofNat 128 (← decode json)⟩

instance {α : Type} [Decode α] : Decode (List α) := ⟨fun
  | .array items => items.mapM decode
  | .null => .ok []
  | _ => .error "list"⟩

instance {α : Type} [Decode α] : Decode (Option α) := ⟨fun
  | .null => .ok none
  | json => some <$> decode json⟩

/-- The value that has the name in a string. -/
def decodeNamed {α : Type} (all : List α) (name : α → String) (json : Json) : Decoded α := do
  let wanted : String ← decode json
  need wanted (all.find? fun candidate => name candidate == wanted)

def decodeFields {α : Type} [Decode α] : Json → Decoded (List (String × α))
  | .object fields => fields.mapM fun (key, value) => return (← need "key" key, ← decode value)
  | .null => .ok []
  | _ => .error "object"

/-- The items of a list, each decoded when it is asked for. -/
structure Parts where
  items : List Json

instance : Decode Parts := ⟨fun json => Parts.mk <$> decode json⟩

namespace Parts

def get {α : Type} [Decode α] (parts : Parts) (index : Nat) : Decoded α := do
  decode (parts.items.getD index .null)

def getD {α : Type} [Decode α] (parts : Parts) (index : Nat) (default : α) : Decoded α := do
  return (← decode (parts.items.getD index .null) : Option α).getD default

end Parts

namespace Json

def field {α : Type} [Decode α] (json : Json) (key : String) : Decoded α := decode (json.get key)

def fieldD {α : Type} [Decode α] (json : Json) (key : String) (default : α) : Decoded α := do
  return (← json.field key : Option α).getD default

end Json
end Dynarec
