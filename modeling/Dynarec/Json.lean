import Dynarec.Text.Render
import Dynarec.Text.Numeral

/-!
JSON values and their text. A number keeps its literal. A string or key with an escape that stands for no
character is well formed, but has no value; it is written as the replacement character.
-/
namespace Dynarec

inductive Json
  | null
  | bool (value : Bool)
  | number (literal : String)
  | string (value : Option String)
  | array (items : List Json)
  | object (fields : List (Option String × Json))
  deriving Inhabited

namespace Json

/-- A number that carries no point and no exponent; a zero must not carry a sign either. -/
def whole? : Json → Option Int
  | .number literal =>
    match literal.toList with
    | '-' :: digits => ((Text.numeral? 10 digits).filter (· ≠ 0)).map fun n => -(n : Int)
    | digits => (Text.numeral? 10 digits).map fun n => (n : Int)
  | _ => none

/-- A whole number of a range that starts at zero. -/
def below? (bound : Nat) (json : Json) : Option Nat :=
  json.whole?.bind fun n => (n.toNat?).filter (· < bound)

/-- The value of a field, null when there is none. -/
def get (json : Json) (key : String) : Json :=
  match json with
  | .object fields => (fields.lookup (some key)).getD .null
  | _ => .null

def escape (c : Char) : List Char :=
  if c = '"' then ['\\', '"']
  else if c = '\\' then ['\\', '\\']
  else if c.toNat < 0x20 then "\\u".toList ++ (Text.hexPadded 4 c.toNat).toList
  else [c]

def quote (text : String) : String := "\"" ++ String.ofList (text.toList.flatMap escape) ++ "\""

def renderString (value : Option String) : String := quote (value.getD "\ufffd")

mutual

def render : Json → String
  | .null => "null"
  | .bool true => "true"
  | .bool false => "false"
  | .number literal => literal
  | .string value => renderString value
  | .array items => "[" ++ ",".intercalate (renderItems items) ++ "]"
  | .object fields => "\x7b" ++ ",".intercalate (renderFields fields) ++ "\x7d"

def renderItems : List Json → List String
  | [] => []
  | item :: rest => render item :: renderItems rest

def renderFields : List (Option String × Json) → List String
  | [] => []
  | field :: rest => renderField field :: renderFields rest

def renderField : Option String × Json → String
  | (key, value) => renderString key ++ ":" ++ render value

end

end Json
end Dynarec
