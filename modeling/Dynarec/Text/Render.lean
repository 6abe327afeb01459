/-!
How values are written in reports: hexadecimal with and without the `0x` mark, right-aligned columns, byte strings of
two digits per byte, and records and lists, in which two dots stand for fields left out.
-/
namespace Dynarec.Text

/-- Pads on the left up to `width` characters. -/
def padLeft (width : Nat) (fill : Char) (text : String) : String :=
  String.ofList (List.replicate (width - text.length) fill) ++ text

/-- Lower-case hexadecimal digits without leading zeros; zero is one digit. -/
def hexDigits (n : Nat) : String := String.ofList (Nat.toDigits 16 n)

/-- Hexadecimal with its mark, as addresses and register values are written. -/
def hex (n : Nat) : String := "0x" ++ hexDigits n

/-- At least `width` hexadecimal digits, without the mark. -/
def hexPadded (width n : Nat) : String := padLeft width '0' (hexDigits n)

def hexBytes (bytes : List UInt8) : String :=
  String.join (bytes.map fun byte => hexPadded 2 byte.toNat)

def list (items : List String) : String := "[" ++ ", ".intercalate items ++ "]"

def record (name : String) (fields : List (String × String)) : String :=
  name ++ " \x7b " ++ ", ".intercalate (fields.map fun (field, value) => field ++ ": " ++ value) ++ " \x7d"

/-- A record with some of its fields. -/
def partialRecord (name : String) (fields : List (String × String)) : String :=
  name ++ " \x7b " ++ ", ".intercalate ((fields.map fun (field, value) => field ++ ": " ++ value) ++ [".."])
    ++ " \x7d"

def optional : Option String → String
  | none => "None"
  | some value => "Some(" ++ value ++ ")"

end Dynarec.Text
