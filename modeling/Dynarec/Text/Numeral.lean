/-!
Reading of numerals: decimal, and hexadecimal in either case.
-/
namespace Dynarec.Text

/-- The value of a digit, up to fifteen. -/
def digit? (c : Char) : Option Nat :=
  if '0' ≤ c ∧ c ≤ '9' then some (c.toNat - '0'.toNat)
  else if 'a' ≤ c ∧ c ≤ 'f' then some (c.toNat - 'a'.toNat + 10)
  else if 'A' ≤ c ∧ c ≤ 'F' then some (c.toNat - 'A'.toNat + 10)
  else none

/-- The number that at least one digit of a base stands for. -/
def numeral? (base : Nat) (digits : List Char) : Option Nat :=
  if digits.isEmpty then none
  else digits.foldlM (fun value c => ((digit? c).filter (· < base)).map (value * base + ·)) 0

/-- A hexadecimal numeral with its mark, or else a decimal one. -/
def number? (text : String) : Option Nat :=
  match text.toList with
  | '0' :: 'x' :: digits => numeral? 16 digits
  | digits => numeral? 10 digits

/-- Bytes of two hexadecimal digits each. -/
def bytes? : List Char → Option (List UInt8)
  | high :: low :: rest => do return UInt8.ofNat (← numeral? 16 [high, low]) :: (← bytes? rest)
  | [] => some []
  | _ => none

end Dynarec.Text
