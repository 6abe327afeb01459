import Dynarec.Json

/-!
Reading of JSON texts, without any of the common relaxations: no leading zeros, no trailing commas, no comments,
and no control characters in strings.
-/
namespace Dynarec.Json

def isBlank (c : Char) : Bool := c == ' ' || c == '\t' || c == '\n' || c == '\r'

def skip (text : List Char) : List Char := text.dropWhile isBlank

/-- What a string is made of: characters as they stand or by a short escape, and code units in hexadecimal. -/
inductive Piece
  | char (c : Char)
  | unit (n : Nat)
  deriving DecidableEq, Repr

def shortEscape? : Char → Option Char
  | '"' => some '"' | '\\' => some '\\' | '/' => some '/'
  | 'b' => some '\x08' | 'f' => some '\x0c' | 'n' => some '\n' | 'r' => some '\r' | 't' => some '\t'
  | _ => none

/-- The pieces up to the closing quote, and what follows it. -/
def pieces? : List Char → Option (List Piece × List Char)
  | '"' :: rest => some ([], rest)
  | '\\' :: 'u' :: a :: b :: c :: d :: rest => do
    let unit ← Text.numeral? 16 [a, b, c, d]
    let (pieces, rest) ← pieces? rest
    return (.unit unit :: pieces, rest)
  | '\\' :: c :: rest => do
    let c ← shortEscape? c
    let (pieces, rest) ← pieces? rest
    return (.char c :: pieces, rest)
  | c :: rest => do
    guard (0x20 ≤ c.toNat)
    let (pieces, rest) ← pieces? rest
    return (.char c :: pieces, rest)
  | [] => none

/-- The characters of the pieces. Two code units may stand for one character; such a unit alone stands for
none. -/
def chars? : List Piece → Option (List Char)
  | [] => some []
  | .char c :: rest => (chars? rest).map (c :: ·)
  | .unit high :: rest =>
    if 0xd800 ≤ high ∧ high < 0xdc00 then
      match rest with
      | .unit low :: rest =>
        if 0xdc00 ≤ low ∧ low < 0xe000 then
          (chars? rest).map (Char.ofNat (0x10000 + (high - 0xd800) * 0x400 + (low - 0xdc00)) :: ·)
        else none
      | _ => none
    else if 0xdc00 ≤ high ∧ high < 0xe000 then none
    else (chars? rest).map (Char.ofNat high :: ·)

/-- A string behind its opening quote. -/
def string? (text : List Char) : Option (Option String × List Char) :=
  (pieces? text).map fun (pieces, rest) => ((chars? pieces).map String.ofList, rest)

/-- At least one digit, and what follows. -/
def digits? (text : List Char) : Option (List Char × List Char) :=
  match text.takeWhile Char.isDigit with
  | [] => none
  | digits => some (digits, text.dropWhile Char.isDigit)

/-- The digits before the point: a leading zero stands alone. -/
def integer? : List Char → Option (List Char × List Char)
  | '0' :: rest => some (['0'], rest)
  | text => digits? text

/-- A fraction with its point, if one is here. -/
def fraction? : List Char → Option (List Char × List Char)
  | '.' :: text => (digits? text).map fun (digits, rest) => ('.' :: digits, rest)
  | text => some ([], text)

/-- An exponent with its mark, if one is here. -/
def exponent? : List Char → Option (List Char × List Char)
  | mark :: text =>
    if mark == 'e' || mark == 'E' then
      match text with
      | '+' :: text => (digits? text).map fun (digits, rest) => (mark :: '+' :: digits, rest)
      | '-' :: text => (digits? text).map fun (digits, rest) => (mark :: '-' :: digits, rest)
      | _ => (digits? text).map fun (digits, rest) => (mark :: digits, rest)
    else some ([], mark :: text)
  | [] => some ([], [])

def literal? (text : List Char) : Option (String × List Char) := do
  let (sign, unsigned) := match text with
    | '-' :: rest => (['-'], rest)
    | _ => ([], text)
  let (digits, text) ← integer? unsigned
  let (fraction, text) ← fraction? text
  let (exponent, rest) ← exponent? text
  return (String.ofList (sign ++ digits ++ fraction ++ exponent), rest)

mutual

/-- A value and what follows it; `bound` limits the nesting. -/
def value? (bound : Nat) (text : List Char) : Option (Json × List Char) :=
  match bound with
  | 0 => none
  | bound + 1 =>
    match skip text with
    | 'n' :: 'u' :: 'l' :: 'l' :: rest => some (.null, rest)
    | 't' :: 'r' :: 'u' :: 'e' :: rest => some (.bool true, rest)
    | 'f' :: 'a' :: 'l' :: 's' :: 'e' :: rest => some (.bool false, rest)
    | '"' :: rest => (string? rest).map fun (value, rest) => (.string value, rest)
    | '[' :: rest =>
      match skip rest with
      | ']' :: rest => some (.array [], rest)
      | rest => (items? bound rest).map fun (items, rest) => (.array items, rest)
    | '\x7b' :: rest =>
      match skip rest with
      | '\x7d' :: rest => some (.object [], rest)
      | rest => (fields? bound rest).map fun (fields, rest) => (.object fields, rest)
    | rest => (literal? rest).map fun (literal, rest) => (.number literal, rest)

def items? (bound : Nat) (text : List Char) : Option (List Json × List Char) :=
  match bound with
  | 0 => none
  | bound + 1 => do
    let (item, rest) ← value? bound text
    match skip rest with
    | ',' :: rest =>
      let (items, rest) ← items? bound rest
      return (item :: items, rest)
    | ']' :: rest => return ([item], rest)
    | _ => none

def fields? (bound : Nat) (text : List Char) : Option (List (Option String × Json) × List Char) :=
  match bound with
  | 0 => none
  | bound + 1 =>
    match skip text with
    | '"' :: rest => do
      let (key, rest) ← string? rest
      match skip rest with
      | ':' :: rest =>
        let (value, rest) ← value? bound rest
        match skip rest with
        | ',' :: rest =>
          let (fields, rest) ← fields? bound rest
          return ((key, value) :: fields, rest)
        | '\x7d' :: rest => return ([(key, value)], rest)
        | _ => none
      | _ => none
    | _ => none

end

/-- Reads a whole text. Every second level of the nesting takes a character, which bounds it. -/
def read? (text : List Char) : Option Json := do
  let (value, rest) ← value? (2 * text.length + 2) text
  guard (skip rest).isEmpty
  return value

end Dynarec.Json
