import Dynarec.Text.Numeral

/-!
Architectural registers: 32 integer registers, 32 vector registers and 32 condition flags, named by class
and index.
-/
namespace Dynarec

inductive RegisterClass
  | integer | vector | flag
  deriving DecidableEq, Repr, Inhabited

def RegisterClass.name : RegisterClass → String
  | .integer => "Integer" | .vector => "Vector" | .flag => "Flag"

structure Register where
  cls : RegisterClass
  index : Fin 32
  deriving DecidableEq, Repr, Inhabited

namespace Register

/-- An index past 31 wraps around. -/
def ofNat (cls : RegisterClass) (index : Nat) : Register := ⟨cls, Fin.ofNat 32 index⟩

def int (index : Nat) : Register := ofNat .integer index

def vec (index : Nat) : Register := ofNat .vector index

def flag (index : Nat) : Register := ofNat .flag index

/-- Holds the address a call returns to. -/
def link : Register := int 30

/-- The zero flag, set by comparisons. -/
def zero : Register := flag 1

def render (register : Register) : String :=
  (match register.cls with
    | .integer => "x"
    | .vector => "v"
    | .flag => "flag") ++ toString register.index.val

def ofName? (name : String) : Option Register :=
  match name.toList with
  | 'x' :: digits => (Text.numeral? 10 digits).map int
  | 'v' :: digits => (Text.numeral? 10 digits).map vec
  | 'f' :: 'l' :: 'a' :: 'g' :: digits => (Text.numeral? 10 digits).map flag
  | _ => none

/-- Byte offset in the packed register file: eight bytes for each integer register, then sixteen for each
vector register, then one for each flag. -/
def offset (register : Register) : Nat :=
  match register.cls with
  | .integer => register.index * 8
  | .vector => 256 + register.index * 16
  | .flag => 768 + register.index

/-- Argument words that carry the register's value. -/
def words (register : Register) : Nat :=
  match register.cls with
  | .vector => 2
  | _ => 1

theorem ofNat_mod (cls : RegisterClass) (index : Nat) : ofNat cls (index % 32) = ofNat cls index := by
  simp [ofNat, Fin.ofNat]

theorem offset_injective {left right : Register} (same : left.offset = right.offset) : left = right := by
  obtain ⟨leftClass, leftIndex⟩ := left
  obtain ⟨rightClass, rightIndex⟩ := right
  cases leftClass <;> cases rightClass <;> simp only [offset] at same <;>
    first
      | omega
      | (congr; omega)

end Register
end Dynarec
