import Dynarec.Register

/-!
Live-in masks. The integer mask holds integer registers in bits 0 to 31 and flags in bits 32 to 63; the
vector mask holds vector registers in bits 0 to 31, and a bit above that names no register.
-/
namespace Dynarec

/-- A mask bit that names no register of the class its mask stands for. -/
structure UnsupportedRegister where
  bit : Nat
  cls : RegisterClass
  deriving DecidableEq, Repr

def UnsupportedRegister.message (error : UnsupportedRegister) : String :=
  s!"live-in bit {error.bit} has no {error.cls.name} register"

structure LiveIn where
  integer : UInt64 := 0
  vector : UInt64 := 0
  deriving DecidableEq, Repr, Inhabited

namespace LiveIn

def all : LiveIn := ⟨0xffffffffffffffff, 0xffffffff⟩

/-- The register a bit of the mask of class `base` stands for. -/
def register? (base : RegisterClass) (bit : Nat) : Except UnsupportedRegister Register :=
  match base with
  | .integer =>
    if bit < 32 then .ok (.int bit)
    else if bit < 64 then .ok (.flag bit)
    else .error ⟨bit, base⟩
  | .vector => if bit < 32 then .ok (.vec bit) else .error ⟨bit, base⟩
  | .flag => .error ⟨bit, base⟩

def bit (register : Register) : Nat :=
  match register.cls with
  | .flag => 32 + register.index
  | _ => register.index

def mask (register : Register) : UInt64 := 1 <<< UInt64.ofNat (bit register)

def insert (sets : LiveIn) (register : Register) : LiveIn :=
  match register.cls with
  | .vector => { sets with vector := sets.vector ||| mask register }
  | _ => { sets with integer := sets.integer ||| mask register }

def contains (sets : LiveIn) (register : Register) : Bool :=
  match register.cls with
  | .vector => sets.vector &&& mask register != 0
  | _ => sets.integer &&& mask register != 0

def ofList (registers : List Register) : LiveIn := registers.foldl insert {}

/-- Positions of the bits that are set, ascending. -/
def bits (mask : UInt64) : List Nat := (List.range 64).filter mask.toNat.testBit

/-- The live registers: integer registers, flags, vector registers, each by index. -/
def registers (sets : LiveIn) : Except UnsupportedRegister (List Register) := do
  let integers ← (bits sets.integer).mapM (register? .integer)
  let vectors ← (bits sets.vector).mapM (register? .vector)
  return integers ++ vectors

theorem register?_bit (register : Register) :
    register? (if register.cls = .vector then .vector else .integer) (bit register) = .ok register := by
  obtain ⟨cls, index⟩ := register
  have small := index.isLt
  cases cls with
  | integer =>
    have wrapped : index.val % 32 = index := Nat.mod_eq_of_lt small
    simp [register?, bit, Register.int, Register.ofNat, Fin.ofNat, wrapped]
  | vector =>
    have wrapped : index.val % 32 = index := Nat.mod_eq_of_lt small
    simp [register?, bit, Register.vec, Register.ofNat, Fin.ofNat, wrapped]
  | flag =>
    have high : ¬ 32 + index.val < 32 := by omega
    have low : 32 + index.val < 64 := by omega
    have wrapped : (32 + index.val) % 32 = index := by omega
    simp [register?, bit, Register.flag, Register.ofNat, Fin.ofNat, high, low, wrapped]

end LiveIn
end Dynarec
