import Dynarec.Alu
import Dynarec.Register

/-!
The register file of one guest thread. A flag is stored as a byte; reading it looks at its lowest bit
alone, and writing it stores 0 or 1.
-/
namespace Dynarec

/-- A number past the last register of a class. -/
structure BadIndex where
  index : Nat
  deriving DecidableEq, Repr, Inhabited

def BadIndex.message (error : BadIndex) : String :=
  s!"index out of bounds: the len is 32 but the index is {error.index}"

structure RegisterFile where
  x : Vector UInt64 32 := Vector.replicate 32 0
  v : Vector Wide 32 := Vector.replicate 32 0
  flags : Vector UInt8 32 := Vector.replicate 32 0
  deriving DecidableEq, Inhabited

namespace RegisterFile

/-- The value of a register, widened with zeros. -/
def read (file : RegisterFile) (register : Register) : Wide :=
  match register.cls with
  | .integer => Wide.ofWord (getElem file.x register.index.val register.index.isLt)
  | .vector => getElem file.v register.index.val register.index.isLt
  | .flag => BitVec.ofNat 128 ((getElem file.flags register.index.val register.index.isLt).toNat % 2)

/-- Stores the bits that the register is wide enough for. -/
def write (file : RegisterFile) (register : Register) (bits : Wide) : RegisterFile :=
  match register.cls with
  | .integer => { file with x := file.x.set register.index bits.low register.index.isLt }
  | .vector => { file with v := file.v.set register.index bits register.index.isLt }
  | .flag => { file with flags := file.flags.set register.index (UInt8.ofNat (bits.toNat % 2)) register.index.isLt }

/-- The stored contents, a flag as its whole byte. -/
def raw (file : RegisterFile) (register : Register) : Nat :=
  match register.cls with
  | .integer => (getElem file.x register.index.val register.index.isLt).toNat
  | .vector => (getElem file.v register.index.val register.index.isLt).toNat
  | .flag => (getElem file.flags register.index.val register.index.isLt).toNat

/-- The integer register of a number. -/
def wordAt (file : RegisterFile) (index : Nat) : Except BadIndex UInt64 :=
  if bound : index < 32 then .ok file.x[index] else .error ⟨index⟩

def setWordAt (file : RegisterFile) (index : Nat) (word : UInt64) : Except BadIndex RegisterFile :=
  if bound : index < 32 then .ok { file with x := file.x.set index word } else .error ⟨index⟩

/-- Stores a whole byte in the flag of a number. -/
def setFlagAt (file : RegisterFile) (index : Nat) (byte : UInt8) : Except BadIndex RegisterFile :=
  if bound : index < 32 then .ok { file with flags := file.flags.set index byte } else .error ⟨index⟩

def writeAll (file : RegisterFile) (values : List (Register × Wide)) : RegisterFile :=
  values.foldl (fun file (register, bits) => file.write register bits) file

/-- The words of an argument list that carry the register's value. -/
def words (file : RegisterFile) (register : Register) : List UInt64 :=
  let bits := file.read register
  match register.cls with
  | .vector => [bits.low, bits.high]
  | _ => [bits.low]

/-- What a register keeps of the bits written to it. -/
def truncate (register : Register) (bits : Wide) : Wide :=
  match register.cls with
  | .integer => Wide.ofWord bits.low
  | .vector => bits
  | .flag => BitVec.ofNat 128 (bits.toNat % 2)

/-- All registers in the order of the live-in masks. -/
def names : List Register :=
  (List.finRange 32).map (⟨.integer, ·⟩) ++ (List.finRange 32).map (⟨.flag, ·⟩)
    ++ (List.finRange 32).map (⟨.vector, ·⟩)

/-- The registers that hold something other than zero. -/
def nonzero (file : RegisterFile) : List (Register × Nat) :=
  (names.map fun register => (register, file.raw register)).filter (·.2 != 0)

@[simp] theorem read_write_same (file : RegisterFile) (register : Register) (bits : Wide) :
    (file.write register bits).read register = truncate register bits := by
  obtain ⟨cls, index⟩ := register
  cases cls with
  | integer => simp [read, write, truncate]
  | vector => simp [read, write, truncate]
  | flag =>
    have small : bits.toNat % 2 < 2 := Nat.mod_lt _ (by omega)
    simp only [read, write, truncate, Vector.getElem_set_self, UInt8.toNat_ofNat']
    congr 1
    omega

theorem read_write_other (file : RegisterFile) {written read : Register} (bits : Wide)
    (other : written ≠ read) : (file.write written bits).read read = file.read read := by
  obtain ⟨writtenClass, writtenIndex⟩ := written
  obtain ⟨readClass, readIndex⟩ := read
  cases writtenClass <;> cases readClass <;> simp only [RegisterFile.read, write] <;>
    (have indices : writtenIndex.val ≠ readIndex.val := by
      intro same
      exact other (by rw [Fin.ext same])) <;>
    simp [indices]

theorem length_words (file : RegisterFile) (register : Register) :
    (file.words register).length = register.words := by
  obtain ⟨cls, index⟩ := register
  cases cls <;> rfl

end RegisterFile
end Dynarec
