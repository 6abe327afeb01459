import Dynarec.Calling.Host
import Mathlib

/-!
Register files that read the same. They may differ in the high bits of flags, which no read sees; whatever is
taken from one through its registers is taken from the other too.
-/
namespace Dynarec
namespace RegisterFile

/-- No read tells the files apart. -/
def Agree (left right : RegisterFile) : Prop := ∀ register, left.read register = right.read register

theorem Agree.refl (file : RegisterFile) : file.Agree file := fun _ => rfl

theorem Agree.symm {left right : RegisterFile} (agree : left.Agree right) : right.Agree left :=
  fun register => (agree register).symm

theorem Agree.trans {first second third : RegisterFile} (left : first.Agree second) (right : second.Agree third) :
    first.Agree third :=
  fun register => (left register).trans (right register)

theorem read_write (file : RegisterFile) (written read : Register) (bits : Wide) :
    (file.write written bits).read read = if read = written then truncate written bits else file.read read := by
  split
  · next same =>
    subst same
    exact read_write_same file read bits
  · next other => exact read_write_other file bits (Ne.symm other)

theorem Agree.write {left right : RegisterFile} (agree : left.Agree right) (register : Register) (bits : Wide) :
    (left.write register bits).Agree (right.write register bits) := by
  intro other
  rw [read_write, read_write, agree other]

/-- A file reads the same after it was written what it held. -/
theorem truncate_read (file : RegisterFile) (register : Register) :
    truncate register (file.read register) = file.read register := by
  obtain ⟨cls, index⟩ := register
  cases cls with
  | integer => simp [truncate, read]
  | vector => rfl
  | flag =>
    have small : file.flags[index.val].toNat % 2 < 2 := Nat.mod_lt _ (by omega)
    have wrapped : file.flags[index.val].toNat % 2 % 2 ^ 128 = file.flags[index.val].toNat % 2 := by omega
    simp only [truncate, read, BitVec.toNat_ofNat, wrapped, Nat.mod_mod]

theorem Agree.words {left right : RegisterFile} (agree : left.Agree right) (register : Register) :
    left.words register = right.words register := by
  unfold RegisterFile.words
  rw [agree register]

theorem Agree.x {left right : RegisterFile} (agree : left.Agree right) : left.x = right.x := by
  apply Vector.ext
  intro index bound
  have same : Wide.ofWord left.x[index] = Wide.ofWord right.x[index] := agree ⟨.integer, ⟨index, bound⟩⟩
  have low := congrArg Wide.low same
  rwa [Wide.low_ofWord, Wide.low_ofWord] at low

theorem Agree.wordAt {left right : RegisterFile} (agree : left.Agree right) (index : Nat) :
    left.wordAt index = right.wordAt index := by
  unfold RegisterFile.wordAt
  rw [agree.x]

theorem setWordAt_eq (file : RegisterFile) {index : Nat} (bound : index < 32) (word : UInt64) :
    file.setWordAt index word = .ok (file.write ⟨.integer, ⟨index, bound⟩⟩ (.ofWord word)) := by
  simp [setWordAt, bound, write]

end RegisterFile

namespace Calling

theorem Layout.read_agree {left right : RegisterFile} (agree : left.Agree right) (layout : Layout)
    (types : List ValueType) : layout.read types left = layout.read types right := by
  unfold Layout.read
  refine List.map_congr_left ?_
  rintro ⟨type, register⟩ _
  exact congrArg (Value.ofBits type) (agree register)

theorem Value.store_agree {left right : RegisterFile} (agree : left.Agree right) (result : Option Value) :
    (Value.store result left).Agree (Value.store result right) := by
  cases result with
  | none => exact agree
  | some value => exact agree.write _ _

end Calling
end Dynarec
