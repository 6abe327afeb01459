import Dynarec.Proofs.Calling.Layout

/-!
Layouts told from the counts of their classes. Arguments of any number are laid out exactly if neither bank runs out, and
what is written to the registers of a layout is read back from them.
-/
namespace Dynarec

theorem RegisterFile.toNat_truncate (register : Register) (bits : Wide) (plain : register.cls ≠ .flag) :
    (truncate register bits).toNat = bits.toNat % 2 ^ (if register.cls = .vector then 128 else 64) := by
  unfold truncate
  cases cls : register.cls with
  | integer => simp [Wide.toNat_ofWord, Wide.low]
  | vector => simp [Nat.mod_eq_of_lt bits.isLt]
  | flag => exact absurd cls plain

namespace Calling.Layout

/-- How many of the arguments travel in vector registers, or how many in integer registers. -/
def share (vector : Bool) (classes : List RegisterClass) : Nat := classes.countP fun cls => (cls == .vector) == vector

theorem bank_eq (cls : RegisterClass) : bank cls = if cls = .vector then .vector else .integer := by
  cases cls <;> rfl

theorem load_eq_share (classes : List RegisterClass) (cls : RegisterClass) :
    load classes cls = share (cls == .vector) classes := by
  unfold load share
  congr 1
  funext other
  cases cls <;> cases other <;> rfl

theorem fit_iff (classes : List RegisterClass) : Fit classes ↔ share false classes ≤ 8 ∧ share true classes ≤ 8 := by
  unfold Fit
  simp only [load_eq_share]
  constructor
  · exact fun fit => ⟨fit .integer, fit .vector⟩
  · rintro ⟨integers, vectors⟩ (_ | _ | _)
    · exact integers
    · exact vectors
    · exact integers

theorem getElem?_numbered (before rest : List RegisterClass) (index : Nat) : (numbered before rest)[index]? =
    rest[index]?.map fun cls => .ofNat (bank cls) (load (before ++ rest.take index) cls) := by
  induction rest generalizing before index with
  | nil => rfl
  | cons cls rest ih =>
    cases index with
    | zero => simp [numbered]
    | succ index => simp [numbered, ih]

theorem ofClasses_of_fit {classes : List RegisterClass} (fit : Fit classes) :
    ofClasses classes = .ok ⟨numbered [] classes⟩ := by
  have whole : Fit ([] ++ classes) := fit
  unfold ofClasses
  rw [assign_of_fit classes whole]
  rfl

theorem ofClasses_of_not_fit {classes : List RegisterClass} (full : ¬ Fit classes) :
    ∃ front cls back, classes = front ++ cls :: back ∧ Fit front ∧ load front cls = maxArguments ∧
      ofClasses classes = .error ⟨bank cls, load classes cls⟩ := by
  have empty : Fit [] := fun _ => Nat.zero_le _
  obtain ⟨front, cls, back, split, fit, taken, refused⟩ := assign_of_not_fit classes empty full
  refine ⟨front, cls, back, split, fit, taken, ?_⟩
  unfold ofClasses
  rw [refused]
  rfl

theorem numbered_share {classes : List RegisterClass} (fit : Fit classes) {index : Nat} {cls : RegisterClass}
    (entry : classes[index]? = some cls) : ∃ register, (numbered [] classes)[index]? = some register ∧
      register.cls = (if cls = .vector then .vector else .integer) ∧
      register.index.val = share (cls == .vector) (classes.take index) := by
  refine ⟨.ofNat (bank cls) (load (classes.take index) cls), ?_, bank_eq cls, ?_⟩
  · rw [getElem?_numbered, entry, List.nil_append]
    rfl
  · have split : classes = classes.take index ++ cls :: classes.drop (index + 1) := by
      obtain ⟨inside, rfl⟩ := List.getElem?_eq_some_iff.mp entry
      rw [List.cons_getElem_drop_succ, List.take_append_drop]
    rw [split] at fit
    rw [← load_eq_share]
    exact Nat.mod_eq_of_lt (Nat.lt_trans fit.free (by decide))

/-- The registers given out are wide enough for their bank, whatever is written to them. -/
theorem Assigned.reads {classes : List RegisterClass} {registers : List Register}
    (assigned : Assigned [] classes registers) {bits : List Wide} (same : bits.length = classes.length)
    (file : RegisterFile) :
    registers.map (fun register => ((file.writeAll (registers.zip bits)).read register).toNat) =
      List.zipWith (fun cls word => word.toNat % 2 ^ (if cls = .vector then 128 else 64)) classes bits := by
  have length : registers.length = classes.length := by simpa using congrArg List.length assigned.classes
  have read := map_read_writeAll (same.trans length.symm) assigned.distinct file
  have numbers := congrArg (List.map BitVec.toNat) read
  rw [List.map_map] at numbers
  refine numbers.trans (List.ext_getElem (by simp [length]) fun index inside _ => ?_)
  have known : index < registers.length := by simp at inside; omega
  have cls : registers[index].cls = bank classes[index] := by
    simpa [known, length ▸ known] using congrArg (·[index]?) assigned.classes
  have plain : registers[index].cls ≠ .flag := by
    rw [cls, bank_eq]
    split <;> simp
  simp only [List.getElem_map, List.getElem_zipWith]
  rw [RegisterFile.toNat_truncate _ _ plain, cls, bank_eq]
  congr 2
  split <;> simp_all

/-- Arguments are laid out exactly if at most eight of them travel in integer registers and at most eight in vector
registers. Each then has the register of its bank that is numbered by the arguments before it in that bank; distinct
registers are read as they were written, as far as they are wide enough, and no other changes. Else the bank is reported
whose ninth argument comes first, with the number of all its arguments. -/
theorem ofClasses_exact (classes : List RegisterClass) :
    ((∃ layout, ofClasses classes = .ok layout) ↔ share false classes ≤ 8 ∧ share true classes ≤ 8) ∧
      (∀ layout, ofClasses classes = .ok layout →
        layout.registers.length = classes.length ∧ layout.registers.Nodup ∧
        (∀ index cls, classes[index]? = some cls → ∃ register, layout.registers[index]? = some register ∧
          register.cls = (if cls = .vector then .vector else .integer) ∧
          register.index.val = share (cls == .vector) (classes.take index)) ∧
        (∀ (bits : List Wide) (regs : RegisterFile), bits.length = classes.length →
          layout.registers.map (fun register => ((regs.writeAll (layout.registers.zip bits)).read register).toNat) =
            List.zipWith (fun cls word => word.toNat % 2 ^ (if cls = .vector then 128 else 64)) classes bits ∧
          ∀ register ∉ layout.registers, (regs.writeAll (layout.registers.zip bits)).raw register = regs.raw register) ∧
        ∀ (values : List Value) (regs : RegisterFile), values.map (·.type.cls) = classes →
          layout.read (values.map Value.type) (layout.write values regs) = values) ∧
      ∀ error, ofClasses classes = .error error → ∃ front cls back, classes = front ++ cls :: back ∧
        share (cls == .vector) front = 8 ∧ share (cls != .vector) front ≤ 8 ∧
          error = ⟨if cls = .vector then .vector else .integer, share (cls == .vector) classes⟩ := by
  by_cases fit : Fit classes
  · have placed := ofClasses_of_fit fit
    refine ⟨iff_of_true ⟨_, placed⟩ ((fit_iff classes).mp fit), ?_, ?_⟩
    · rintro layout same
      obtain rfl := Except.ok.inj (placed.symm.trans same)
      have assigned : Assigned [] classes (numbered [] classes) := assigned_numbered fit
      have length : (numbered [] classes).length = classes.length := by
        simpa using congrArg List.length assigned.classes
      refine ⟨length, assigned.distinct, fun index cls => numbered_share fit, ?_, ?_⟩
      · exact fun bits regs same => ⟨assigned.reads same regs, fun register outside =>
          regs.raw_writeAll_other (mt mem_of_mem_keys outside)⟩
      · intro values regs typed
        refine read_writeAll values (numbered [] classes) ?_ assigned.distinct regs
        rw [assigned.classes, ← typed, List.map_map]
        exact List.map_congr_left fun value _ => bank_cls value.type
    · intro error refused
      cases placed.symm.trans refused
  · obtain ⟨front, cls, back, split, room, taken, refused⟩ := ofClasses_of_not_fit fit
    refine ⟨iff_of_false ?_ (mt (fit_iff classes).mpr fit), ?_, ?_⟩
    · rintro ⟨layout, placed⟩
      cases placed.symm.trans refused
    · intro layout placed
      cases placed.symm.trans refused
    · intro error same
      obtain rfl := Except.error.inj (refused.symm.trans same)
      rw [load_eq_share] at taken
      refine ⟨front, cls, back, split, taken, ?_, by rw [bank_eq, load_eq_share]⟩
      cases cls
      · exact ((fit_iff front).mp room).2
      · exact ((fit_iff front).mp room).1
      · exact ((fit_iff front).mp room).2

/-- All ten are counted, though the loop stops at the ninth; the vector bank is not full. -/
example : ofClasses (.vector :: List.replicate 7 .integer ++ [.flag, .integer, .vector, .flag]) =
    .error ⟨.integer, 10⟩ := by rfl

end Calling.Layout
end Dynarec
