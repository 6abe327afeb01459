import Dynarec.Calling.Host
import Dynarec.Proofs.Register.Agreement

/-!
Layouts of up to eight arguments. Every argument has a register of its own among the first eight of its bank, and is
read from there as it was written.
-/
namespace Dynarec

namespace RegisterFile

theorem raw_write_other (file : RegisterFile) {written other : Register} (bits : Wide) (apart : written ≠ other) :
    (file.write written bits).raw other = file.raw other := by
  obtain ⟨writtenClass, writtenIndex⟩ := written
  obtain ⟨otherClass, otherIndex⟩ := other
  cases writtenClass <;> cases otherClass <;> simp only [raw, write] <;>
    (have indices : writtenIndex.val ≠ otherIndex.val := by
      intro same
      exact apart (by rw [Fin.ext same])) <;>
    simp [indices]

theorem writeAll_cons (file : RegisterFile) (register : Register) (bits : Wide) (rest : List (Register × Wide)) :
    file.writeAll ((register, bits) :: rest) = (file.write register bits).writeAll rest := rfl

/-- What no single write changes all of them leave as it is. -/
theorem writeAll_keeps {α : Type} (view : RegisterFile → α) {values : List (Register × Wide)}
    (kept : ∀ value ∈ values, ∀ file : RegisterFile, view (file.write value.1 value.2) = view file)
    (file : RegisterFile) : view (file.writeAll values) = view file := by
  induction values generalizing file with
  | nil => rfl
  | cons value rest ih =>
    have later : ∀ other ∈ rest, ∀ file : RegisterFile, view (file.write other.1 other.2) = view file :=
      fun other member => kept other (List.mem_cons_of_mem _ member)
    exact (ih later (file.write value.1 value.2)).trans (kept value List.mem_cons_self file)

theorem read_writeAll_other (file : RegisterFile) {values : List (Register × Wide)} {register : Register}
    (outside : register ∉ values.map Prod.fst) : (file.writeAll values).read register = file.read register := by
  refine writeAll_keeps (·.read register) (fun value member file => ?_) file
  exact file.read_write_other value.2 fun same => outside (List.mem_map.mpr ⟨value, member, same⟩)

theorem raw_writeAll_other (file : RegisterFile) {values : List (Register × Wide)} {register : Register}
    (outside : register ∉ values.map Prod.fst) : (file.writeAll values).raw register = file.raw register := by
  refine writeAll_keeps (·.raw register) (fun value member file => ?_) file
  exact file.raw_write_other value.2 fun same => outside (List.mem_map.mpr ⟨value, member, same⟩)

end RegisterFile

namespace Calling

@[simp] theorem bank_bank (cls : RegisterClass) : bank (bank cls) = bank cls := by cases cls <;> rfl

@[simp] theorem bank_cls (type : ValueType) : bank type.cls = type.cls := by cases type <;> rfl

theorem Value.truncate_toBits (value : Value) {register : Register} (cls : register.cls = value.type.cls) :
    RegisterFile.truncate register value.toBits = value.toBits := by
  obtain ⟨_, index⟩ := register
  cases cls
  cases value <;> simp [RegisterFile.truncate, Value.toBits, Value.type]

namespace Layout

/-- The registers of a bank that are given out are those not taken before. -/
structure Assigned (before rest : List RegisterClass) (registers : List Register) : Prop where
  classes : registers.map Register.cls = rest.map bank
  distinct : registers.Nodup
  range : ∀ register ∈ registers, load before register.cls ≤ register.index.val ∧ register.index.val < maxArguments

theorem load_append (before after : List RegisterClass) (cls : RegisterClass) :
    load (before ++ after) cls = load before cls + load after cls := List.countP_append

theorem load_singleton {cls other : RegisterClass} : load [cls] other = if bank cls = bank other then 1 else 0 := by
  simp [load, List.countP_singleton]

/-- No bank carries more arguments than it has registers. -/
def Fit (classes : List RegisterClass) : Prop := ∀ cls, load classes cls ≤ maxArguments

/-- The next argument finds a register free. -/
theorem Fit.free {before rest : List RegisterClass} {cls : RegisterClass} (fit : Fit (before ++ cls :: rest)) :
    load before cls < maxArguments := by
  have most := fit cls
  rw [List.append_cons, load_append, load_append, load_singleton, if_pos rfl] at most
  omega

/-- Each argument takes the register of its bank that is numbered by the arguments the bank carries before it. -/
def numbered (before : List RegisterClass) : List RegisterClass → List Register
  | [] => []
  | cls :: rest => .ofNat (bank cls) (load before cls) :: numbered (before ++ [cls]) rest

theorem assign_cons (all before : List RegisterClass) {cls : RegisterClass} (rest : List RegisterClass)
    (free : load before cls < maxArguments) : assign all before (cls :: rest) =
      (assign all (before ++ [cls]) rest).map (.ofNat (bank cls) (load before cls) :: ·) := by
  rw [assign, if_neg (Nat.not_le.mpr free)]
  cases assign all (before ++ [cls]) rest <;> rfl

theorem assign_of_fit (all : List RegisterClass) {rest before : List RegisterClass} (fit : Fit (before ++ rest)) :
    assign all before rest = .ok (numbered before rest) := by
  induction rest generalizing before with
  | nil => rfl
  | cons cls rest ih =>
    rw [assign_cons _ _ _ fit.free, ih (by rwa [← List.append_cons])]
    rfl

/-- Where a bank runs out, the first argument that finds it full is refused. -/
theorem assign_of_not_fit (all : List RegisterClass) {rest before : List RegisterClass} (room : Fit before)
    (full : ¬ Fit (before ++ rest)) : ∃ front cls back, rest = front ++ cls :: back ∧ Fit (before ++ front) ∧
      load (before ++ front) cls = maxArguments ∧ assign all before rest = .error ⟨bank cls, load all cls⟩ := by
  induction rest generalizing before with
  | nil => exact absurd room (by rwa [List.append_nil] at full)
  | cons cls rest ih =>
    by_cases free : load before cls < maxArguments
    · have more : Fit (before ++ [cls]) := by
        intro other
        have most := room other
        rw [load_append, load_singleton]
        split
        · next same =>
          have equal : load before other = load before cls := by
            unfold load
            rw [same]
          omega
        · omega
      obtain ⟨front, last, back, rfl, fit, taken, refused⟩ := ih more (by rwa [← List.append_cons])
      rw [List.append_assoc, List.singleton_append] at fit taken
      refine ⟨cls :: front, last, back, rfl, fit, taken, ?_⟩
      rw [assign_cons _ _ _ free, refused]
      rfl
    · have taken : load before cls = maxArguments := Nat.le_antisymm (room cls) (Nat.not_lt.mp free)
      refine ⟨[], cls, rest, rfl, by rwa [List.append_nil], by rwa [List.append_nil], ?_⟩
      rw [assign, if_pos taken.ge]

/-- What is given out lies above what came before, since a bank's load is the number it gives out next. -/
theorem assigned_numbered {rest before : List RegisterClass} (fit : Fit (before ++ rest)) :
    Assigned before rest (numbered before rest) := by
  induction rest generalizing before with
  | nil => exact ⟨rfl, List.nodup_nil, nofun⟩
  | cons cls rest ih =>
    have later : Assigned (before ++ [cls]) rest (numbered (before ++ [cls]) rest) :=
      ih (by rwa [← List.append_cons])
    have index : (Register.ofNat (bank cls) (load before cls)).index.val = load before cls :=
      Nat.mod_eq_of_lt (Nat.lt_trans fit.free (by decide))
    have same : load before (bank cls) = load before cls := by
      unfold load
      rw [bank_bank]
    refine ⟨congrArg _ later.classes, List.nodup_cons.mpr ⟨fun again => ?_, later.distinct⟩, ?_⟩
    · have above := (later.range _ again).1
      rw [index] at above
      change load (before ++ [cls]) (bank cls) ≤ _ at above
      rw [load_append, load_singleton, if_pos (bank_bank cls).symm, same] at above
      omega
    · intro register member
      rcases List.mem_cons.mp member with rfl | member
      · rw [index]
        exact ⟨Nat.le_of_eq same, fit.free⟩
      · obtain ⟨least, most⟩ := later.range register member
        rw [load_append] at least
        exact ⟨by omega, most⟩

theorem ofClasses_ok (classes : List RegisterClass) (few : classes.length ≤ maxArguments) :
    ∃ layout, ofClasses classes = .ok layout ∧ Assigned [] classes layout.registers := by
  have fit : Fit ([] ++ classes) := fun _ => List.countP_le_length.trans few
  refine ⟨⟨numbered [] classes⟩, ?_, assigned_numbered fit⟩
  unfold ofClasses
  rw [assign_of_fit classes fit]
  rfl

theorem Assigned.link {before rest : List RegisterClass} {registers : List Register}
    (assigned : Assigned before rest registers) : Register.link ∉ registers := by
  intro member
  exact absurd (assigned.range _ member).2 (by decide)

theorem mem_of_mem_keys {values : List Wide} {registers : List Register} {register : Register}
    (member : register ∈ (registers.zip values).map Prod.fst) : register ∈ registers := by
  obtain ⟨pair, inside, rfl⟩ := List.mem_map.mp member
  exact (List.of_mem_zip inside).1

/-- Distinct registers are read as they were written, each as far as it is wide enough. -/
theorem map_read_writeAll {registers : List Register} {bits : List Wide} (same : bits.length = registers.length)
    (distinct : registers.Nodup) (file : RegisterFile) :
    registers.map (file.writeAll (registers.zip bits)).read = List.zipWith RegisterFile.truncate registers bits := by
  induction registers generalizing bits file with
  | nil => rfl
  | cons register others ih =>
    obtain ⟨word, rest, rfl⟩ := List.exists_cons_of_length_eq_add_one same
    obtain ⟨outside, distinct⟩ := List.nodup_cons.mp distinct
    have keys : register ∉ (others.zip rest).map Prod.fst := mt mem_of_mem_keys outside
    simp only [List.zip_cons_cons, List.zipWith_cons_cons, List.map_cons, RegisterFile.writeAll_cons]
    rw [RegisterFile.read_writeAll_other _ keys, RegisterFile.read_write_same,
      ih (Nat.succ.inj same) distinct]

theorem read_writeAll (values : List Value) (registers : List Register)
    (classes : registers.map Register.cls = values.map fun value => value.type.cls) (distinct : registers.Nodup)
    (file : RegisterFile) :
    ((values.map Value.type).zip registers).map (fun (type, register) => Value.ofBits type
      ((file.writeAll (registers.zip (values.map Value.toBits))).read register)) = values := by
  have same : registers.length = values.length := by simpa using congrArg List.length classes
  have read := map_read_writeAll (by simpa using same.symm : (values.map Value.toBits).length = _) distinct file
  refine List.ext_getElem (by simp [same]) fun index _ inside => ?_
  have known : index < registers.length := by rwa [same]
  have cls : registers[index].cls = values[index].type.cls := by
    simpa [known, inside] using congrArg (·[index]?) classes
  have here : (file.writeAll (registers.zip (values.map Value.toBits))).read registers[index] =
      RegisterFile.truncate registers[index] values[index].toBits := by
    simpa [known, inside] using congrArg (·[index]?) read
  simp only [List.getElem_map, List.getElem_zip]
  rw [here, values[index].truncate_toBits cls, Value.ofBits_toBits]

end Layout
end Calling
end Dynarec
