import Dynarec.Proofs.Compilation.Tracking
import Dynarec.Proofs.Emission.Layout

/-!
The prologue. Parameters take their values from the argument words, the other registers theirs from the register
file; behind it every local holds its register.
-/
namespace Dynarec
namespace RegisterFile

/-- A register that is no vector fits in a word. -/
theorem ofWord_low_read (file : RegisterFile) {register : Register} (scalar : register.cls ≠ .vector) :
    Wide.ofWord (file.read register).low = file.read register := by
  obtain ⟨cls, index⟩ := register
  cases cls with
  | integer => simp [read]
  | vector => exact absurd rfl scalar
  | flag =>
    have small : file.flags[index].toNat % 2 < 2 := Nat.mod_lt _ (by omega)
    simp only [read]
    generalize file.flags[index].toNat % 2 = bit at small ⊢
    have either : bit = 0 ∨ bit = 1 := by omega
    rcases either with rfl | rfl <;> rfl

theorem length_words_le (file : RegisterFile) (registers : List Register) :
    (registers.flatMap file.words).length ≤ 2 * registers.length := by
  rw [List.length_flatMap]
  have each : ∀ count ∈ registers.map fun register => (file.words register).length, count ≤ 2 := by
    intro count member
    obtain ⟨register, _, rfl⟩ := List.mem_map.mp member
    rw [file.length_words]
    unfold Register.words
    split <;> omega
  have total := List.sum_le_card_nsmul _ 2 each
  rwa [List.length_map, smul_eq_mul, Nat.mul_comm] at total

end RegisterFile

namespace Emission
open Ir Interpreter

variable {emission : Emission} {function : Function} {frame : Frame}

/-- A parameter's local takes the value its register had. -/
theorem argument_ok {register : Register} {slot : Local}
    (kind : function.locals[slot]? = some (.of register)) (regs : RegisterFile) (front back : List UInt64)
    (small : front.length + 1 < 2 ^ 32) :
    argument function (front ++ (regs.words register ++ back)) slot front.length = .ok (regs.read register) := by
  unfold argument LocalKind.of at *
  unfold RegisterFile.words
  rw [kind]
  have behind : ∀ (rest : List UInt64) (index : Nat),
      (front ++ rest).getD (front.length + index) 0 = rest.getD index 0 := by
    intro rest index
    rw [List.getD_eq_getElem?_getD, List.getD_eq_getElem?_getD, List.getElem?_append_right (Nat.le_add_right _ _),
      Nat.add_sub_cancel_left]
  have atFront := fun rest => behind rest 0
  rw [Nat.add_zero] at atFront
  obtain ⟨cls, index⟩ := register
  cases cls with
  | vector =>
    have slots : front.length + 1 < 0x100000000 := small
    simp only [slots, if_true, atFront, behind]
    exact congrArg Except.ok (Wide.pack_low_high _)
  | integer =>
    simp only [atFront]
    exact congrArg Except.ok (regs.ofWord_low_read (by simp))
  | flag =>
    simp only [atFront]
    exact congrArg Except.ok (regs.ofWord_low_read (by simp))

/-- Loads of arguments put the registers' values into their locals and leave the other locals alone. -/
theorem glide_params (sound : emission.Allotted) (sameLocals : function.locals = emission.locals)
    (context : Context) (given rest : List Register) {loads : List Op}
    (small : ((given ++ rest).flatMap context.regs.words).length < 2 ^ 32)
    (takes : emission.Takes (given.flatMap context.regs.words).length rest loads)
    (holds : function.Holds frame.position loads) (size : frame.locals.size = emission.locals.size) :
    ∃ last, Glide function ((given ++ rest).flatMap context.regs.words) loads.length frame context last context ∧
      last.position = frame.position + loads.length ∧ last.locals.size = emission.locals.size ∧
        ∀ binding ∈ emission.bindings,
          (binding.register ∈ rest ∨ frame.locals[binding.slot]? = some (context.regs.read binding.register)) →
            last.locals[binding.slot]? = some (context.regs.read binding.register) := by
  induction rest generalizing given loads frame with
  | nil =>
    obtain rfl : loads = [] := takes
    exact ⟨frame, .refl frame context, rfl, size, fun _ _ held => held.resolve_left (by simp)⟩
  | cons register rest ih =>
    obtain ⟨slot, later, ⟨binding, member, here, there⟩, rfl, others⟩ := takes
    subst here there
    have length := context.regs.length_words binding.register
    have positive := binding.register.words_pos
    have split : (given ++ binding.register :: rest).flatMap context.regs.words = given.flatMap context.regs.words ++
        (context.regs.words binding.register ++ rest.flatMap context.regs.words) := by simp
    have kind : function.locals[binding.slot]? = some (.of binding.register) := by
      rw [sameLocals]
      exact sound.kinds binding member
    have argument := argument_ok kind context.regs (given.flatMap context.regs.words)
      (rest.flatMap context.regs.words) (by
        rw [split, List.length_append, List.length_append, length] at small
        omega)
    rw [← split] at argument
    have known : binding.slot < frame.locals.size := size ▸ sound.slot_lt member
    let next : Frame :=
      ⟨frame.position + 1, frame.locals.setIfInBounds binding.slot (context.regs.read binding.register)⟩
    have moves : Glide function ((given ++ binding.register :: rest).flatMap context.regs.words) 1 frame context next
        context := by
      refine glide_op holds fun call => ?_
      simp only [perform, argument]
      have sets : ({ frame with position := frame.position + 1 } : Frame).set binding.slot
          (context.regs.read binding.register) = .ok next := if_pos known
      exact assign_ok sets context
    have joined : (given ++ [binding.register]) ++ rest = given ++ binding.register :: rest := by simp
    have words : ((given ++ [binding.register]).flatMap context.regs.words).length =
        (given.flatMap context.regs.words).length + binding.register.words := by
      simp [length]
    have nextSize : next.locals.size = emission.locals.size := by simpa [next] using size
    have behind : function.Holds next.position later := holds.cons.2
    obtain ⟨last, glides, position, lastSize, held⟩ :=
      ih (given ++ [binding.register]) (by rwa [joined]) (by rwa [words]) behind nextSize
    rw [joined] at glides
    refine ⟨last, ?_, ?_, lastSize, ?_⟩
    · rw [List.length_cons, Nat.add_comm]
      exact moves.trans glides
    · rw [position, List.length_cons]
      simp only [next]
      omega
    · intro other inside cases
      refine held other inside ?_
      by_cases same : other = binding
      · subst same
        exact .inr (by simp [next, known])
      · have apart : binding.slot ≠ other.slot := fun slots => same (sound.unique inside member (.inl slots.symm))
        have different : other.register ≠ binding.register :=
          fun registers => same (sound.unique inside member (.inr registers))
        rcases cases with listed | old
        · exact .inl ((List.mem_cons.mp listed).resolve_left different)
        · exact .inr (by simpa [next, apart] using old)

/-- Behind the prologue the frame stands for the guest as the code found it. -/
theorem glide_prologue (sound : emission.Allotted) (sameLocals : function.locals = emission.locals)
    (givens : ∀ binding ∈ emission.bindings, binding.isParam = true → binding.register ∈ emission.params)
    (context : Context) (small : (emission.params.flatMap context.regs.words).length < 2 ^ 32) {loads : List Op}
    (takes : emission.Takes 0 emission.params loads)
    (holds : function.Holds 0 (loads ++ Expansion.expand emission.bindings [.preload])) (address : UInt64) :
    ∃ last, Glide function (emission.params.flatMap context.regs.words)
        (loads ++ Expansion.expand emission.bindings [.preload]).length (.start function) context last context ∧
      last.position = (loads ++ Expansion.expand emission.bindings [.preload]).length ∧
        emission.Tracks last context ⟨address, context.regs, context.world⟩ := by
  obtain ⟨loading, preloading⟩ := holds.append
  have size : (Frame.start function).locals.size = emission.locals.size := by
    simp [Frame.start, sameLocals]
  obtain ⟨middle, first, atMiddle, middleSize, given⟩ :=
    glide_params sound sameLocals context [] emission.params small takes loading size
  have shape : Expansion.expand emission.bindings [.preload] =
      (emission.bindings.filter (!·.isParam)).map Expansion.load := by
    simp [Expansion.expand, Expansion.expandOp]
  rw [shape] at preloading
  rw [show 0 + loads.length = middle.position from atMiddle.symm] at preloading
  have known : ∀ binding ∈ emission.bindings.filter (!·.isParam), binding.slot < middle.locals.size := by
    intro binding member
    rw [middleSize]
    exact sound.slot_lt (List.mem_filter.mp member).1
  have distinct : ((emission.bindings.filter (!·.isParam)).map Binding.slot).Nodup :=
    sound.slots.sublist (List.filter_sublist.map Binding.slot)
  obtain ⟨last, second, atLast, lastSize, loaded, kept⟩ :=
    glide_loads (emission.params.flatMap context.regs.words) _ preloading context known distinct
  have count : (loads ++ Expansion.expand emission.bindings [.preload]).length =
      loads.length + (emission.bindings.filter (!·.isParam)).length := by
    simp [shape]
  rw [count]
  refine ⟨last, first.trans second, ?_, lastSize.trans middleSize, ?_, fun _ _ => rfl, rfl⟩
  · rw [atLast, atMiddle]
    simp [Frame.start]
  · intro binding member
    by_cases isParam : binding.isParam = true
    · rw [kept binding.slot ?_]
      · exact given binding member (.inl (givens binding member isParam))
      · intro inside
        obtain ⟨other, otherMember, slots⟩ := List.mem_map.mp inside
        obtain ⟨otherInside, notParam⟩ := List.mem_filter.mp otherMember
        obtain rfl := sound.unique otherInside member (.inl slots)
        rw [isParam] at notParam
        cases notParam
    · exact loaded binding (List.mem_filter.mpr ⟨member, by simpa using isParam⟩)

end Emission
end Dynarec
