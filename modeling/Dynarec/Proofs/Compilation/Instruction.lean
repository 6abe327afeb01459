import Dynarec.Proofs.Compilation.Tracking
import Dynarec.Proofs.Emission.Instruction
import Dynarec.Proofs.Memory.Access

/-!
The code of instructions that go on to the next one. It brings a frame that stands for the guest before the
instruction to one that stands for it afterwards; only a load past the top of the address space halts.
-/
namespace Dynarec
namespace Emission
open Ir Semantics Interpreter

/-- Code of that length goes on behind itself, where the guest's state is `after`. -/
def Reaches (emission : Emission) (function : Function) (args : List UInt64) (frame : Frame) (context : Context)
    (length : Nat) (after : State) : Prop :=
  ∃ count last between, Glide function args count frame context last between ∧
    last.position = frame.position + length ∧ emission.Tracks last between after ∧ between.depth = context.depth

/-- Code that comes to a load past the top of the address space. -/
def Overflows (function : Function) (args : List UInt64) (frame : Frame) (context : Context) : Prop :=
  ∃ count last between, Glide function args count frame context last between ∧
    ∀ call, step call function args last between = .error .overflow

variable {emission : Emission} {function : Function} {args : List UInt64} {frame : Frame} {context : Context}
  {state : State}

theorem reaches_here (tracks : emission.Tracks frame context state) :
    emission.Reaches function args frame context 0 state :=
  ⟨0, frame, context, .refl frame context, rfl, tracks, rfl⟩

theorem Reaches.after {count front back : Nat} {next : Frame} {between : Context} {after : State}
    (rest : emission.Reaches function args next between back after)
    (first : Glide function args count frame context next between)
    (position : next.position = frame.position + front) (depth : between.depth = context.depth) :
    emission.Reaches function args frame context (front + back) after := by
  obtain ⟨more, last, reached, glides, finalPosition, tracks, same⟩ := rest
  refine ⟨count + more, last, reached, first.trans glides, ?_, tracks, same.trans depth⟩
  rw [finalPosition, position, Nat.add_assoc]

theorem Overflows.after {count : Nat} {next : Frame} {between : Context}
    (rest : Overflows function args next between) (first : Glide function args count frame context next between) :
    Overflows function args frame context := by
  obtain ⟨more, last, reached, glides, halts⟩ := rest
  exact ⟨count + more, last, reached, first.trans glides, halts⟩

theorem Tracks.stepped (tracks : emission.Tracks frame context state) :
    emission.Tracks { frame with position := frame.position + 1 } context state :=
  tracks.at (frame.position + 1) state.address

/-- An operation that gives a register's local its value and leaves another world. -/
theorem reaches_assign_in (tracks : emission.Tracks frame context state) (sound : emission.Allotted) {op : Op}
    {rest : List Op} (holds : function.Holds frame.position (op :: rest)) {register : Register} {dst : Local}
    (bound : emission.Binds register dst) (bits : Wide) (fits : RegisterFile.truncate register bits = bits)
    (world : World)
    (performs : ∀ call, perform call function args { frame with position := frame.position + 1 } context op =
      assign { frame with position := frame.position + 1 } { context with world } dst bits) :
    emission.Reaches function args frame context 1 (({ state with world } : State).set register bits) := by
  obtain ⟨sets, after⟩ := (tracks.stepped.inWorld world).set sound bound fits
  refine ⟨1, _, { context with world }, glide_op holds fun call => ?_, rfl, after, rfl⟩
  rw [performs call, assign_ok sets]

/-- An operation that gives a register's local its value. -/
theorem reaches_assign (tracks : emission.Tracks frame context state) (sound : emission.Allotted) {op : Op}
    {rest : List Op} (holds : function.Holds frame.position (op :: rest)) {register : Register} {dst : Local}
    (bound : emission.Binds register dst) (bits : Wide) (fits : RegisterFile.truncate register bits = bits)
    (performs : ∀ call, perform call function args { frame with position := frame.position + 1 } context op =
      assign { frame with position := frame.position + 1 } context dst bits) :
    emission.Reaches function args frame context 1 (state.set register bits) := by
  obtain ⟨sets, after⟩ := tracks.stepped.set sound bound fits
  refine ⟨1, _, context, glide_op holds fun call => ?_, rfl, after, rfl⟩
  rw [performs call, assign_ok sets context]

theorem reaches_scratch (tracks : emission.Tracks frame context state) {op : Op} {rest : List Op}
    (holds : function.Holds frame.position (op :: rest)) {dst : Local} (free : emission.Scratch dst) (bits : Wide)
    (performs : ∀ call, perform call function args { frame with position := frame.position + 1 } context op =
      assign { frame with position := frame.position + 1 } context dst bits) :
    ∃ last, Glide function args 1 frame context last context ∧ last.position = frame.position + 1 ∧
      emission.Tracks last context state ∧ last.get dst = .ok bits ∧
        ∀ other, other ≠ dst → last.get other = frame.get other := by
  obtain ⟨sets, after⟩ := tracks.stepped.setScratch free bits
  refine ⟨_, glide_op holds fun call => ?_, rfl, after, get_set_same sets, ?_⟩
  · rw [performs call, assign_ok sets context]
  · intro other apart
    have kept := get_set_other sets apart.symm
    exact kept

theorem truncate_word (index : Nat) (word : UInt64) :
    RegisterFile.truncate (.int index) (.ofWord word) = .ofWord word := by
  simp [RegisterFile.truncate, Register.int, Register.ofNat]

theorem truncate_truth (register : Register) (scalar : register.cls ≠ .vector) (truth : Bool) :
    RegisterFile.truncate register (if truth then 1 else 0) = if truth then 1 else 0 := by
  obtain ⟨cls, index⟩ := register
  cases cls with
  | integer => cases truth <;> rfl
  | vector => exact absurd rfl scalar
  | flag => cases truth <;> rfl

/-- Both sources of an operation on words. -/
theorem reaches_binary (tracks : emission.Tracks frame context state) (sound : emission.Allotted) {op : BinaryOp}
    {one two : Register} {index : Nat} {lhs rhs dst : Local} (left : emission.Binds one lhs)
    (right : emission.Binds two rhs) (result : emission.Binds (.int index) dst)
    (holds : function.Holds frame.position [.binary op dst lhs rhs]) :
    emission.Reaches function args frame context 1
      (state.setWord (.int index) (op.apply (state.word one) (state.word two))) := by
  refine reaches_assign tracks sound holds result _ (truncate_word index _) fun call => ?_
  simp only [perform, tracks.stepped.word left, tracks.stepped.word right]
  rfl

theorem reaches_binaryImm (tracks : emission.Tracks frame context state) (sound : emission.Allotted)
    {op : BinaryOp} {one : Register} {index : Nat} {lhs dst : Local} {imm : UInt64} (left : emission.Binds one lhs)
    (result : emission.Binds (.int index) dst) (holds : function.Holds frame.position [.binaryImm op dst lhs imm]) :
    emission.Reaches function args frame context 1
      (state.setWord (.int index) (op.apply (state.word one) imm)) := by
  refine reaches_assign tracks sound holds result _ (truncate_word index _) fun call => ?_
  simp only [perform, tracks.stepped.word left]
  rfl

theorem reaches_moves (tracks : emission.Tracks frame context state) (sound : emission.Allotted) {slot : Local}
    {register : Register} (bound : emission.Binds register slot) (count : Nat)
    (holds : function.Holds frame.position (List.replicate count (.move slot slot))) :
    emission.Reaches function args frame context count state := by
  induction count generalizing frame context with
  | zero => exact reaches_here tracks
  | succ count ih =>
    have first : emission.Reaches function args frame context 1 (state.set register (state.regs.read register)) := by
      refine reaches_assign tracks sound holds bound _ (RegisterFile.truncate_read _ _) fun call => ?_
      simp only [perform, tracks.stepped.get bound]
      rfl
    have same : (state.set register (state.regs.read register)).regs.Agree state.regs := by
      intro other
      unfold State.set
      rw [RegisterFile.read_write, RegisterFile.truncate_read]
      split
      · next same => rw [same]
      · rfl
    obtain ⟨moved, last, between, glides, position, tracked, depth⟩ := first
    have behind := holds.cons.2
    rw [← position] at behind
    rw [Nat.add_comm]
    exact (ih (tracked.congr same rfl) behind).after glides position depth

theorem reaches_compare (tracks : emission.Tracks frame context state) (sound : emission.Allotted)
    {one : Register} {lhs rhs dst : Local} {imm : UInt64} (left : emission.Binds one lhs)
    (free : emission.Scratch rhs) (result : emission.Binds .zero dst)
    (holds : function.Holds frame.position [.const rhs imm, .compare .eq dst lhs rhs]) :
    emission.Reaches function args frame context 2 (state.setTruth .zero (state.word one == imm)) := by
  obtain ⟨next, first, position, tracked, held, _⟩ :=
    reaches_scratch tracks holds free (.ofWord imm) fun _ => by simp only [perform]
  have behind : function.Holds next.position [.compare .eq dst lhs rhs] := by
    rw [position]
    exact holds.cons.2
  have rest : emission.Reaches function args next context 1 (state.setTruth .zero (state.word one == imm)) := by
    refine reaches_assign tracked sound behind result _ (truncate_truth .zero (by decide) _) fun call => ?_
    simp only [perform, tracked.stepped.word left, word_of_get held, Wide.low_ofWord]
    rfl
  exact rest.after first position rfl

theorem reaches_extract (tracks : emission.Tracks frame context state) (sound : emission.Allotted)
    {one : Register} {index : Nat} {src scratch dst : Local} (source : emission.Binds one src)
    (free : emission.Scratch scratch) (result : emission.Binds (.int index) dst)
    (holds : function.Holds frame.position [.vectorExtract scratch src false, .move dst scratch]) :
    emission.Reaches function args frame context 2 (state.setWord (.int index) (state.word one)) := by
  have extracts : ∀ call, perform call function args { frame with position := frame.position + 1 } context
      (.vectorExtract scratch src false) =
        assign { frame with position := frame.position + 1 } context scratch (.ofWord (state.word one)) := by
    intro call
    simp only [perform, tracks.stepped.get source]
    rfl
  obtain ⟨next, first, position, tracked, held, _⟩ := reaches_scratch tracks holds free _ extracts
  have behind : function.Holds next.position [.move dst scratch] := by
    rw [position]
    exact holds.cons.2
  have rest : emission.Reaches function args next context 1 (state.setWord (.int index) (state.word one)) := by
    refine reaches_assign tracked sound behind result _ (truncate_word index _) fun call => ?_
    have same : ({ next with position := next.position + 1 } : Frame).get scratch =
        .ok (.ofWord (state.word one)) := held
    simp only [perform, same]
    rfl
  exact rest.after first position rfl

theorem load_ok {context : Context} {address : UInt64} {size word : Nat} {world : World}
    (reads : context.world.readNat address size = (.ok word, world)) :
    context.load address size = .ok (word, { context with world }) := by
  obtain ⟨regs, here, depth⟩ := context
  unfold Context.load
  dsimp only at reads ⊢
  rw [reads]

theorem load_overflow {context : Context} {address : UInt64} {size : Nat} {stop : Overflow} {world : World}
    (reads : context.world.readNat address size = (.error stop, world)) :
    context.load address size = .error .overflow := by
  obtain ⟨regs, here, depth⟩ := context
  cases stop
  unfold Context.load
  dsimp only at reads ⊢
  rw [reads]

theorem swap_ok {context : Context} {address : UInt64} {expected desired : UInt32} {swapped : Bool} {world : World}
    (swaps : context.world.compareAndSwap address expected desired = (swapped, world)) :
    context.compareAndSwap address expected desired = (swapped, { context with world }) := by
  obtain ⟨regs, here, depth⟩ := context
  unfold Context.compareAndSwap
  dsimp only at swaps ⊢
  rw [swaps]

section Load
variable {one : Register} {index : Nat} {address dst : Local} {world : World}

theorem perform_load (tracks : emission.Tracks frame context state) (place : emission.Binds one address)
    (call : UInt64 → Context → Outcome (UInt64 × Context)) :
    perform call function args { frame with position := frame.position + 1 } context (.load .w64 dst address) =
      (context.load (state.word one) 8 >>= fun loaded =>
        assign { frame with position := frame.position + 1 } loaded.2 dst (BitVec.ofNat 128 loaded.1)) := by
  simp only [perform, tracks.stepped.word place]
  rfl

theorem reaches_load (tracks : emission.Tracks frame context state) (sound : emission.Allotted)
    (place : emission.Binds one address) (result : emission.Binds (.int index) dst)
    (holds : function.Holds frame.position [.load .w64 dst address]) {word : Nat}
    (reads : state.world.readNat (state.word one) 8 = (.ok word, world)) :
    emission.Reaches function args frame context 1
      (({ state with world } : State).setWord (.int index) (UInt64.ofNat word)) := by
  have small : word < 2 ^ 64 := by
    have bound : (state.world.memory.readNat (state.word one) 8).1 = .ok word := congrArg Prod.fst reads
    simpa using Memory.readNat_lt bound
  have wide : BitVec.ofNat 128 word = Wide.ofWord (UInt64.ofNat word) := by
    unfold Wide.ofWord
    rw [UInt64.toNat_ofNat', Nat.mod_eq_of_lt small]
  rw [← tracks.world] at reads
  refine reaches_assign_in tracks sound holds result _ (truncate_word index _) world fun call => ?_
  rw [perform_load tracks place, load_ok reads, ← wide]
  rfl

/-- A load past the top of the address space stops. -/
theorem overflows_load (tracks : emission.Tracks frame context state) (place : emission.Binds one address)
    (holds : function.Holds frame.position [.load .w64 dst address]) {stop : Overflow}
    (reads : state.world.readNat (state.word one) 8 = (.error stop, world)) :
    Overflows function args frame context := by
  rw [← tracks.world] at reads
  refine ⟨0, frame, context, .refl frame context, fun call => ?_⟩
  rw [step_at holds call context, perform_load tracks place, load_overflow reads]
  rfl

end Load

theorem reaches_store (tracks : emission.Tracks frame context state)
    {one two : Register} {address src : Local} (place : emission.Binds one address) (source : emission.Binds two src)
    (holds : function.Holds frame.position [.store .w64 address src]) :
    emission.Reaches function args frame context 1
      { state with world := state.world.writeNat (state.word one) 8 (state.word two).toNat } := by
  refine ⟨1, _, _, glide_op holds fun call => ?_, rfl, tracks.stepped.inWorld _, rfl⟩
  simp only [perform, tracks.stepped.word place, tracks.stepped.word source, ← tracks.world]
  rfl

theorem reaches_swap (tracks : emission.Tracks frame context state) (sound : emission.Allotted)
    {one two three : Register} {index : Nat} {address expected desired dst : Local}
    (place : emission.Binds one address) (old : emission.Binds two expected) (new : emission.Binds three desired)
    (result : emission.Binds (.int index) dst)
    (holds : function.Holds frame.position [.cas32 dst address expected desired]) {swapped : Bool} {world : World}
    (swaps : state.world.compareAndSwap (state.word one) (state.word two).toUInt32 (state.word three).toUInt32 =
      (swapped, world)) :
    emission.Reaches function args frame context 1
      (({ state with world } : State).setTruth (.int index) swapped) := by
  have scalar : (Register.int index).cls ≠ .vector := by
    intro vector
    cases vector
  refine reaches_assign_in tracks sound holds result _ (truncate_truth (.int index) scalar swapped) world
    fun call => ?_
  simp only [perform, tracks.stepped.word place, tracks.stepped.word old, tracks.stepped.word new]
  rw [← tracks.world] at swaps
  exact congrArg (fun answer : Bool × Context => assign { frame with position := frame.position + 1 } answer.2 dst
    (if answer.1 then 1 else 0)) (swap_ok swaps)

/-- The code of an instruction that goes on to the next does what the instruction does. -/
theorem Tracks.executes (tracks : emission.Tracks frame context state) (sound : emission.Allotted)
    {instruction : Guest.Instruction} {added : List Op} (code : emission.CodeOf instruction added)
    (sequential : instruction.endsBlock = false) (holds : function.Holds frame.position added) :
    (∃ after, effect? instruction state = some after ∧
        emission.Reaches function args frame context added.length after) ∨
      (effect? instruction state = none ∧ Overflows function args frame context) := by
  unfold CodeOf at code
  unfold Guest.Instruction.endsBlock at sequential
  unfold effect?
  revert code sequential
  cases instruction.form <;> intro code sequential
  case movz =>
    obtain ⟨dst, bound, rfl⟩ := code
    refine .inl ⟨_, rfl, reaches_assign tracks sound holds bound _ (truncate_word _ _) fun _ => ?_⟩
    simp only [perform]
  case add =>
    obtain ⟨lhs, rhs, dst, left, right, result, rfl⟩ := code
    have reaches : emission.Reaches function args frame context 1 _ :=
      reaches_binary tracks sound left right result holds
    exact .inl ⟨_, rfl, reaches⟩
  case sub =>
    obtain ⟨lhs, rhs, dst, left, right, result, rfl⟩ := code
    have reaches : emission.Reaches function args frame context 1 _ :=
      reaches_binary tracks sound left right result holds
    exact .inl ⟨_, rfl, reaches⟩
  case addImm =>
    obtain ⟨lhs, dst, left, result, rfl⟩ := code
    have reaches : emission.Reaches function args frame context 1 _ :=
      reaches_binaryImm tracks sound left result holds
    exact .inl ⟨_, rfl, reaches⟩
  case subImm =>
    obtain ⟨lhs, dst, left, result, rfl⟩ := code
    have reaches : emission.Reaches function args frame context 1 _ :=
      reaches_binaryImm tracks sound left result holds
    exact .inl ⟨_, rfl, reaches⟩
  case cmpImm =>
    obtain ⟨lhs, rhs, dst, left, free, result, rfl⟩ := code
    exact .inl ⟨_, rfl, reaches_compare tracks sound left free result holds⟩
  case ldr =>
    obtain ⟨address, dst, place, result, rfl⟩ := code
    rcases reads : state.world.readNat (state.word (instruction.x 1)) 8 with ⟨_ | word, world⟩
    · refine .inr ⟨?_, overflows_load tracks place holds reads⟩
      dsimp only
      rw [reads]
    · refine .inl ⟨_, ?_, reaches_load tracks sound place result holds reads⟩
      dsimp only
      rw [reads]
      rfl
  case str =>
    obtain ⟨address, src, place, source, rfl⟩ := code
    exact .inl ⟨_, rfl, reaches_store tracks place source holds⟩
  case cas =>
    obtain ⟨address, expected, desired, dst, place, old, new, result, rfl⟩ := code
    exact .inl ⟨_, rfl, reaches_swap tracks sound place old new result holds rfl⟩
  case nop =>
    subst code
    exact .inl ⟨state, rfl, reaches_here tracks⟩
  case insPair =>
    obtain ⟨low, high, dst, left, right, result, rfl⟩ := code
    refine .inl ⟨_, rfl, reaches_assign tracks sound holds result _ rfl fun call => ?_⟩
    simp only [perform, tracks.stepped.word left, tracks.stepped.word right]
    rfl
  case eorV =>
    obtain ⟨lhs, rhs, dst, left, right, result, rfl⟩ := code
    refine .inl ⟨_, rfl, reaches_assign tracks sound holds result _ rfl fun call => ?_⟩
    simp only [perform, tracks.stepped.get left, tracks.stepped.get right]
    rfl
  case umovLo =>
    obtain ⟨src, scratch, dst, source, free, result, rfl⟩ := code
    exact .inl ⟨_, rfl, reaches_extract tracks sound source free result holds⟩
  case bloat =>
    obtain ⟨slot, bound, rfl⟩ := code
    refine .inl ⟨state, rfl, ?_⟩
    rw [List.length_replicate]
    exact reaches_moves tracks sound bound _ holds
  all_goals exact absurd sequential (by decide)

end Emission
end Dynarec
