import Dynarec.Proofs.Emission.Growth
import Dynarec.Proofs.Interpreter.Glide
import Dynarec.Semantics.Guest

/-!
How running code stands for the guest. Registers that have a local are in it, all others are in the register
file; storing every local leaves the guest's registers in the file, and loading them all takes them up again.
-/
namespace Dynarec
namespace Emission
open Ir Semantics

/-- A frame and a context stand for the guest's state. -/
structure Tracks (emission : Emission) (frame : Frame) (context : Context) (state : State) : Prop where
  size : frame.locals.size = emission.locals.size
  held : ∀ binding ∈ emission.bindings, frame.locals[binding.slot]? = some (state.regs.read binding.register)
  others : ∀ register, (∀ binding ∈ emission.bindings, binding.register ≠ register) →
    context.regs.read register = state.regs.read register
  world : context.world = state.world

variable {emission : Emission} {frame : Frame} {context : Context} {state : State}

theorem Tracks.at (tracks : emission.Tracks frame context state) (position : Nat) (address : UInt64) :
    emission.Tracks { frame with position } context { state with address } :=
  ⟨tracks.size, tracks.held, tracks.others, tracks.world⟩

theorem Tracks.inWorld (tracks : emission.Tracks frame context state) (world : World) :
    emission.Tracks frame { context with world } { state with world } :=
  ⟨tracks.size, tracks.held, tracks.others, rfl⟩

theorem Tracks.congr (tracks : emission.Tracks frame context state) {other : State}
    (regs : state.regs.Agree other.regs) (world : state.world = other.world) :
    emission.Tracks frame context other := by
  refine ⟨tracks.size, ?_, ?_, tracks.world.trans world⟩
  · intro binding member
    rw [tracks.held binding member, regs binding.register]
  · intro register free
    rw [tracks.others register free, regs register]

theorem Tracks.get (tracks : emission.Tracks frame context state) {register : Register} {slot : Local}
    (bound : emission.Binds register slot) : frame.get slot = .ok (state.regs.read register) := by
  obtain ⟨binding, member, rfl, rfl⟩ := bound
  unfold Frame.get
  rw [tracks.held binding member]

theorem Tracks.word (tracks : emission.Tracks frame context state) {register : Register} {slot : Local}
    (bound : emission.Binds register slot) : frame.word slot = .ok (state.word register) := by
  unfold Frame.word
  rw [tracks.get bound]
  rfl

theorem Tracks.set (tracks : emission.Tracks frame context state) (sound : emission.Allotted)
    {register : Register} {slot : Local} (bound : emission.Binds register slot) {bits : Wide}
    (fits : RegisterFile.truncate register bits = bits) :
    frame.set slot bits = .ok { frame with locals := frame.locals.setIfInBounds slot bits } ∧
      emission.Tracks { frame with locals := frame.locals.setIfInBounds slot bits } context
        (state.set register bits) := by
  have known : slot < frame.locals.size := tracks.size ▸ bound.lt sound
  refine ⟨by rw [Frame.set, if_pos known], by simpa using tracks.size, ?_, ?_, tracks.world⟩
  · intro binding member
    obtain ⟨target, inside, rfl, rfl⟩ := bound
    unfold State.set
    rw [RegisterFile.read_write]
    by_cases same : binding.register = target.register
    · obtain rfl := sound.unique member inside (.inr same)
      simp [known, fits]
    · have apart : target.slot ≠ binding.slot := fun slots =>
        same (congrArg Binding.register (sound.unique member inside (.inl slots.symm)))
      rw [if_neg same]
      simpa [apart] using tracks.held binding member
  · intro other free
    obtain ⟨target, inside, rfl, rfl⟩ := bound
    unfold State.set
    rw [RegisterFile.read_write, if_neg (Ne.symm (free target inside))]
    exact tracks.others other free

theorem Tracks.setScratch (tracks : emission.Tracks frame context state) {slot : Local}
    (free : emission.Scratch slot) (bits : Wide) :
    frame.set slot bits = .ok { frame with locals := frame.locals.setIfInBounds slot bits } ∧
      emission.Tracks { frame with locals := frame.locals.setIfInBounds slot bits } context state := by
  have known : slot < frame.locals.size := tracks.size ▸ free.lt
  refine ⟨by rw [Frame.set, if_pos known], by simpa using tracks.size, ?_, tracks.others, tracks.world⟩
  intro binding member
  simpa [(free.unbound binding member).symm] using tracks.held binding member

/-- Loads put registers into their locals and leave the other locals alone. -/
theorem glide_loads {function : Function} (args : List UInt64) (bindings : List Binding) {frame : Frame}
    (holds : function.Holds frame.position (bindings.map Expansion.load)) (context : Context)
    (known : ∀ binding ∈ bindings, binding.slot < frame.locals.size)
    (distinct : (bindings.map Binding.slot).Nodup) :
    ∃ last, Interpreter.Glide function args bindings.length frame context last context ∧
      last.position = frame.position + bindings.length ∧ last.locals.size = frame.locals.size ∧
        (∀ binding ∈ bindings, last.locals[binding.slot]? = some (context.regs.read binding.register)) ∧
          ∀ slot, slot ∉ bindings.map Binding.slot → last.locals[slot]? = frame.locals[slot]? := by
  induction bindings generalizing frame with
  | nil => exact ⟨frame, .refl frame context, rfl, rfl, by simp, fun _ _ => rfl⟩
  | cons binding rest ih =>
    obtain ⟨absent, later⟩ := List.nodup_cons.mp distinct
    have inside := known binding (by simp)
    let next : Frame :=
      ⟨frame.position + 1, frame.locals.setIfInBounds binding.slot (context.regs.read binding.register)⟩
    have moves : Interpreter.Glide function args 1 frame context next context := by
      refine Interpreter.glide_op holds fun call => Interpreter.assign_ok ?_ context
      rw [Frame.set, if_pos inside]
    have sameSize : next.locals.size = frame.locals.size := by simp [next]
    have behind : function.Holds next.position (rest.map Expansion.load) := holds.cons.2
    have knownNext : ∀ other ∈ rest, other.slot < next.locals.size := by
      intro other member
      rw [sameSize]
      exact known other (by simp [member])
    obtain ⟨last, glides, position, size, loaded, kept⟩ := ih behind knownNext later
    refine ⟨last, ?_, ?_, size.trans sameSize, ?_, ?_⟩
    · rw [List.length_cons, Nat.add_comm]
      exact moves.trans glides
    · rw [position, List.length_cons]
      simp only [next]
      omega
    · intro other member
      rcases List.mem_cons.mp member with rfl | inRest
      · rw [kept other.slot absent]
        simp [next, inside]
      · exact loaded other inRest
    · intro slot free
      have apart : binding.slot ≠ slot := fun same => free (by simp [same])
      rw [kept slot fun member => free (by simp [member])]
      simp [next, apart]

/-- Stores leave what was in the locals in their registers. -/
theorem glide_stores {function : Function} (args : List UInt64) (regs : RegisterFile) (bindings : List Binding)
    {frame : Frame} (holds : function.Holds frame.position (bindings.map Expansion.store)) (context : Context)
    (held : ∀ binding ∈ bindings, frame.locals[binding.slot]? = some (regs.read binding.register)) :
    ∃ last, Interpreter.Glide function args bindings.length frame context
        { frame with position := frame.position + bindings.length } { context with regs := last } ∧
      (∀ binding ∈ bindings, last.read binding.register = regs.read binding.register) ∧
        ∀ register, (∀ binding ∈ bindings, binding.register ≠ register) →
          last.read register = context.regs.read register := by
  induction bindings generalizing frame context with
  | nil => exact ⟨context.regs, .refl frame context, by simp, fun _ _ => rfl⟩
  | cons binding rest ih =>
    let stored : Context := context.write binding.register (regs.read binding.register)
    have here : ({ frame with position := frame.position + 1 } : Frame).get binding.slot =
        .ok (regs.read binding.register) := by
      unfold Frame.get
      rw [held binding (by simp)]
    have moves : Interpreter.Glide function args 1 frame context { frame with position := frame.position + 1 }
        stored := by
      exact Interpreter.glide_op holds fun call => Interpreter.storeRegister_ok here call context binding.register
    let next : Frame := { frame with position := frame.position + 1 }
    have behind : function.Holds next.position (rest.map Expansion.store) := holds.cons.2
    have heldNext : ∀ other ∈ rest, next.locals[other.slot]? = some (regs.read other.register) :=
      fun other member => held other (by simp [member])
    obtain ⟨last, glides, loaded, kept⟩ := ih behind stored heldNext
    have read : ∀ register, stored.regs.read register =
        if register = binding.register then regs.read binding.register else context.regs.read register := by
      intro register
      rw [← RegisterFile.truncate_read regs binding.register]
      exact RegisterFile.read_write _ _ _ _
    refine ⟨last, ?_, ?_, ?_⟩
    · rw [List.length_cons, Nat.add_comm rest.length, ← Nat.add_assoc]
      exact moves.trans glides
    · intro other member
      by_cases again : ∃ later ∈ rest, later.register = other.register
      · obtain ⟨later, inRest, same⟩ := again
        rw [← same]
        exact loaded later inRest
      · rcases List.mem_cons.mp member with rfl | inRest
        · rw [kept other.register fun later inRest same => again ⟨later, inRest, same⟩, read, if_pos rfl]
        · exact loaded other inRest
    · intro register free
      rw [kept register fun later inRest => free later (by simp [inRest]), read,
        if_neg (Ne.symm (free binding (by simp)))]

theorem Tracks.spill {function : Function} {args : List UInt64} (tracks : emission.Tracks frame context state)
    (holds : function.Holds frame.position (emission.bindings.map Expansion.store)) :
    ∃ regs, Interpreter.Glide function args emission.bindings.length frame context
        { frame with position := frame.position + emission.bindings.length } { context with regs } ∧
      regs.Agree state.regs := by
  obtain ⟨regs, glides, stored, kept⟩ := glide_stores args state.regs emission.bindings holds context tracks.held
  refine ⟨regs, glides, ?_⟩
  intro register
  by_cases bound : ∃ binding ∈ emission.bindings, binding.register = register
  · obtain ⟨binding, member, rfl⟩ := bound
    exact stored binding member
  · have free : ∀ binding ∈ emission.bindings, binding.register ≠ register :=
      fun binding member same => bound ⟨binding, member, same⟩
    rw [kept register free]
    exact tracks.others register free

theorem glide_reload {function : Function} (args : List UInt64) (sound : emission.Allotted)
    (size : frame.locals.size = emission.locals.size)
    (holds : function.Holds frame.position (emission.bindings.map Expansion.load)) (context : Context)
    (address : UInt64) :
    ∃ last, Interpreter.Glide function args emission.bindings.length frame context last context ∧
      last.position = frame.position + emission.bindings.length ∧
        emission.Tracks last context ⟨address, context.regs, context.world⟩ ∧
          ∀ slot, emission.Scratch slot → last.locals[slot]? = frame.locals[slot]? := by
  have known : ∀ binding ∈ emission.bindings, binding.slot < frame.locals.size := by
    intro binding member
    rw [size]
    exact sound.slot_lt member
  obtain ⟨last, glides, position, sameSize, loaded, kept⟩ :=
    glide_loads args emission.bindings holds context known sound.slots
  refine ⟨last, glides, position, ⟨sameSize.trans size, loaded, fun _ _ => rfl, rfl⟩, ?_⟩
  intro slot free
  refine kept slot ?_
  intro member
  obtain ⟨binding, inside, same⟩ := List.mem_map.mp member
  exact free.unbound binding inside same

end Emission
end Dynarec
