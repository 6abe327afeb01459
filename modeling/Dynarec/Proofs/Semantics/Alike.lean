import Dynarec.Proofs.Register.Agreement
import Dynarec.Proofs.World
import Dynarec.Semantics.Graph

/-!
States at the same address whose registers read the same and whose worlds differ in their logs alone. What the guest
machine does from the one it does from the other.
-/
namespace Dynarec
namespace Semantics

/-- States that differ in logs and in bits of flags that no read sees. -/
structure State.Alike (left right : State) : Prop where
  address : left.address = right.address
  regs : left.regs.Agree right.regs
  world : left.world.Alike right.world

theorem State.Alike.refl (state : State) : state.Alike state := ⟨rfl, .refl _, .refl _⟩

theorem State.Alike.symm {left right : State} (alike : left.Alike right) : right.Alike left :=
  ⟨alike.address.symm, alike.regs.symm, alike.world.symm⟩

theorem State.Alike.trans {first second third : State} (left : first.Alike second) (right : second.Alike third) :
    first.Alike third :=
  ⟨left.address.trans right.address, left.regs.trans right.regs, left.world.trans right.world⟩

variable {left right : State}

theorem State.Alike.word (alike : left.Alike right) (register : Register) :
    left.word register = right.word register := congrArg Wide.low (alike.regs register)

theorem State.Alike.set (alike : left.Alike right) (register : Register) (bits : Wide) :
    (left.set register bits).Alike (right.set register bits) :=
  ⟨alike.address, alike.regs.write register bits, alike.world⟩

theorem State.Alike.inWorld (alike : left.Alike right) {world other : World} (worlds : world.Alike other) :
    ({ left with world } : State).Alike { right with world := other } :=
  ⟨alike.address, alike.regs, worlds⟩

theorem State.Alike.setWord (alike : left.Alike right) (register : Register) {word other : UInt64}
    (words : word = other) : (left.setWord register word).Alike (right.setWord register other) := by
  rw [words]
  exact alike.set register _

theorem State.Alike.setTruth (alike : left.Alike right) (register : Register) {truth other : Bool}
    (truths : truth = other) : (left.setTruth register truth).Alike (right.setTruth register other) := by
  rw [truths]
  exact alike.set register _

theorem load_alike (alike : left.Alike right) (register : Register) (address : UInt64) :
    Option.Rel State.Alike
      (match left.world.readNat address 8 with
        | (.ok word, world) => some ({ left with world }.setWord register (UInt64.ofNat word))
        | (.error _, _) => none)
      (match right.world.readNat address 8 with
        | (.ok word, world) => some ({ right with world }.setWord register (UInt64.ofNat word))
        | (.error _, _) => none) := by
  obtain ⟨reads, worlds⟩ := World.access_alike (fun memory => memory.readNat address 8) alike.world
  unfold World.readNat
  generalize left.world.access (fun memory => memory.readNat address 8) = here at reads worlds ⊢
  generalize right.world.access (fun memory => memory.readNat address 8) = there at reads worlds ⊢
  obtain ⟨result, world⟩ := here
  obtain ⟨_, other⟩ := there
  cases reads
  cases result with
  | ok word => exact .some ((alike.inWorld worlds).setWord register rfl)
  | error _ => exact .none

theorem effect?_alike (alike : left.Alike right) (instruction : Guest.Instruction) :
    Option.Rel State.Alike (effect? instruction left) (effect? instruction right) := by
  have word := alike.word
  unfold effect?
  cases instruction.form
  case ldr =>
    dsimp only
    rw [word]
    exact load_alike alike _ _
  case str =>
    dsimp only
    rw [word, word]
    exact .some (alike.inWorld (World.access_alike _ alike.world).2)
  case cas =>
    obtain ⟨swaps, worlds⟩ := World.access_alike (fun memory => memory.compareAndSwap (right.word (instruction.x 1))
      (right.word (instruction.x 2)).toUInt32 (right.word (instruction.x 3)).toUInt32) alike.world
    dsimp only
    rw [word, word, word]
    exact .some ((alike.inWorld worlds).setTruth _ swaps)
  case movz => exact .some (alike.setWord _ rfl)
  case add => exact .some (alike.setWord _ (by rw [word, word]))
  case addImm => exact .some (alike.setWord _ (by rw [word]))
  case sub => exact .some (alike.setWord _ (by rw [word, word]))
  case subImm => exact .some (alike.setWord _ (by rw [word]))
  case cmpImm => exact .some (alike.setTruth _ (by rw [word]))
  case bl => exact .some (alike.setWord _ rfl)
  case insPair =>
    dsimp only
    rw [word, word]
    exact .some (alike.set _ _)
  case eorV =>
    dsimp only
    rw [alike.regs, alike.regs]
    exact .some (alike.set _ _)
  case umovLo => exact .some (alike.setWord _ (word _))
  all_goals exact .some alike

theorem successor?_alike (alike : left.Alike right) (instruction : Guest.Instruction) :
    successor? instruction left = successor? instruction right := by
  unfold successor?
  simp only [alike.word]

theorem execute?_alike (alike : left.Alike right) (instruction : Guest.Instruction) :
    Option.Rel State.Alike (execute? instruction left) (execute? instruction right) := by
  have effects := effect?_alike alike instruction
  unfold execute?
  generalize effect? instruction left = here at effects ⊢
  generalize effect? instruction right = there at effects ⊢
  cases effects with
  | none => exact .none
  | @some before after alike =>
    have next := successor?_alike alike instruction
    simp only [Option.bind_eq_bind, Option.bind_some, next]
    cases successor? instruction after with
    | none => exact .none
    | some address => exact .some ⟨rfl, alike.regs, alike.world⟩

end Semantics
end Dynarec
