import Dynarec.World

/-!
Worlds that differ in their logs alone.
-/
namespace Dynarec
namespace World

/-- The same but for the log. -/
structure Alike (left right : World) : Prop where
  memory : left.memory = right.memory
  running : left.running = right.running
  count : left.count = right.count

theorem Alike.refl (world : World) : world.Alike world := ⟨rfl, rfl, rfl⟩

theorem Alike.symm {left right : World} (alike : left.Alike right) : right.Alike left :=
  ⟨alike.memory.symm, alike.running.symm, alike.count.symm⟩

theorem Alike.trans {first second third : World} (left : first.Alike second) (right : second.Alike third) :
    first.Alike third :=
  ⟨left.memory.trans right.memory, left.running.trans right.running, left.count.trans right.count⟩

theorem alike_note (world : World) (event : Event) : world.Alike (world.note event) := ⟨rfl, rfl, rfl⟩

theorem alike_noteAll (world : World) (events : List Event) : world.Alike (world.noteAll events) := ⟨rfl, rfl, rfl⟩

theorem Alike.note {left right : World} (alike : left.Alike right) (event eventToo : Event) :
    (left.note event).Alike (right.note eventToo) := ⟨alike.memory, alike.running, alike.count⟩

theorem Alike.noteAll {left right : World} (alike : left.Alike right) (events eventsToo : List Event) :
    (left.noteAll events).Alike (right.noteAll eventsToo) := ⟨alike.memory, alike.running, alike.count⟩

/-- Every use of the memory comes to the same from both, and leaves them so. -/
theorem access_alike {α : Type} (use : Memory → α × Memory) {left right : World} (alike : left.Alike right) :
    (left.access use).1 = (right.access use).1 ∧ (left.access use).2.Alike (right.access use).2 := by
  obtain ⟨memory, running, count, log⟩ := left
  obtain ⟨_, _, _, other⟩ := right
  obtain ⟨rfl, rfl, rfl⟩ := alike
  exact ⟨rfl, rfl, rfl, rfl⟩

theorem running_access {α : Type} (use : Memory → α × Memory) (world : World) :
    (world.access use).2.running = world.running := rfl

end World
end Dynarec
