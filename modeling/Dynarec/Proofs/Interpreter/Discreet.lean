import Dynarec.Calling.Samples
import Dynarec.Machine
import Dynarec.Proofs.Interpreter.Agreement
import Dynarec.Proofs.World

/-!
Code does not look at the log. In worlds that differ in their logs alone it comes to the same end, with the same
registers and the same memory. The log is written for the reader of a run, and host functions are taken not to read it
either.
-/
namespace Dynarec

theorem Outcome.Agree.of_below {α : Type} {agree agreeBack : α → α → Prop} {left right : Outcome α}
    (below : Below agree left right) (above : Below agreeBack right left) : Agree agree left right := by
  -- where the first run came to its bound, what is said of the second rules out that it did not
  by_cases bounded : left = .error .outOfFuel
  · by_cases boundedToo : right = .error .outOfFuel
    · rw [bounded, boundedToo]
      exact .error _
    · have same := above boundedToo
      rw [bounded] at same
      exact absurd (same.bounded.mpr rfl) boundedToo
  · exact below bounded

/-- The same but for the logs of their worlds. -/
structure Context.Alike (left right : Context) : Prop where
  regs : left.regs = right.regs
  world : left.world.Alike right.world
  depth : left.depth = right.depth

theorem Context.Alike.symm {left right : Context} (alike : left.Alike right) : right.Alike left :=
  ⟨alike.regs.symm, alike.world.symm, alike.depth.symm⟩

namespace Calling

/-- What the function makes of its arguments and of the world does not depend on the log. -/
def HostFunction.Discreet (function : HostFunction) : Prop :=
  ∀ values {left right : World}, left.Alike right →
    Outcome.Agree (fun first second => first.1 = second.1 ∧ first.2.Alike second.2)
      (function.apply values left) (function.apply values right)

/-- Functions that look at their arguments alone are. -/
theorem HostFunction.Discreet.plain {function : HostFunction} {apply : List Value → Option Value}
    (plain : function.apply = fun values world => .ok (apply values, world)) : function.Discreet := by
  intro values left right alike
  rw [plain]
  exact .ok ⟨rfl, alike⟩

/-- The function comes to a result whatever it is given, does not stop the thread, and does not look at the log. -/
structure HostFunction.Tame (function : HostFunction) : Prop where
  discreet : function.Discreet
  ends : ∀ values world, ∃ result after,
    function.apply values world = .ok (result, after) ∧ after.running = world.running

theorem HostFunction.Tame.plain {function : HostFunction} {apply : List Value → Option Value}
    (plain : function.apply = fun values world => .ok (apply values, world)) : function.Tame where
  discreet := .plain plain
  ends values world := ⟨apply values, world, by rw [plain], rfl⟩

namespace Samples

theorem count_discreet : count.Discreet := by
  intro values left right alike
  refine .ok ⟨?_, alike.memory, alike.running, ?_⟩ <;> simp only [alike.count]

theorem cancel_discreet : cancel.Discreet := fun _ _ _ alike => .ok ⟨rfl, alike.memory, rfl, alike.count⟩

theorem poke_discreet : poke.Discreet := by
  intro values left right alike
  unfold poke
  dsimp only
  split
  · next address value =>
    exact .ok ⟨rfl, (World.access_alike (fun memory => ((), memory.writeNat address 2 value.toNat)) alike).2⟩
  · exact .ok ⟨rfl, alike⟩

theorem peek_discreet : peek.Discreet := by
  intro values left right alike
  unfold peek World.readNat
  dsimp only
  split
  · next address =>
    obtain ⟨found, worlds⟩ := World.access_alike (fun memory => memory.readNat address 4) alike
    rw [found]
    exact .bind_same _ fun word => .ok ⟨rfl, worlds⟩
  · exact .ok ⟨rfl, alike⟩

theorem all_discreet : ∀ function ∈ all, function.Discreet := by
  simp only [all, List.forall_mem_cons, List.not_mem_nil, false_implies, implies_true, and_true]
  exact ⟨.plain rfl, .plain rfl, .plain rfl, .plain rfl, .plain rfl, .plain rfl, .plain rfl, .plain rfl, .plain rfl,
    .plain rfl, .plain rfl, .plain rfl, count_discreet, cancel_discreet, poke_discreet, peek_discreet⟩

end Samples
end Calling

namespace Interpreter
open Outcome

theorem alike_congruence : Context.Congruence Context.Alike Calling.HostFunction.Discreet where
  regs alike := alike.regs ▸ .refl _
  depth alike := alike.depth
  write alike register wide := ⟨congrArg (·.write register wide) alike.regs, alike.world, alike.depth⟩
  nest alike depth := ⟨alike.regs, alike.world, rfl⟩
  note alike event := ⟨alike.regs, alike.world.note event event, alike.depth⟩
  access alike _ use :=
    have ⟨same, worlds⟩ := World.access_alike use alike.world
    ⟨same, alike.regs, worlds, alike.depth⟩
  host {left right function} alike discreet values := by
    have outcomes := discreet values alike.world
    generalize function.apply values left.world = here at outcomes ⊢
    generalize function.apply values right.world = there at outcomes ⊢
    cases outcomes with
    | error halt => exact .error halt
    | ok same => exact .ok ⟨same.1, alike.regs, same.2, alike.depth⟩

theorem exec_alike {cache : Cache} (held : cache.Admitted Calling.HostFunction.Discreet) (fuel : Nat)
    {activation : Activation} (admitted : activation.Admitted Calling.HostFunction.Discreet) {left right : Context}
    (alike : left.Alike right) :
    Outcome.Agree (Arrival.Related Context.Alike) (exec cache fuel activation left)
      (exec cache fuel activation right) :=
  .of_below (exec_related alike_congruence held le_rfl admitted alike)
    (exec_related alike_congruence held le_rfl admitted alike.symm)

end Interpreter

namespace Machine

/-- The same but for the logs, and no host code looks at them. -/
structure Alike (left right : Machine) : Prop where
  cache : left.cache = right.cache
  world : left.world.Alike right.world
  discreet : left.cache.Admitted Calling.HostFunction.Discreet

variable {left right : Machine}

theorem Alike.note (alike : left.Alike right) (event eventToo : Event) : (left.note event).Alike (right.note eventToo) :=
  ⟨alike.cache, alike.world.note event eventToo, alike.discreet⟩

theorem Alike.noteAll (alike : left.Alike right) (events eventsToo : List Event) :
    ({ left with world := left.world.noteAll events } : Machine).Alike
      { right with world := right.world.noteAll eventsToo } :=
  ⟨alike.cache, alike.world.noteAll events eventsToo, alike.discreet⟩

theorem Alike.inCache (alike : left.Alike right) (change : Cache → Cache)
    (discreet : (change left.cache).Admitted Calling.HostFunction.Discreet) :
    ({ left with cache := change left.cache } : Machine).Alike { right with cache := change right.cache } :=
  ⟨congrArg change alike.cache, alike.world, discreet⟩

theorem Alike.add (alike : left.Alike right) {subroutine : Subroutine}
    (admitted : subroutine.Admitted Calling.HostFunction.Discreet) :
    (left.add subroutine).1 = (right.add subroutine).1 ∧ (left.add subroutine).2.Alike (right.add subroutine).2 := by
  unfold Machine.add
  rw [← alike.cache]
  exact ⟨rfl, rfl, alike.world, alike.discreet.add admitted⟩

theorem Alike.publish (alike : left.Alike right) (address : UInt64) (handle : Handle) (sizeHint : UInt64) :
    (left.publish address handle sizeHint).2.Alike (right.publish address handle sizeHint).2 := by
  unfold Machine.publish
  rw [← alike.cache]
  exact ⟨rfl, alike.world.note _ _, alike.discreet.publish address handle sizeHint⟩

theorem Alike.publishTier0 (alike : left.Alike right) (address : UInt64) (handle : Handle) (sizeHint : UInt64) :
    (left.publishTier0 address handle sizeHint).1 = (right.publishTier0 address handle sizeHint).1 ∧
      (left.publishTier0 address handle sizeHint).2.Alike (right.publishTier0 address handle sizeHint).2 := by
  have discreet := alike.discreet.publishTier0 address handle sizeHint
  unfold Machine.publishTier0
  rw [← alike.cache]
  generalize left.cache.publishTier0 address handle sizeHint = published at discreet ⊢
  obtain ⟨_ | _, _⟩ := published
  · exact ⟨rfl, rfl, alike.world.note _ _, discreet⟩
  · exact ⟨rfl, rfl, alike.world.note _ _, discreet⟩

theorem Alike.addAt (alike : left.Alike right) (address : UInt64) {subroutine : Subroutine}
    (admitted : subroutine.Admitted Calling.HostFunction.Discreet) (sizeHint : UInt64) :
    (left.addAt address subroutine sizeHint).Alike (right.addAt address subroutine sizeHint) := by
  obtain ⟨handles, added⟩ := alike.add admitted
  unfold Machine.addAt
  dsimp only
  rw [handles]
  exact added.publish address _ sizeHint

theorem Alike.run (alike : left.Alike right) {subroutine : Subroutine}
    (admitted : subroutine.Admitted Calling.HostFunction.Discreet) (fuel : Nat) (regs : RegisterFile) :
    Outcome.Agree (fun first second => first.1 = second.1 ∧ first.2.1 = second.2.1 ∧ first.2.2.Alike second.2.2)
      (left.run fuel subroutine regs) (right.run fuel subroutine regs) := by
  obtain ⟨cache, leftWorld⟩ := left
  obtain ⟨_, rightWorld⟩ := right
  obtain ⟨rfl, worlds, discreet⟩ := alike
  have start : Context.Alike { regs, world := leftWorld } { regs, world := rightWorld } := ⟨rfl, worlds, rfl⟩
  refine (Interpreter.exec_alike discreet fuel (admitted.activate regs) start).bind ?_
  rintro ⟨next, left⟩ ⟨_, right⟩ ⟨rfl, same⟩
  exact .ok ⟨rfl, same.regs, rfl, same.world, discreet⟩

end Machine
end Dynarec
