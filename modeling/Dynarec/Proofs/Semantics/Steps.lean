import Dynarec.Proofs.Interpreter.Discreet
import Dynarec.Proofs.Semantics.Alike

/-!
Runs of the guest machine, step by step. Where a run stops is settled by where it starts, up to what the log says
and no register shows.
-/
namespace Dynarec
namespace Semantics

/-- Code as programs have it: direct transfers name targets, host functions are tame and stand at addresses that
are not scripted, and nothing stands at address 0. -/
structure Code.Plain (code : Code) : Prop where
  named : ∀ address instruction, code.program.at? address = some instruction → instruction.Named
  unscripted : ∀ address host, code.host address = some host → code.program.at? address = none
  tame : ∀ address layout function, code.host address = some (layout, function) → function.Tame
  nothing : code.program.at? 0 = none ∧ code.host 0 = none

variable {code : Code}

theorem step?_host {state : State} {layout : Calling.Layout} {function : Calling.HostFunction}
    (plain : code.Plain) (host : code.host state.address = some (layout, function)) :
    ∃ result world, function.apply (layout.read function.signature.params state.regs) state.world = .ok (result, world) ∧
      world.running = state.world.running ∧
        let regs := Calling.Value.store result state.regs
        step? code state = some ⟨(regs.read .link).low, regs, world⟩ := by
  obtain ⟨result, world, applied, running⟩ := (plain.tame _ _ _ host).ends
    (layout.read function.signature.params state.regs) state.world
  refine ⟨result, world, applied, running, ?_⟩
  unfold step? Calling.HostFunction.enter
  rw [host]
  dsimp only
  rw [applied]
  rfl

theorem step?_scripted {state : State} {instruction : Guest.Instruction} (plain : code.Plain)
    (scripted : code.program.at? state.address = some instruction) :
    step? code state = execute? instruction state := by
  have guest : code.host state.address = none := by
    cases host : code.host state.address with
    | none => rfl
    | some found =>
      rw [plain.unscripted _ _ host] at scripted
      cases scripted
  unfold step?
  rw [guest, scripted]
  rfl

theorem step?_none {state : State} (unscripted : code.program.at? state.address = none)
    (guest : code.host state.address = none) : step? code state = none := by
  unfold step?
  rw [guest, unscripted]
  rfl

theorem step?_alike (plain : code.Plain) {left right : State} (alike : left.Alike right) :
    Option.Rel State.Alike (step? code left) (step? code right) := by
  cases host : code.host left.address with
  | some found =>
    obtain ⟨layout, function⟩ := found
    have outcomes := (plain.tame _ _ _ host).discreet (layout.read function.signature.params left.regs) alike.world
    obtain ⟨result, world, applied, _, moved⟩ := step?_host plain host
    rw [alike.address] at host
    obtain ⟨other, worldToo, appliedToo, _, movedToo⟩ := step?_host plain host
    rw [← layout.read_agree alike.regs] at appliedToo
    rw [applied, appliedToo] at outcomes
    rw [moved, movedToo]
    cases outcomes with
    | ok same =>
      obtain ⟨rfl, worlds⟩ := same
      have stored := Calling.Value.store_agree alike.regs result
      exact .some ⟨congrArg Wide.low (stored .link), stored, worlds⟩
  | none =>
    cases scripted : code.program.at? left.address with
    | none =>
      rw [step?_none scripted host]
      rw [alike.address] at scripted host
      rw [step?_none scripted host]
      exact .none
    | some instruction =>
      rw [step?_scripted plain scripted]
      rw [alike.address] at scripted
      rw [step?_scripted plain scripted]
      exact execute?_alike alike instruction

/-- Where one of two states stops the other does. -/
theorem stops_alike (plain : code.Plain) {left right : State} (alike : left.Alike right)
    (stops : step? code left = none) : step? code right = none := by
  have both := step?_alike plain alike
  rw [stops] at both
  generalize step? code right = next at both
  cases both
  rfl

/-- Steps from one state to another. -/
inductive Steps (code : Code) : Nat → State → State → Prop
  | refl (state : State) : Steps code 0 state state
  | step {count : Nat} {first second last : State} : step? code first = some second →
      Steps code count second last → Steps code (count + 1) first last

theorem Steps.trans {early late : Nat} {first second third : State} (left : Steps code early first second)
    (right : Steps code late second third) : Steps code (early + late) first third := by
  induction left with
  | refl => simpa using right
  | step moves _ ih =>
    rw [Nat.add_right_comm]
    exact .step moves (ih right)

/-- Steps from one state are taken from states like it. -/
theorem Steps.alike (plain : code.Plain) {count : Nat} {first last other : State} (steps : Steps code count first last)
    (alike : first.Alike other) : ∃ final, Steps code count other final ∧ last.Alike final := by
  induction steps generalizing other with
  | refl => exact ⟨other, .refl other, alike⟩
  | step moves _ ih =>
    have both := step?_alike plain alike
    rw [moves] at both
    generalize reached : step? code other = next at both
    cases both with
    | some alike =>
      obtain ⟨final, steps, same⟩ := ih alike
      exact ⟨final, .step reached steps, same⟩

/-- A run that stops passes where steps lead, and goes on from there. -/
theorem Steps.rest {count total : Nat} {first middle last : State} (steps : Steps code count first middle)
    (whole : Steps code total first last) (stops : step? code last = none) :
    ∃ left, total = count + left ∧ Steps code left middle last := by
  induction steps generalizing total with
  | refl => exact ⟨total, by omega, whole⟩
  | step moves _ ih =>
    cases whole with
    | refl =>
      rw [moves] at stops
      cases stops
    | step moved others =>
      obtain rfl := Option.some.inj (moves.symm.trans moved)
      obtain ⟨left, same, later⟩ := ih others
      exact ⟨left, by omega, later⟩

/-- There is one place where steps from a state stop. -/
theorem Steps.unique {count total : Nat} {first last other : State} (steps : Steps code count first last)
    (stops : step? code last = none) (whole : Steps code total first other) (stopsToo : step? code other = none) :
    last = other := by
  obtain ⟨left, _, later⟩ := steps.rest whole stopsToo
  cases later with
  | refl => rfl
  | step moves _ =>
    rw [stops] at moves
    cases moves

theorem running_effect? {instruction : Guest.Instruction} {state next : State}
    (effect : effect? instruction state = some next) : next.world.running = state.world.running := by
  unfold effect? at effect
  cases form : instruction.form
  case ldr =>
    simp only [form] at effect
    have same := World.running_access (fun memory => memory.readNat (state.word (instruction.x 1)) 8) state.world
    unfold World.readNat at effect
    generalize state.world.access (fun memory => memory.readNat (state.word (instruction.x 1)) 8) = read at effect same
    obtain ⟨result, world⟩ := read
    cases result with
    | ok word =>
      obtain rfl := Option.some.inj effect
      exact same
    | error stop => cases effect
  all_goals
    simp only [form] at effect
    obtain rfl := Option.some.inj effect
    rfl

/-- Guest code and tame functions do not stop the thread. -/
theorem running_step? (plain : code.Plain) {state next : State} (moves : step? code state = some next) :
    next.world.running = state.world.running := by
  cases host : code.host state.address with
  | some found =>
    obtain ⟨layout, function⟩ := found
    obtain ⟨_, world, _, running, moved⟩ := step?_host plain host
    rw [moved] at moves
    obtain rfl := Option.some.inj moves
    exact running
  | none =>
    cases scripted : code.program.at? state.address with
    | none =>
      rw [step?_none scripted host] at moves
      cases moves
    | some instruction =>
      rw [step?_scripted plain scripted] at moves
      obtain ⟨after, effect, goes⟩ := Option.bind_eq_some_iff.mp moves
      obtain ⟨address, _, same⟩ := Option.bind_eq_some_iff.mp goes
      obtain rfl := Option.some.inj same
      have same : after.world.running = state.world.running := running_effect? effect
      exact same

theorem Steps.running (plain : code.Plain) {count : Nat} {first last : State} (steps : Steps code count first last) :
    last.world.running = first.world.running := by
  induction steps with
  | refl => rfl
  | step moves _ ih => exact ih.trans (running_step? plain moves)

/-- How a run ends that stops in a state. -/
def Ending.of (state : State) : Ending := if state.address = 0 then .halted state else .stuck state

theorem Ending.of_zero {state : State} (zero : state.address = 0) : of state = .halted state := if_pos zero

theorem Ending.of_ne_zero {state : State} (apart : state.address ≠ 0) : of state = .stuck state := if_neg apart

theorem step?_zero (plain : code.Plain) {state : State} (zero : state.address = 0) : step? code state = none := by
  refine step?_none ?_ ?_
  · rw [zero]
    exact plain.nothing.1
  · rw [zero]
    exact plain.nothing.2

theorem Steps.run (plain : code.Plain) {count : Nat} {first last : State} (steps : Steps code count first last)
    (starts : first.address ≠ 0) (stops : step? code last = none) :
    ∃ fuel, Semantics.run code fuel first = some (.of last) := by
  induction steps with
  | refl state =>
    refine ⟨1, ?_⟩
    rw [Semantics.run, stops, Ending.of_ne_zero starts]
  | @step count first second last moves rest ih =>
    by_cases zero : second.address = 0
    · have ends : second = last := by
        cases rest with
        | refl => rfl
        | step moved _ =>
          rw [step?_zero plain zero] at moved
          cases moved
      refine ⟨1, ?_⟩
      rw [Semantics.run, moves, ← ends, Ending.of_zero zero]
      exact if_pos zero
    · obtain ⟨fuel, ran⟩ := ih zero stops
      refine ⟨fuel + 1, ?_⟩
      rw [Semantics.run, moves]
      simp only [if_neg zero]
      exact ran

/-- A run that ends has taken steps to where it stops. -/
theorem steps_of_run (plain : code.Plain) {fuel : Nat} {first : State} {ending : Ending} (starts : first.address ≠ 0)
    (ended : run code fuel first = some ending) :
    ∃ count last, Steps code count first last ∧ step? code last = none ∧ ending = .of last := by
  induction fuel generalizing first with
  | zero => cases ended
  | succ fuel ih =>
    rw [run] at ended
    cases moves : step? code first with
    | none =>
      simp only [moves, Option.some.injEq] at ended
      refine ⟨0, first, .refl first, moves, ?_⟩
      rw [← ended, Ending.of_ne_zero starts]
    | some next =>
      simp only [moves] at ended
      split at ended
      · next zero =>
        refine ⟨1, next, .step moves (.refl next), step?_zero plain zero, ?_⟩
        rw [← Option.some.inj ended, Ending.of_zero zero]
      · next goesOn =>
        obtain ⟨count, last, steps, stops, same⟩ := ih goesOn ended
        exact ⟨count + 1, last, .step moves steps, stops, same⟩

/-- A scripted instruction that has no outcome here. -/
structure Faults (code : Code) (state : State) : Prop where
  scripted : (code.program.at? state.address).isSome = true
  stops : step? code state = none

theorem Faults.alike (plain : code.Plain) {left right : State} (faults : Faults code left) (alike : left.Alike right) :
    Faults code right :=
  ⟨by rw [← alike.address]; exact faults.scripted, stops_alike plain alike faults.stops⟩

end Semantics
end Dynarec
