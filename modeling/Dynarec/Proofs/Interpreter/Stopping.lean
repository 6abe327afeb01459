import Dynarec.Proofs.Interpreter.Discreet

/-!
Stopped threads. Clearing the run flag of a thread changes nothing else, and code does not look at the flag: no operation
reads it, and host functions are taken to hold no more than what clears it. Who calls them polls it between runs.
-/
namespace Dynarec

namespace World

/-- The run flag is cleared. -/
def stop (world : World) : World := { world with running := false }

theorem access_stop {α : Type} (world : World) (use : Memory → α × Memory) :
    world.stop.access use = ((world.access use).1, (world.access use).2.stop) := rfl

end World

namespace Context

def stop (context : Context) : Context := { context with world := context.world.stop }

/-- The context with the flag cleared in it, if it is cleared there. -/
def stopIf (context : Context) (stops : Bool) : Context := if stops then context.stop else context

@[simp] theorem stop_stop (context : Context) : context.stop.stop = context.stop := rfl

@[simp] theorem stop_stopIf (context : Context) (stops : Bool) : (context.stopIf stops).stop = context.stop := by
  cases stops <;> rfl

@[simp] theorem stopIf_stop (context : Context) (stops : Bool) : context.stop.stopIf stops = context.stop := by
  cases stops <;> rfl

end Context

namespace Calling

/-- The function runs alike on a stopped thread, and leaves it stopped. It may stop a thread that runs. -/
def HostFunction.Heedless (function : HostFunction) : Prop :=
  ∀ values world, function.apply values world.stop =
    (function.apply values world).map fun (result, world) => (result, world.stop)

/-- Functions that look at their arguments alone are. -/
theorem HostFunction.Heedless.plain {function : HostFunction} {apply : List Value → Option Value}
    (plain : function.apply = fun values world => .ok (apply values, world)) : function.Heedless := by
  intro values world
  rw [plain]
  rfl

namespace Samples

theorem poke_heedless : poke.Heedless := by
  intro values world
  unfold poke
  dsimp only
  split <;> rfl

theorem peek_heedless : peek.Heedless := by
  intro values world
  unfold peek World.readNat
  dsimp only
  split
  · rw [World.access_stop]
    generalize world.access _ = found
    obtain ⟨word | ⟨⟨⟩⟩, _⟩ := found <;> rfl
  · rfl

theorem all_heedless : ∀ function ∈ all, function.Heedless := by
  simp only [all, List.forall_mem_cons, List.not_mem_nil, false_implies, implies_true, and_true]
  exact ⟨.plain rfl, .plain rfl, .plain rfl, .plain rfl, .plain rfl, .plain rfl, .plain rfl, .plain rfl, .plain rfl,
    .plain rfl, .plain rfl, .plain rfl, fun _ _ => rfl, fun _ _ => rfl, poke_heedless, peek_heedless⟩

end Samples
end Calling

/-- The second is the first on a stopped thread. -/
def Context.Stops (left right : Context) : Prop := right = left.stop

theorem Outcome.Agree.flip {α : Type} {agree : α → α → Prop} {left right : Outcome α} (same : Agree agree left right) :
    Agree (fun first second => agree second first) right left := by
  cases same with
  | ok agree => exact .ok agree
  | error halt => exact .error halt

theorem Context.Congruence.flip {related : Context → Context → Prop} {admits : Calling.HostFunction → Prop}
    (congruence : Congruence related admits) : Congruence (fun left right => related right left) admits where
  regs agree := (congruence.regs agree).symm
  depth agree := (congruence.depth agree).symm
  write agree := congruence.write agree
  nest agree := congruence.nest agree
  note agree := congruence.note agree
  access agree _ use := ⟨(congruence.access agree use).1.symm, (congruence.access agree use).2⟩
  host {left right function} agree admitted values := by
    have outcomes := congruence.host agree admitted values
    generalize function.apply values left.world = here at outcomes ⊢
    generalize function.apply values right.world = there at outcomes ⊢
    cases outcomes with
    | error halt => exact .error halt
    | ok same => exact .ok ⟨same.1.symm, same.2⟩

namespace Interpreter
open Outcome

theorem stops_congruence : Context.Congruence Context.Stops Calling.HostFunction.Heedless where
  regs := by
    rintro left _ rfl
    exact .refl _
  depth := by
    rintro left _ rfl
    rfl
  write := by
    rintro left _ rfl register wide
    rfl
  nest := by
    rintro left _ rfl depth
    rfl
  note := by
    rintro left _ rfl event
    rfl
  access := by
    rintro left _ rfl _ use
    exact ⟨rfl, rfl⟩
  host := by
    rintro left _ function rfl heedless values
    change Agree _ _ (function.apply values left.world.stop)
    rw [heedless values left.world]
    cases function.apply values left.world with
    | error halt => exact .error halt
    | ok found => exact .ok ⟨rfl, rfl⟩

end Interpreter
end Dynarec
