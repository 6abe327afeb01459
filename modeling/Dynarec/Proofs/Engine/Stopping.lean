import Dynarec.Proofs.Engine.Alike
import Dynarec.Proofs.Interpreter.Stopping

/-!
Engines whose thread is stopped. Telling subscribers, looking code up and translating it come to the same on a stopped
thread as on one that runs, and leave a stopped thread stopped.
-/
namespace Dynarec
open Effect

theorem Machine.publishTier0_stop (machine : Machine) (address : UInt64) (handle : Handle) (sizeHint : UInt64) :
    ({ machine with world := machine.world.stop } : Machine).publishTier0 address handle sizeHint =
      let (resident, after) := machine.publishTier0 address handle sizeHint
      (resident, { after with world := after.world.stop }) := by
  unfold Machine.publishTier0
  dsimp only
  generalize machine.cache.publishTier0 address handle sizeHint = published
  obtain ⟨_ | _, _⟩ := published <;> rfl

theorem Machine.cache_publishTier0 (machine : Machine) (address : UInt64) (handle : Handle) (sizeHint : UInt64) :
    (machine.publishTier0 address handle sizeHint).2.cache =
      (machine.cache.publishTier0 address handle sizeHint).2 := by
  unfold Machine.publishTier0
  generalize machine.cache.publishTier0 address handle sizeHint = published
  obtain ⟨_ | _, _⟩ := published <;> rfl

namespace Engine

def stop (engine : Engine) : Engine := engine.setRunning false

/-- The engine with its thread stopped, if it is stopped there. -/
def stopIf (engine : Engine) (stops : Bool) : Engine := if stops then engine.stop else engine

@[simp] theorem stop_stopIf (engine : Engine) (stops : Bool) : (engine.stopIf stops).stop = engine.stop := by
  cases stops <;> rfl

@[simp] theorem stopIf_stop (engine : Engine) (stops : Bool) : engine.stop.stopIf stops = engine.stop := by
  cases stops <;> rfl

theorem stop_stopIf_of_stop {engine : Engine} (stopped : engine.stop = engine) (stops : Bool) :
    (engine.stopIf stops).stop = engine.stopIf stops := by
  cases stops with
  | false => exact stopped
  | true => rfl

theorem cache_stopIf (engine : Engine) (stops : Bool) : (engine.stopIf stops).cache = engine.cache := by
  cases stops <;> rfl

/-- The second is the first with its thread stopped, and no host code heeds that. -/
structure Stops (left right : Engine) : Prop where
  same : right = left.stop
  heedless : left.cache.Admitted Calling.HostFunction.Heedless

variable {left right : Engine} {address : UInt64}

theorem Stops.ask (stops : left.Stops right) (ask : Decodes → Decodes) :
    ({ left with decodes := ask left.decodes } : Engine).Stops { right with decodes := ask right.decodes } := by
  obtain ⟨rfl, heedless⟩ := stops
  exact ⟨rfl, heedless⟩

theorem notify_stops (stops : left.Stops right) (address : UInt64) :
    Twins Stops (fun _ => True) ((notify address).run left) ((notify address).run right) := by
  obtain ⟨rfl, heedless⟩ := stops
  have told : ∀ subscribers, Stops { left with subscribers } { left.stop with subscribers } := fun _ => ⟨rfl, heedless⟩
  have toldToo : ∀ subscribers, Stops ({ left with subscribers } : Engine).stop { left.stop with subscribers } :=
    fun _ => ⟨rfl, heedless⟩
  have config : left.stop.config = left.config := rfl
  have subscribers : left.stop.subscribers = left.subscribers := rfl
  unfold notify
  rw [run_bind, run_bind, run_get, run_get]
  dsimp only
  rw [config, subscribers]
  split
  · generalize Subscriber.tell address left.subscribers = heard
    obtain ⟨⟨_ | reason, _ | _⟩, subscribers⟩ := heard
    · exact .ok trivial (told _)
    · exact .ok trivial (toldToo _)
    · exact .error _ (told _)
    · exact .error _ (toldToo _)
  · exact .ok trivial ⟨rfl, heedless⟩

theorem translated_stops {α : Type} (stops : left.Stops right) (address : UInt64) (result : Except TranslationError α) :
    Twins Stops (fun _ => True) ((translated address result).run left) ((translated address result).run right) := by
  rw [run_translated, run_translated]
  cases result with
  | error cause => exact .error _ stops
  | ok value => exact .ok trivial stops

theorem decodeBlock_stops (stops : left.Stops right) (mode : Mode) (address : UInt64) :
    Twins Stops (fun _ => True) ((decodeBlock mode address).run left) ((decodeBlock mode address).run right) := by
  have decoded : right.program.block address = left.program.block address := by rw [stops.same]; rfl
  unfold decodeBlock
  rw [run_bind, run_bind, run_modify, run_modify]
  dsimp only
  rw [run_bind, run_bind, run_get, run_get]
  dsimp only
  rw [decoded]
  exact translated_stops (stops.ask fun decodes => { decodes with
    blocks := decodes.blocks + 1
    modes := decodes.modes.insert mode }) address _

theorem decodeGraph_stops (stops : left.Stops right) (address : UInt64) :
    Twins Stops (fun _ => True) ((decodeGraph address).run left) ((decodeGraph address).run right) := by
  have decoded : right.program.graph right.cache.contains address =
      left.program.graph left.cache.contains address := by rw [stops.same]; rfl
  unfold decodeGraph
  rw [run_bind, run_bind, run_modify, run_modify]
  dsimp only
  rw [run_bind, run_bind, run_get, run_get]
  change Twins _ _ ((translated address (left.program.graph left.cache.contains address)).run _)
    ((translated address (right.program.graph right.cache.contains address)).run _)
  rw [decoded]
  exact translated_stops (stops.ask fun decodes => { decodes with graphs := decodes.graphs + 1 }) address _

theorem build_stops (stops : left.Stops right) (address : UInt64) (graph : Guest.Graph) (tier : Tier) :
    Twins Stops (fun made => made.2.Admitted Calling.HostFunction.Heedless)
      ((build address graph tier).run left) ((build address graph tier).run right) := by
  have builder : right.builder = left.builder := by rw [stops.same]; rfl
  have cache : right.cache = left.cache := by rw [stops.same]; rfl
  unfold build
  rw [run_bind, run_bind, run_get, run_get]
  dsimp only
  rw [builder, cache]
  refine (translated_stops stops address _).bind fun emitted leftNow rightNow _ stops => ?_
  obtain ⟨rfl, heedless⟩ := stops
  rw [run_bind, run_bind, run_modify, run_modify]
  dsimp only
  rw [run_bind, run_bind, run_translated, run_translated]
  cases made : left.builder.assemble address graph tier emitted with
  | error cause => exact .error _ ⟨rfl, heedless⟩
  | ok build =>
    have admitted : build.subroutine.Admitted Calling.HostFunction.Heedless :=
      Subroutine.admitted_compiled (Builder.code_assemble made)
    simp only [mapError_ok]
    rw [run_modifyGet, run_modifyGet]
    exact .ok admitted ⟨rfl, heedless.add admitted⟩

theorem compileTier0_stops (stops : left.Stops right) (mode : Mode) :
    Twins Stops (fun _ => True) ((compileTier0 (fun _ engine => engine) mode address).run left)
      ((compileTier0 (fun _ engine => engine) mode address).run right) := by
  unfold compileTier0
  rw [run_bind, run_bind, run_modify, run_modify]
  refine (decodeBlock_stops stops mode address).bind fun block left right _ stops => ?_
  refine (build_stops stops address _ .tier0).bind fun made left right _ stops => ?_
  obtain ⟨handle, subroutine⟩ := made
  obtain ⟨rfl, heedless⟩ := stops
  dsimp only
  rw [run_bind, run_bind, run_modifyGet, run_modifyGet]
  have published := left.machine.publishTier0_stop address handle (.ofNat (Guest.Graph.single block).size)
  have admitted := heedless.publishTier0 address handle (.ofNat (Guest.Graph.single block).size)
  change (left.machine.cache.publishTier0 address handle _).2.Admitted _ at admitted
  rw [← left.machine.cache_publishTier0] at admitted
  change left.stop.machine.publishTier0 address handle (.ofNat (Guest.Graph.single block).size) = _ at published
  dsimp only
  rw [published]
  generalize left.machine.publishTier0 address handle (.ofNat (Guest.Graph.single block).size) = reached at admitted
  obtain ⟨resident, machine⟩ := reached
  dsimp only
  split
  · exact .ok trivial ⟨rfl, admitted⟩
  · exact .ok trivial ⟨rfl, admitted⟩

theorem compileTier1_stops (stops : left.Stops right) (address : UInt64) :
    Twins Stops (Subroutine.Admitted Calling.HostFunction.Heedless) ((compileTier1 address).run left)
      ((compileTier1 address).run right) := by
  unfold compileTier1
  refine (decodeGraph_stops stops address).bind fun graph left right _ stops => ?_
  refine (build_stops stops address graph .tier1).bind fun made left right admitted stops => ?_
  obtain ⟨handle, subroutine⟩ := made
  obtain ⟨rfl, heedless⟩ := stops
  have published := heedless.publish address handle (.ofNat subroutine.generatedOps)
  dsimp only
  rw [run_bind, run_bind, run_modify, run_modify]
  exact .ok admitted ⟨rfl, published.markCallers address⟩

theorem isDue_stops (stops : left.Stops right) (handle : Handle) :
    Twins Stops (fun _ => True) ((isDue handle).run left) ((isDue handle).run right) := by
  obtain ⟨rfl, heedless⟩ := stops
  unfold isDue
  rw [run_modifyGet, run_modifyGet]
  exact .ok trivial ⟨rfl, heedless.checkPromotion handle⟩

/-- A host function that does not heed the flag may be registered. -/
theorem heedless_registerHost {engine after : Engine} {function : Calling.HostFunction}
    (heedless : engine.cache.Admitted Calling.HostFunction.Heedless) (admitted : function.Heedless)
    (made : engine.registerHost address function = .ok after) :
    after.cache.Admitted Calling.HostFunction.Heedless := by
  unfold registerHost at made
  cases placed : Subroutine.thunk address function with
  | error cause =>
    rw [placed] at made
    cases made
  | ok thunk =>
    rw [placed] at made
    cases made
    exact (heedless.add (Subroutine.admitted_thunk placed admitted)).publish address _ 0

section
variable {disturb disturbToo : UInt64 → Engine → Engine}
  (disturbs : ∀ {left right : Engine}, left.Stops right → (disturb address left).Stops (disturbToo address right))
include disturbs

theorem locate_stops (stops : left.Stops right) (mode : Mode) :
    Twins Stops (fun _ => True) ((locate disturb mode address).run left)
      ((locate disturbToo mode address).run right) := by
  have cache : right.cache = left.cache := by rw [stops.same]; rfl
  unfold locate
  rw [run_bind, run_bind, run_get, run_get]
  dsimp only
  rw [cache]
  cases left.cache.handle? address with
  | none => exact compileTier0_stops (disturbs stops) mode
  | some handle =>
    obtain ⟨rfl, heedless⟩ := stops
    exact .ok trivial ⟨rfl, heedless⟩

theorem resolve_stops (stops : left.Stops right) (mode : Mode) :
    Twins Stops (fun found => found.1.Admitted Calling.HostFunction.Heedless)
      ((resolve disturb mode address).run left) ((resolve disturbToo mode address).run right) := by
  unfold resolve
  refine (locate_stops disturbs stops mode).bind fun located left right _ stops => ?_
  obtain ⟨handle, times⟩ := located
  refine (isDue_stops stops handle).bind fun due left right _ stops => ?_
  split
  · exact (compileTier1_stops stops address).bind fun subroutine left right admitted stops => .ok admitted stops
  · have cache : right.cache = left.cache := by rw [stops.same]; rfl
    rw [run_bind, run_bind, run_get, run_get]
    dsimp only
    rw [cache]
    cases held : left.cache.subroutine? handle with
    | none => exact .error _ stops
    | some subroutine => exact .ok (stops.heedless handle subroutine held) stops

end
end Engine
end Dynarec
