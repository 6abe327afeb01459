import Dynarec.Proofs.Engine.Stopping
import Dynarec.Proofs.Interpreter.Interruption

/-!
Dispatches that are interrupted. The run flag may be cleared at any moment of a dispatch: around the telling of the
subscribers, while code is looked for, and before any step of the code. The dispatch comes to the same as one that is
left alone, but for the flag, which is found cleared after it.
-/
namespace Dynarec
open Effect

namespace Engine

variable {α : Type} {kind : α → Prop} {work : Work α} {engine other after : Engine} {value : α}

/-- Work that does not heed the flag comes to the same result on a thread that others may have stopped. -/
theorem Stops.follows (workToo : Work α)
    (twins : ∀ {left right : Engine}, left.Stops right → Twins Stops kind (work.run left) (workToo.run right))
    (twinsToo : ∀ {left right : Engine}, left.Stops right →
      Twins Stops kind (workToo.run left) (workToo.run right))
    (heedless : engine.cache.Admitted Calling.HostFunction.Heedless) (ran : work.run engine = (.ok value, after))
    (same : other.stop = engine.stop) :
    ∃ left, workToo.run other = (.ok value, left) ∧ left.stop = after.stop ∧ (other.stop = other → left.stop = left) ∧
      kind value ∧ after.cache.Admitted Calling.HostFunction.Heedless := by
  have cache : other.cache = engine.cache := congrArg (·.cache) same
  have stopped := twins ⟨rfl, heedless⟩
  have stoppedToo := twinsToo (⟨rfl, cache ▸ heedless⟩ : other.Stops other.stop)
  rw [same] at stoppedToo
  rw [ran] at stopped
  generalize onStopped : workToo.run engine.stop = there at stopped stoppedToo
  generalize onOther : workToo.run other = here at stoppedToo
  cases stopped with
  | ok good stops =>
    cases stoppedToo with
    | @ok _ left _ _ stopsToo =>
      refine ⟨left, rfl, stopsToo.same.symm.trans stops.same, fun already => ?_, good, stops.heedless⟩
      rw [← already, same, onStopped] at onOther
      obtain rfl : left = after.stop := (congrArg Prod.snd onOther).symm.trans stops.same
      rfl

/-- A thread that is stopped while a block is translated was stopped all along. -/
theorem resolve_missing {address : UInt64} (missing : engine.cache.handle? address = none) (mode : Mode) :
    (resolve (fun _ engine => engine.stopIf true) mode address).run engine =
      (resolve (fun _ engine => engine.stopIf true) mode address).run engine.stop := by
  have missingToo : engine.stop.cache.handle? address = none := missing
  have same : (locate (fun _ engine => engine.stopIf true) mode address).run engine =
      (locate (fun _ engine => engine.stopIf true) mode address).run engine.stop := by
    unfold locate
    rw [run_bind, run_bind, run_get, run_get]
    dsimp only
    rw [missing, missingToo]
    rfl
  unfold resolve
  rw [run_bind, run_bind, same]

section
variable {address : UInt64} {told found : Engine}

theorem notify_follows (heedless : engine.cache.Admitted Calling.HostFunction.Heedless)
    (heard : (notify address).run engine = (.ok (), told)) (same : other.stop = engine.stop) :
    ∃ left, (notify address).run other = (.ok (), left) ∧ left.stop = told.stop ∧
      (other.stop = other → left.stop = left) ∧ told.cache.Admitted Calling.HostFunction.Heedless := by
  obtain ⟨left, ran, stops, keeps, _, heedless⟩ := Stops.follows (notify address)
    (fun stops => notify_stops stops address) (fun stops => notify_stops stops address) heedless heard same
  exact ⟨left, ran, stops, keeps, heedless⟩

theorem resolve_follows {mode : Mode} {subroutine : Subroutine} {times : Profile.SubroutineTimes}
    (heedless : told.cache.Admitted Calling.HostFunction.Heedless)
    (resolved : (resolve (fun _ engine => engine) mode address).run told = (.ok (subroutine, times), found))
    (stops : Bool) (same : other.stop = told.stop) :
    ∃ left, (resolve (fun _ engine => engine.stopIf stops) mode address).run other = (.ok (subroutine, times), left) ∧
      left.stop = found.stop ∧ (other.stop = other ∨ stops = true ∧ other.cache.handle? address = none →
        left.stop = left) ∧ subroutine.Admitted Calling.HostFunction.Heedless ∧
          found.cache.Admitted Calling.HostFunction.Heedless := by
  have follows (other : Engine) (same : other.stop = told.stop) :=
    Stops.follows (resolve (fun _ engine => engine.stopIf stops) mode address)
      (fun related => resolve_stops (fun related => ⟨by rw [related.same, stopIf_stop], related.heedless⟩) related mode)
      (fun related => resolve_stops (fun related => ⟨by rw [related.same, stopIf_stop, stop_stopIf],
        (cache_stopIf _ _).symm ▸ related.heedless⟩) related mode) heedless resolved same
  obtain ⟨left, ran, stopped, keeps, admitted, heedless⟩ := follows other same
  refine ⟨left, ran, stopped, ?_, admitted, heedless⟩
  rintro (already | ⟨rfl, missing⟩)
  · exact keeps already
  · obtain ⟨_, ranToo, _, keepsToo, _⟩ := follows other.stop same
    rw [← resolve_missing missing, ran] at ranToo
    cases ranToo
    exact keepsToo rfl

end
end Engine

namespace Session
open Interpreter

def stop (session : Session) : Session := { session with engine := session.engine.stop }

/-- The session with its thread set running again. -/
def resume (session : Session) : Session := { session with engine := session.engine.setRunning true }

theorem resume_stop {session : Session} (running : session.engine.isRunning = true) : session.stop.resume = session := by
  have world : ({ session.engine.world with running := true } : World) = session.engine.world := by
    rw [← running]
    rfl
  change (⟨session.engine.setWorld { session.engine.world with running := true }, session.cpu⟩ : Session) = session
  rw [world]
  rfl

/-- When the flag is cleared in a dispatch: before and after subscribers are told of the address, while a block is
translated, before, amid and after the run of the code. -/
structure Timing where
  early : Bool := false
  told : Bool := false
  translating : Bool := false
  found : Bool := false
  running : Moments := .never
  late : Bool := false

/-- Stops the thread, if it is stopped here. -/
def pause (stops : Bool) : Run Unit := modify fun session => { session with engine := session.engine.stopIf stops }

/-- Runs code while the flag is cleared at moments of the run. -/
def runAmid (moments : Moments) (fuel : Nat) (subroutine : Subroutine) : Run UInt64 :=
  ExceptT.mk fun
    | ⟨engine, cpu⟩ =>
      match execAmid engine.cache fuel moments (subroutine.activate cpu.regs) { regs := cpu.regs, world := engine.world } with
      | .error halt => (.error (.halt halt), ⟨engine, cpu⟩)
      | .ok (next, context) => (.ok next, ⟨engine.setWorld context.world, { cpu with regs := context.regs }⟩)

/-- A dispatch, where no other thread runs, in which the flag is cleared. -/
def dispatchAmid (timing : Timing) (fuel : Nat) (address : UInt64) : Run UInt64 := do
  pause timing.early
  .ofWork (Engine.notify address)
  pause timing.told
  let mode := (← get).cpu.mode
  let (subroutine, times) ← .ofWork (Engine.resolve (fun _ engine => engine.stopIf timing.translating) mode address)
  pause timing.found
  let next ← runAmid timing.running fuel subroutine
  pause timing.late
  modify fun
    | ⟨engine, cpu⟩ => ⟨engine.recordRun address next subroutine.tier times, cpu⟩
  return next

/-- The flag is cleared at a moment that comes in a dispatch of an address. -/
inductive Timing.Cuts (timing : Timing) (address : UInt64) (session : Session) : Prop
  | early : timing.early = true → Cuts timing address session
  | told : timing.told = true → Cuts timing address session
  | translating : timing.translating = true → session.engine.cache.handle? address = none → Cuts timing address session
  | found : timing.found = true → Cuts timing address session
  | running {subroutine : Subroutine} {found : Engine} {moment : List Nat} :
      Finds (fun _ engine => engine) session.cpu.mode address session.engine subroutine found →
        Occurs found.cache (subroutine.activate session.cpu.regs) { regs := session.cpu.regs, world := found.world }
          moment → timing.running moment = true → Cuts timing address session
  | late : timing.late = true → Cuts timing address session

theorem run_pause (stops : Bool) (engine : Engine) (cpu : Cpu) :
    (pause stops).run ⟨engine, cpu⟩ = (.ok (), ⟨engine.stopIf stops, cpu⟩) := rfl

theorem run_runAmid (moments : Moments) (fuel : Nat) (subroutine : Subroutine) (engine : Engine) (cpu : Cpu) :
    (runAmid moments fuel subroutine).run ⟨engine, cpu⟩ =
      match execAmid engine.cache fuel moments (subroutine.activate cpu.regs)
          { regs := cpu.regs, world := engine.world } with
      | .error halt => (.error (.halt halt), ⟨engine, cpu⟩)
      | .ok (next, context) => (.ok next, ⟨engine.setWorld context.world, { cpu with regs := context.regs }⟩) := rfl

theorem runAmid_never (fuel : Nat) (subroutine : Subroutine) : runAmid .never fuel subroutine = run fuel subroutine := by
  refine funext fun session => ?_
  obtain ⟨engine, cpu⟩ := session
  change (runAmid .never fuel subroutine).run ⟨engine, cpu⟩ = (run fuel subroutine).run ⟨engine, cpu⟩
  have ran : engine.machine.run fuel subroutine cpu.regs =
      (exec engine.cache fuel (subroutine.activate cpu.regs) { regs := cpu.regs, world := engine.world }).map
        fun arrival => (arrival.1, arrival.2.regs, ⟨engine.cache, arrival.2.world⟩) := Machine.run_eq _ _ _ _
  rw [run_runAmid, execAmid_never, run_run, ran]
  cases exec engine.cache fuel (subroutine.activate cpu.regs) { regs := cpu.regs, world := engine.world } <;> rfl

theorem pause_false : pause false = pure () := rfl

/-- A dispatch that is left alone is an ordinary one. -/
theorem dispatchAmid_never (fuel : Nat) (address : UInt64) :
    dispatchAmid {} fuel address = dispatch (fun _ engine => engine) fuel address := by
  unfold dispatchAmid dispatch
  simp only [pause_false, pure_bind, runAmid_never]
  rfl

variable {disturb : UInt64 → Engine → Engine} {fuel : Nat} {address next : UInt64} {engine told found : Engine}
  {cpu : Cpu} {after ran : Session} {subroutine : Subroutine} {times : Profile.SubroutineTimes}

/-- What a dispatch has come through that completed. -/
theorem of_dispatch (completed : (dispatch disturb fuel address).run ⟨engine, cpu⟩ = (.ok next, after)) :
    ∃ told subroutine times found ran, (Engine.notify address).run engine = (.ok (), told) ∧
      (Engine.resolve disturb cpu.mode address).run told = (.ok (subroutine, times), found) ∧
        (run fuel subroutine).run ⟨found, cpu⟩ = (.ok next, ran) ∧
          after = ⟨ran.engine.recordRun address next subroutine.tier times, ran.cpu⟩ := by
  rw [run_dispatch] at completed
  cases heard : (Engine.notify address).run engine with
  | mk verdict told =>
    rw [heard] at completed
    cases verdict with
    | error failure => cases completed
    | ok =>
      dsimp only at completed
      cases resolved : (Engine.resolve disturb cpu.mode address).run told with
      | mk result found =>
        rw [resolved] at completed
        cases result with
        | error failure => cases completed
        | ok value =>
          obtain ⟨subroutine, times⟩ := value
          dsimp only at completed
          have runs := run_run fuel subroutine found cpu
          split at completed
          · cases completed
          · next arrives =>
            rw [arrives] at runs
            cases completed
            exact ⟨told, subroutine, times, found, _, rfl, resolved, runs, rfl⟩

theorem dispatchAmid_arrives {timing : Timing}
    (heard : (Engine.notify address).run (engine.stopIf timing.early) = (.ok (), told))
    (resolved : (Engine.resolve (fun _ engine => engine.stopIf timing.translating) cpu.mode address).run
      (told.stopIf timing.told) = (.ok (subroutine, times), found))
    (executed : (runAmid timing.running fuel subroutine).run ⟨found.stopIf timing.found, cpu⟩ = (.ok next, ran)) :
    (dispatchAmid timing fuel address).run ⟨engine, cpu⟩ =
      (.ok next, ⟨(ran.engine.stopIf timing.late).recordRun address next subroutine.tier times, ran.cpu⟩) := by
  unfold dispatchAmid
  rw [run_bind, run_pause]
  dsimp only
  rw [run_bind, Run.run_ofWork, heard]
  dsimp only
  rw [run_bind, run_pause]
  dsimp only
  rw [run_bind, run_get]
  dsimp only
  rw [run_bind, Run.run_ofWork, resolved]
  dsimp only
  rw [run_bind, run_pause]
  dsimp only
  rw [run_bind, executed]
  rfl

theorem cache_run (executed : (run fuel subroutine).run ⟨found, cpu⟩ = (.ok next, ran)) :
    ran.engine.cache = found.cache := by
  rw [← runAmid_never, run_runAmid] at executed
  split at executed <;> cases executed
  rfl

theorem run_follows {other : Engine} (heedless : found.cache.Admitted Calling.HostFunction.Heedless)
    (admitted : subroutine.Admitted Calling.HostFunction.Heedless) (moments : Moments)
    (executed : (run fuel subroutine).run ⟨found, cpu⟩ = (.ok next, ran)) (same : other.stop = found.stop) :
    ∃ left, (runAmid moments fuel subroutine).run ⟨other, cpu⟩ = (.ok next, left) ∧ left.stop = ran.stop ∧
      (other.stop = other → left.stop = left) ∧ ∀ moment, Occurs found.cache (subroutine.activate cpu.regs)
        { regs := cpu.regs, world := found.world } moment → moments moment = true → left.stop = left := by
  have cache : other.cache = found.cache := congrArg (·.cache) same
  have callee := admitted.activate cpu.regs
  have begin : Context.stop { regs := cpu.regs, world := other.world } =
      Context.stop { regs := cpu.regs, world := found.world } :=
    congrArg (fun engine : Engine => ({ regs := cpu.regs, world := engine.world } : Context)) same
  rw [← runAmid_never, run_runAmid, execAmid_never] at executed
  split at executed
  · cases executed
  · next context alone =>
    cases executed
    obtain ⟨left, interrupted, sameLeft⟩ := execAmid_returns heedless moments callee alone begin
    -- the flag is all that the contexts hold of the thread beside its registers
    have stops (stopped : left.stop = left) :
        (⟨other.setWorld left.world, { cpu with regs := left.regs }⟩ : Session).stop =
          ⟨other.setWorld left.world, { cpu with regs := left.regs }⟩ :=
      congrArg (fun left : Context => (⟨other.setWorld left.world, { cpu with regs := left.regs }⟩ : Session)) stopped
    refine ⟨⟨other.setWorld left.world, { cpu with regs := left.regs }⟩, ?_, ?_, fun already => stops ?_,
      fun moment occurs stopped => stops (occurs.stopped heedless callee stopped begin interrupted)⟩
    · rw [run_runAmid, cache, interrupted]
    · change (⟨other.stop.setWorld left.stop.world, { cpu with regs := left.stop.regs }⟩ : Session) =
        ⟨found.stop.setWorld context.stop.world, { cpu with regs := context.stop.regs }⟩
      rw [same, sameLeft]
    · have alreadyToo : Context.stop { regs := cpu.regs, world := other.world } =
          { regs := cpu.regs, world := other.world } :=
        congrArg (fun engine : Engine => ({ regs := cpu.regs, world := engine.world } : Context)) already
      exact execAmid_stopped heedless callee alreadyToo interrupted

/-- What a dispatch completes that is left alone, it completes whenever the flag is cleared in it; and once the flag is
cleared it stays so. -/
theorem dispatchAmid_completes (heedless : engine.cache.Admitted Calling.HostFunction.Heedless) (timing : Timing)
    (completed : (dispatch (fun _ engine => engine) fuel address).run ⟨engine, cpu⟩ = (.ok next, after)) :
    ∃ left, (dispatchAmid timing fuel address).run ⟨engine, cpu⟩ = (.ok next, left) ∧ left.stop = after.stop ∧
      (timing.Cuts address ⟨engine, cpu⟩ → left.stop = left) ∧
        after.engine.cache.Admitted Calling.HostFunction.Heedless := by
  obtain ⟨told, subroutine, times, found, ran, heard, resolved, executed, rfl⟩ := of_dispatch completed
  have known : told.cache = engine.cache := by
    have kept := (engine.run_notify address).2.1
    rwa [heard] at kept
  obtain ⟨toldToo, heardToo, sameTold, keepsTold, heedless⟩ :=
    Engine.notify_follows heedless heard (engine.stop_stopIf timing.early)
  obtain ⟨foundToo, resolvedToo, sameFound, keepsFound, admitted, heedless⟩ :=
    Engine.resolve_follows heedless resolved timing.translating ((toldToo.stop_stopIf timing.told).trans sameTold)
  obtain ⟨left, executedToo, sameLeft, keepsLeft, occurs⟩ :=
    run_follows heedless admitted timing.running executed ((foundToo.stop_stopIf timing.found).trans sameFound)
  refine ⟨_, dispatchAmid_arrives heardToo resolvedToo executedToo, ?_, fun cuts => ?_, cache_run executed ▸ heedless⟩
  · change (⟨(left.engine.stopIf timing.late).stop.recordRun address next subroutine.tier times, left.cpu⟩ : Session) =
      ⟨ran.stop.engine.recordRun address next subroutine.tier times, ran.stop.cpu⟩
    rw [Engine.stop_stopIf, ← sameLeft]
    rfl
  · have stopped : (left.engine.stopIf timing.late).stop = left.engine.stopIf timing.late := by
      have fromLeft (stopped : left.stop = left) :=
        Engine.stop_stopIf_of_stop (congrArg Session.engine stopped) timing.late
      have fromFound (stopped : foundToo.stop = foundToo) :=
        fromLeft (keepsLeft (Engine.stop_stopIf_of_stop stopped timing.found))
      have fromTold (stopped : toldToo.stop = toldToo) :=
        fromFound (keepsFound (.inl (Engine.stop_stopIf_of_stop stopped timing.told)))
      cases cuts with
      | early early =>
        refine fromTold (keepsTold ?_)
        rw [early]
        rfl
      | told told =>
        refine fromFound (keepsFound (.inl ?_))
        rw [told]
        rfl
      | translating translating missing =>
        refine fromFound (keepsFound (.inr ⟨translating, ?_⟩))
        have same : (toldToo.stopIf timing.told).cache = engine.cache := by
          rw [Engine.cache_stopIf]
          exact (congrArg (·.cache) sameTold).trans known
        rwa [same]
      | found found =>
        refine fromLeft (keepsLeft ?_)
        rw [found]
        rfl
      | running finds moment stops =>
        obtain ⟨_, _, heardAgain, resolvedAgain⟩ := finds
        cases heard.symm.trans heardAgain
        cases resolved.symm.trans resolvedAgain
        exact fromLeft (occurs _ moment stops)
      | late late =>
        rw [late]
        rfl
    exact congrArg (fun engine => (⟨engine.recordRun address next subroutine.tier times, left.cpu⟩ : Session)) stopped

end Session
end Dynarec
