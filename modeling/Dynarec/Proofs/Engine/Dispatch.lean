import Dynarec.Proofs.Engine.Resolution

/-!
Dispatches. Whatever comes of it, a dispatch changes the entries by finding code for its address or not at all.
-/
namespace Dynarec
open Effect

theorem Run.run_ofWork {α : Type} (work : Work α) (engine : Engine) (cpu : Cpu) :
    (Run.ofWork work).run ⟨engine, cpu⟩ = ((work.run engine).1, ⟨(work.run engine).2, cpu⟩) := rfl

namespace Engine

theorem run_notify (engine : Engine) (address : UInt64) :
    ((notify address).run engine).2.setup = engine.setup ∧ ((notify address).run engine).2.cache = engine.cache ∧
      ((notify address).run engine).2.stats = engine.stats := by
  unfold notify
  rw [run_bind, run_get]
  dsimp only
  split
  · generalize Subscriber.tell address engine.subscribers = told
    obtain ⟨verdict, subscribers⟩ := told
    dsimp only
    rw [run_bind]
    cases verdict.cancelled <;> cases verdict.failure <;> exact ⟨rfl, rfl, rfl⟩
  · exact ⟨rfl, rfl, rfl⟩

/-- Where nothing is traced no subscriber is told. -/
theorem run_notify_untraced {engine : Engine} (untraced : engine.config.trace = false) (address : UInt64) :
    (notify address).run engine = (.ok (), engine) := by
  unfold notify
  rw [run_bind, run_get]
  dsimp only
  rw [untraced, if_neg Bool.false_ne_true]
  rfl

end Engine

namespace Session

/-- Engines without rivals are not disturbed. -/
theorem rivals_quiet {engine : Engine} (single : engine.rivals = none) (limit : Nat) (address : UInt64) :
    rivals limit address engine = engine := by
  unfold rivals
  rw [single]

theorem run_run (fuel : Nat) (subroutine : Subroutine) (engine : Engine) (cpu : Cpu) :
    (run fuel subroutine).run ⟨engine, cpu⟩ = match engine.machine.run fuel subroutine cpu.regs with
      | .error halt => (.error (.halt halt), ⟨engine, cpu⟩)
      | .ok (next, regs, machine) => (.ok next, ⟨{ engine with machine }, { cpu with regs }⟩) := rfl

/-- What a dispatch comes to, step by step. -/
theorem run_dispatch (disturb : UInt64 → Engine → Engine) (fuel : Nat) (address : UInt64) (engine : Engine) (cpu : Cpu) :
    (dispatch disturb fuel address).run ⟨engine, cpu⟩ = match (Engine.notify address).run engine with
      | (.error failure, told) => (.error failure, ⟨told, cpu⟩)
      | (.ok (), told) => match (Engine.resolve disturb cpu.mode address).run told with
        | (.error failure, found) => (.error failure, ⟨found, cpu⟩)
        | (.ok (subroutine, times), found) => match found.machine.run fuel subroutine cpu.regs with
          | .error halt => (.error (.halt halt), ⟨found, cpu⟩)
          | .ok (next, regs, machine) =>
            (.ok next,
              ⟨({ found with machine } : Engine).recordRun address next subroutine.tier times, { cpu with regs }⟩) := by
  unfold dispatch
  rw [run_bind, Run.run_ofWork]
  rcases (Engine.notify address).run engine with ⟨_ | _, told⟩
  · rfl
  dsimp only
  rw [run_bind, run_get]
  dsimp only
  rw [run_bind, Run.run_ofWork]
  rcases (Engine.resolve disturb cpu.mode address).run told with ⟨_ | ⟨subroutine, times⟩, found⟩
  · rfl
  dsimp only
  rw [run_bind, run_run]
  cases found.machine.run fuel subroutine cpu.regs <;> rfl

/-- Code for an address has been run in the engine `found`, and what came of it has been recorded. -/
def Executes (fuel : Nat) (address : UInt64) (subroutine : Subroutine) (found : Engine) (cpu : Cpu)
    (outcome : Except Failure UInt64 × Session) : Prop :=
  ∃ times, outcome = match found.machine.run fuel subroutine cpu.regs with
    | .error halt => (.error (.halt halt), ⟨found, cpu⟩)
    | .ok (next, regs, machine) =>
      (.ok next, ⟨({ found with machine } : Engine).recordRun address next subroutine.tier times, { cpu with regs }⟩)

/-- Running code leaves the cache and the tier-1 builds that have been counted. -/
theorem Executes.keeps {fuel : Nat} {address : UInt64} {subroutine : Subroutine} {found : Engine} {cpu : Cpu}
    {outcome : Except Failure UInt64 × Session} (executes : Executes fuel address subroutine found cpu outcome) :
    outcome.2.engine.setup = found.setup ∧ outcome.2.engine.cache = found.cache ∧
      outcome.2.engine.stats.tier1Compiles = found.stats.tier1Compiles := by
  obtain ⟨times, rfl⟩ := executes
  cases ran : found.machine.run fuel subroutine cpu.regs with
  | error halt => exact ⟨rfl, rfl, rfl⟩
  | ok arrival =>
    have same := Machine.cache_run ran
    exact ⟨rfl, same, rfl⟩

/-- A subscriber that fails keeps a dispatch from finding code. -/
theorem dispatch_unheard {engine told : Engine} {address : UInt64} {failure : Failure}
    (heard : (Engine.notify address).run engine = (.error failure, told)) (disturb : UInt64 → Engine → Engine)
    (fuel : Nat) (cpu : Cpu) : (dispatch disturb fuel address).run ⟨engine, cpu⟩ = (.error failure, ⟨told, cpu⟩) := by
  rw [run_dispatch, heard]

/-- A dispatch fails where no code is found. -/
theorem dispatch_unfound {disturb : UInt64 → Engine → Engine} {engine told found : Engine} {address : UInt64}
    {cpu : Cpu} {failure : Failure} (heard : (Engine.notify address).run engine = (.ok (), told))
    (unfound : (Engine.resolve disturb cpu.mode address).run told = (.error failure, found)) (fuel : Nat) :
    (dispatch disturb fuel address).run ⟨engine, cpu⟩ = (.error failure, ⟨found, cpu⟩) := by
  rw [run_dispatch, heard]
  dsimp only
  rw [unfound]

/-- A dispatch of an address has found code for it, and left the engine `found` behind. -/
def Finds (disturb : UInt64 → Engine → Engine) (mode : Mode) (address : UInt64) (engine : Engine)
    (subroutine : Subroutine) (found : Engine) : Prop :=
  ∃ told times, (Engine.notify address).run engine = (.ok (), told) ∧
    (Engine.resolve disturb mode address).run told = (.ok (subroutine, times), found)

/-- What a dispatch finds it runs, within whatever bound. -/
theorem Finds.runs {disturb : UInt64 → Engine → Engine} {address : UInt64} {engine found : Engine} {cpu : Cpu}
    {subroutine : Subroutine} (finds : Finds disturb cpu.mode address engine subroutine found) :
    ∃ times, ∀ fuel, (dispatch disturb fuel address).run ⟨engine, cpu⟩ =
      match found.machine.run fuel subroutine cpu.regs with
      | .error halt => (.error (.halt halt), ⟨found, cpu⟩)
      | .ok (next, regs, machine) =>
        (.ok next,
          ⟨({ found with machine } : Engine).recordRun address next subroutine.tier times, { cpu with regs }⟩) := by
  obtain ⟨told, times, heard, resolved⟩ := finds
  refine ⟨times, fun fuel => ?_⟩
  rw [run_dispatch, heard]
  dsimp only
  rw [resolved]

theorem Finds.executes {disturb : UInt64 → Engine → Engine} {address : UInt64} {engine found : Engine} {cpu : Cpu}
    {subroutine : Subroutine} (finds : Finds disturb cpu.mode address engine subroutine found) (fuel : Nat) :
    Executes fuel address subroutine found cpu ((dispatch disturb fuel address).run ⟨engine, cpu⟩) := by
  obtain ⟨times, runs⟩ := finds.runs
  exact ⟨times, runs fuel⟩

/-- In an engine without rivals nothing disturbs a dispatch. -/
theorem dispatch_single {engine : Engine} (single : engine.rivals = none) (limit fuel : Nat) (address : UInt64)
    (cpu : Cpu) : (dispatch (rivals limit) fuel address).run ⟨engine, cpu⟩ =
      (dispatch (fun _ engine => engine) fuel address).run ⟨engine, cpu⟩ := by
  have setup := (engine.run_notify address).1
  rw [run_dispatch, run_dispatch]
  generalize (Engine.notify address).run engine = heard at setup
  obtain ⟨_ | _, told⟩ := heard
  · rfl
  · have alone : told.rivals = none := (congrArg (·.2.2.2) setup).trans single
    have same : (Engine.resolve (rivals limit) cpu.mode address).run told =
        (Engine.resolve (fun _ engine => engine) cpu.mode address).run told :=
      Engine.resolve_disturbed (rivals_quiet alone limit address) cpu.mode
    dsimp only
    rw [same]

/-- In an engine without rivals it does not count how long they could run. -/
theorem dispatch_alone {engine : Engine} (single : engine.rivals = none) (limit other fuel : Nat) (address : UInt64)
    (cpu : Cpu) : (dispatch (rivals limit) fuel address).run ⟨engine, cpu⟩ =
      (dispatch (rivals other) fuel address).run ⟨engine, cpu⟩ :=
  (dispatch_single single limit fuel address cpu).trans (dispatch_single single other fuel address cpu).symm

/-- Otherwise it finds code as the entries tell, and runs it. -/
theorem dispatch_resolves {engine told : Engine} {entries : Entries} (shown : engine.cache.Shows entries)
    (single : engine.rivals = none) {address : UInt64}
    (heard : (Engine.notify address).run engine = (.ok (), told)) (limit : Nat) (cpu : Cpu) :
    ∃ result next builds found, entries.resolve engine.program engine.builder address = (result, next, builds) ∧
      told.Leads found next builds ∧ match result with
        | .error cause => ∀ fuel, (dispatch (rivals limit) fuel address).run ⟨engine, cpu⟩ =
            (.error (.error (.translate address cause)), ⟨found, cpu⟩)
        | .ok subroutine => Finds (rivals limit) cpu.mode address engine subroutine found := by
  obtain ⟨setup, cache, stats⟩ := engine.run_notify address
  rw [heard] at setup cache stats
  rw [← cache] at shown
  have same : told.rivals = engine.rivals := congrArg (·.2.2.2) setup
  have quiet := rivals_quiet (same.trans single) limit address
  obtain ⟨result, next, builds, found, resolved, leads, ran⟩ := Engine.run_resolve shown quiet cpu.mode
  rw [Engine.program_of_setup setup, Engine.builder_of_setup setup] at resolved
  refine ⟨result, next, builds, found, resolved, leads, ?_⟩
  cases result with
  | error cause => exact dispatch_unfound heard ran
  | ok subroutine =>
    obtain ⟨times, ran⟩ := ran
    exact ⟨told, times, heard, ran⟩

/-- A dispatch finds code for its address, or a subscriber has kept it from doing so. -/
theorem dispatch_entries {engine : Engine} {entries : Entries} (shown : engine.cache.Shows entries)
    (single : engine.rivals = none) (limit fuel : Nat) (address : UInt64) (cpu : Cpu) :
    ∃ result after left, (dispatch (rivals limit) fuel address).run ⟨engine, cpu⟩ = (result, ⟨after, left⟩) ∧
      after.setup = engine.setup ∧ ∃ next builds, after.cache.Shows next ∧
        after.stats.tier1Compiles = engine.stats.tier1Compiles + builds ∧ ((next, builds) = (entries, 0) ∨
          (next, builds) = (entries.resolve engine.program engine.builder address).2) := by
  obtain ⟨setup, cache, stats⟩ := engine.run_notify address
  cases heard : (Engine.notify address).run engine with
  | mk verdict told =>
    rw [heard] at setup cache stats
    cases verdict with
    | error failure =>
      refine ⟨_, told, cpu, dispatch_unheard heard _ fuel cpu, setup, entries, 0, ?_, by rw [stats]; rfl, .inl rfl⟩
      rwa [cache]
    | ok =>
      obtain ⟨result, next, builds, found, resolved, leads, ran⟩ := dispatch_resolves shown single heard limit cpu
      have counted := leads.builds
      rw [stats] at counted
      have moves : (next, builds) = (entries.resolve engine.program engine.builder address).2 := by rw [resolved]
      cases result with
      | error cause =>
        exact ⟨_, found, cpu, ran fuel, leads.keeps.setup.trans setup, next, builds, leads.shown, counted, .inr moves⟩
      | ok subroutine =>
        obtain ⟨sameSetup, sameCache, sameBuilds⟩ := (ran.executes fuel).keeps
        generalize (dispatch (rivals limit) fuel address).run ⟨engine, cpu⟩ = outcome at sameSetup sameCache sameBuilds ⊢
        obtain ⟨value, after, left⟩ := outcome
        refine ⟨value, after, left, rfl, sameSetup.trans (leads.keeps.setup.trans setup), next, builds, ?_,
          sameBuilds.trans counted, .inr moves⟩
        rw [sameCache]
        exact leads.shown

theorem loop_succ (disturb : UInt64 → Engine → Engine) (poll : Engine → Bool) (fuel : Nat) (address : UInt64)
    (session : Session) :
    (loop disturb poll (fuel + 1) address).run session = match (dispatch disturb fuel address).run session with
      | (.error failure, after) => (.error failure, after)
      | (.ok next, after) =>
        if next = 0 ∨ !poll after.engine then (.ok next, after) else (loop disturb poll fuel next).run after := by
  rw [loop, run_bind]
  rcases (dispatch disturb fuel address).run session with ⟨_ | next, after⟩
  · rfl
  · dsimp only
    rw [run_bind, run_get]
    dsimp only
    split <;> rfl

/-- What dispatches keep true of an engine the dispatch loop keeps. -/
theorem loop_keeps (holds : Engine → Prop) {disturb : UInt64 → Engine → Engine}
    (kept : ∀ {engine after : Engine} {cpu left : Cpu} {result : Except Failure UInt64} {fuel : Nat} {address : UInt64},
      holds engine → (dispatch disturb fuel address).run ⟨engine, cpu⟩ = (result, ⟨after, left⟩) → holds after)
    (poll : Engine → Bool) (fuel : Nat) (address : UInt64) {engine : Engine} (held : holds engine) (cpu : Cpu) :
    holds ((loop disturb poll fuel address).run ⟨engine, cpu⟩).2.engine := by
  induction fuel generalizing engine address cpu with
  | zero => exact held
  | succ fuel ih =>
    rw [loop_succ]
    cases ran : (dispatch disturb fuel address).run ⟨engine, cpu⟩ with
    | mk result session =>
      obtain ⟨after, left⟩ := session
      have dispatched := kept held ran
      cases result with
      | error failure => exact dispatched
      | ok next =>
        dsimp only
        split
        · exact dispatched
        · exact ih next dispatched left

end Session
end Dynarec
