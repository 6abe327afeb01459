import Dynarec.Proofs.Compilation.Faithful
import Dynarec.Proofs.Engine.Dispatch

/-!
Engines against the guest machine. Where each dispatch runs code that stands for what is at its address, it takes the
machine a step at least, to where the engine goes on from; so a run of the engine comes to an end exactly where the
machine does, and to the same registers and the same memory.
-/
namespace Dynarec
open Effect Semantics Interpreter

theorem Machine.run_eq (machine : Machine) (fuel : Nat) (subroutine : Subroutine) (regs : RegisterFile) :
    machine.run fuel subroutine regs = (invoke machine.cache fuel subroutine { regs, world := machine.world }).map
      fun arrival => (arrival.1, arrival.2.regs, ⟨machine.cache, arrival.2.world⟩) := by
  obtain ⟨cache, world⟩ := machine
  unfold Machine.run
  dsimp only
  cases invoke cache fuel subroutine { regs, world } <;> rfl

namespace Session

/-- The guest machine where a session goes on at an address. -/
def stateAt (session : Session) (address : UInt64) : State := ⟨address, session.cpu.regs, session.engine.world⟩

/-- What a dispatch makes of what the code it has found comes to. -/
def arrive (address : UInt64) (found : Engine) (tier : Tier) (times : Profile.SubroutineTimes) (cpu : Cpu) :
    Outcome (UInt64 × Context) → Except Failure UInt64 × Session
  | .error halt => (.error (.halt halt), ⟨found, cpu⟩)
  | .ok (next, context) =>
    (.ok next, ⟨(found.setWorld context.world).recordRun address next tier times, { cpu with regs := context.regs }⟩)

theorem arrive_run (address : UInt64) (found : Engine) (cpu : Cpu) (fuel : Nat) (subroutine : Subroutine)
    (times : Profile.SubroutineTimes) :
    (match found.machine.run fuel subroutine cpu.regs with
      | .error halt => (.error (.halt halt), ⟨found, cpu⟩)
      | .ok (next, regs, machine) =>
        (.ok next,
          ⟨({ found with machine } : Engine).recordRun address next subroutine.tier times, { cpu with regs }⟩)) =
      arrive address found subroutine.tier times cpu
        (invoke found.cache fuel subroutine { regs := cpu.regs, world := found.world }) := by
  rw [Machine.run_eq]
  change _ = arrive address found subroutine.tier times cpu
    (invoke found.machine.cache fuel subroutine { regs := cpu.regs, world := found.machine.world })
  cases invoke found.machine.cache fuel subroutine { regs := cpu.regs, world := found.machine.world } with
  | error halt => rfl
  | ok arrival => rfl

/-- What a dispatch does in a session: it finds nothing, where there is nothing; or it runs as code does in a faithful
cache, whichever that is, and goes on in sessions that hold. -/
inductive Conducts (code : Semantics.Code) (holds : UInt64 → Session → Prop) (address : UInt64) (session : Session) :
    Prop
  | nothing {found : Engine} : code.program.at? address = none → code.host address = none →
      session.engine.world.Alike found.world →
        (∀ limit fuel, (dispatch (rivals limit) fuel address).run session =
          (.error (.error (.translate address (.decode address "no instruction scripted"))), ⟨found, session.cpu⟩)) →
            Conducts code holds address session
  | code {found : Engine} {cache : Cache} {subroutine : Subroutine} {times : Profile.SubroutineTimes} :
      session.engine.world.Alike found.world → cache.Faithful code → cache.get? address = some subroutine →
        (∀ limit fuel, (dispatch (rivals limit) fuel address).run session =
          arrive address found subroutine.tier times session.cpu
            (invoke cache fuel subroutine { regs := session.cpu.regs, world := found.world })) →
          (∀ limit fuel next after, (dispatch (rivals limit) fuel address).run session = (.ok next, after) →
            next ≠ 0 → after.engine.isRunning = true → holds next after) → Conducts code holds address session

/-- Sessions in which every dispatch does what the code has it do. -/
structure Carries (code : Semantics.Code) (holds : UInt64 → Session → Prop) : Prop where
  running : ∀ address session, holds address session → session.engine.isRunning = true
  conducts : ∀ address session, holds address session → Conducts code holds address session

/-- What comes of a dispatch where the guest machine is in a state. -/
inductive Dispatched (code : Semantics.Code) (holds : UInt64 → Session → Prop) (state : State) :
    Except Failure UInt64 × Session → Prop
  | nothing {session : Session} : code.program.at? state.address = none → code.host state.address = none →
      state.Alike (session.stateAt state.address) →
        Dispatched code holds state
          (.error (.error (.translate state.address (.decode state.address "no instruction scripted"))), session)
  | bounded {session : Session} : Dispatched code holds state (.error (.halt .outOfFuel), session)
  | faults {session : Session} {count : Nat} {last : State} : Steps code count state last → Faults code last →
      Dispatched code holds state (.error (.halt .overflow), session)
  | arrives {session : Session} {next : UInt64} {count : Nat} {last : State} : Steps code (count + 1) state last →
      last.Alike (session.stateAt next) → session.engine.isRunning = true → (next ≠ 0 → holds next session) →
        Dispatched code holds state (.ok next, session)

variable {code : Semantics.Code} {holds : UInt64 → Session → Prop} {session : Session} {address : UInt64}

/-- A dispatch takes the guest machine on. -/
theorem Carries.dispatch (carries : Carries code holds) (plain : code.Plain) (held : holds address session)
    (limit fuel : Nat) :
    Dispatched code holds (session.stateAt address) ((Session.dispatch (rivals limit) fuel address).run session) := by
  have running := carries.running address session held
  cases carries.conducts address session held with
  | nothing unscripted guest alike ran =>
    rw [ran]
    exact .nothing unscripted guest ⟨rfl, .refl _, alike⟩
  | @code found cache subroutine times alike faithful published ran onward =>
    let context : Context := { regs := session.cpu.regs, world := found.world }
    have start : (session.stateAt address).Alike (enterAt address context) := ⟨rfl, .refl _, alike⟩
    have advances := (faithful.invoke_advances plain fuel address subroutine published context).alike plain start
    have follows := Follows.after plain (.refl _) start
      (faithful.invoke_follows plain fuel address subroutine published context)
    have leads := onward limit fuel
    rw [ran] at leads ⊢
    change Dispatched code holds _
      (arrive address found subroutine.tier times session.cpu (invoke cache fuel subroutine context))
    cases came : invoke cache fuel subroutine context with
    | error halt =>
      rw [came] at follows
      cases follows with
      | bounded => exact .bounded
      | faults steps faults => exact .faults steps faults
    | ok arrival =>
      obtain ⟨next, left⟩ := arrival
      obtain ⟨count, last, steps, there⟩ := advances next left came
      have runs : left.world.running = true :=
        there.world.running.symm.trans ((steps.running plain).trans running)
      have arrived : last.Alike ⟨next, left.regs, left.world.note (.executed address next subroutine.tier)⟩ :=
        ⟨there.address, there.regs, there.world.trans (World.alike_note _ _)⟩
      refine .arrives steps arrived runs fun apart => leads next _ ?_ apart runs
      change arrive address found subroutine.tier times session.cpu (invoke cache fuel subroutine context) = _
      rw [came]
      rfl

/-- Where the machine comes to an end, a dispatch comes to a result. -/
theorem Carries.dispatch_settles (carries : Carries code holds) (plain : code.Plain) (held : holds address session)
    {count : Nat} (ends : EndsIn code count (session.stateAt address)) :
    ∃ least outcome, outcome.1 ≠ .error (.halt .outOfFuel) ∧ ∀ limit fuel, least ≤ fuel →
      (Session.dispatch (rivals limit) fuel address).run session = outcome := by
  cases carries.conducts address session held with
  | nothing unscripted guest alike ran => exact ⟨0, _, by simp, fun limit fuel _ => ran limit fuel⟩
  | @code found cache subroutine times alike faithful published ran _ =>
    let context : Context := { regs := session.cpu.regs, world := found.world }
    have start : (session.stateAt address).Alike (enterAt address context) := ⟨rfl, .refl _, alike⟩
    obtain ⟨left, _, ahead⟩ := ends.rest plain (.refl _) start
    obtain ⟨result, bounded, least, settled⟩ := faithful.invoke_settles plain published ahead
    refine ⟨least, arrive address found subroutine.tier times session.cpu result, ?_, ?_⟩
    · cases result with
      | error halt =>
        intro same
        cases same
        exact bounded rfl
      | ok arrival => simp [arrive]
    · intro limit fuel atLeast
      rw [ran, settled fuel atLeast]

/-- What an engine tells of a run of the guest machine that has come to an end. -/
inductive Tells (code : Semantics.Code) : Ending → Except Failure UInt64 × Session → Prop
  | halted {state : State} {session : Session} : state.Alike (session.stateAt 0) →
      Tells code (.halted state) (.ok 0, session)
  | nothing {state : State} {session : Session} : code.program.at? state.address = none →
      code.host state.address = none → state.Alike (session.stateAt state.address) →
        Tells code (.stuck state)
          (.error (.error (.translate state.address (.decode state.address "no instruction scripted"))), session)
  | overflow {state : State} {session : Session} : Faults code state →
      Tells code (.stuck state) (.error (.halt .overflow), session)

theorem Tells.alike (plain : code.Plain) {left right : State} {outcome : Except Failure UInt64 × Session}
    (tells : Tells code (.of left) outcome) (alike : left.Alike right) : Tells code (.of right) outcome := by
  by_cases zero : left.address = 0
  · rw [Ending.of_zero zero] at tells
    rw [Ending.of_zero (alike.address.symm.trans zero)]
    cases tells with
    | halted same => exact .halted (alike.symm.trans same)
  · rw [Ending.of_ne_zero zero] at tells
    rw [Ending.of_ne_zero fun same => zero (alike.address.trans same)]
    cases tells with
    | nothing unscripted guest same =>
      rw [alike.address] at unscripted guest same ⊢
      exact .nothing unscripted guest (alike.symm.trans same)
    | overflow faults => exact .overflow (faults.alike plain alike)

/-- What a loop comes to the machine comes to. -/
theorem Carries.loop_tells (carries : Carries code holds) (plain : code.Plain) (held : holds address session)
    (limit fuel : Nat) (apart : address ≠ 0)
    (bounded : ((loop (rivals limit) Engine.isRunning fuel address).run session).1 ≠ .error (.halt .outOfFuel)) :
    ∃ count last, Steps code count (session.stateAt address) last ∧ step? code last = none ∧
      Tells code (.of last) ((loop (rivals limit) Engine.isRunning fuel address).run session) := by
  induction fuel generalizing session address with
  | zero => exact absurd rfl bounded
  | succ fuel ih =>
    rw [loop_succ] at bounded ⊢
    have dispatched := carries.dispatch plain held limit fuel
    generalize (Session.dispatch (rivals limit) fuel address).run session = outcome at dispatched bounded ⊢
    cases dispatched with
    | nothing unscripted guest alike =>
      refine ⟨0, _, .refl _, step?_none unscripted guest, ?_⟩
      rw [Ending.of_ne_zero apart]
      exact .nothing unscripted guest alike
    | bounded => exact absurd rfl bounded
    | @faults after count last steps faults =>
      refine ⟨count, last, steps, faults.stops, ?_⟩
      have elsewhere : last.address ≠ 0 := by
        intro zero
        have scripted := faults.scripted
        rw [zero, plain.nothing.1] at scripted
        cases scripted
      rw [Ending.of_ne_zero elsewhere]
      exact .overflow faults
    | @arrives after next count last steps alike running onward =>
      dsimp only at bounded ⊢
      by_cases zero : next = 0
      · subst zero
        refine ⟨count + 1, last, steps, step?_zero plain alike.address, ?_⟩
        rw [if_pos (.inl rfl), Ending.of_zero alike.address]
        exact .halted alike
      · have goesOn : ¬ (next = 0 ∨ (!after.engine.isRunning) = true) := by
          simp [zero, running]
        rw [if_neg goesOn] at bounded ⊢
        obtain ⟨more, final, ahead, stops, tells⟩ := ih (onward zero) zero bounded
        obtain ⟨other, later, same⟩ := ahead.alike plain alike.symm
        exact ⟨count + 1 + more, other, steps.trans later, stops_alike plain same stops, tells.alike plain same⟩

/-- Where the machine comes to an end, a loop does. -/
theorem Carries.loop_ends (carries : Carries code holds) (plain : code.Plain) (held : holds address session)
    {count : Nat} (ends : EndsIn code count (session.stateAt address)) :
    ∃ least, ∀ limit fuel, least ≤ fuel →
      ((loop (rivals limit) Engine.isRunning fuel address).run session).1 ≠ .error (.halt .outOfFuel) := by
  induction count using Nat.strong_induction_on generalizing session address with
  | _ count ih =>
    obtain ⟨least, outcome, bounded, settled⟩ := carries.dispatch_settles plain held ends
    have dispatched := carries.dispatch plain held 0 least
    rw [settled 0 least le_rfl] at dispatched
    suffices behind : ∃ later, ∀ limit fuel, later ≤ fuel → ∀ after next, outcome = (.ok next, after) → next ≠ 0 →
        ((loop (rivals limit) Engine.isRunning fuel next).run after).1 ≠ .error (.halt .outOfFuel) by
      obtain ⟨later, behind⟩ := behind
      refine ⟨max least later + 1, fun limit fuel atLeast => ?_⟩
      obtain ⟨rest, rfl⟩ : ∃ rest, fuel = rest + 1 := ⟨fuel - 1, by omega⟩
      rw [loop_succ, settled limit rest (by omega)]
      obtain ⟨_ | next, after⟩ := outcome
      · exact bounded
      · dsimp only
        split
        · simp
        · next goesOn => exact behind limit rest (by omega) after next rfl fun zero => goesOn (.inl zero)
    cases dispatched with
    | @arrives after next taken last steps alike running onward =>
      by_cases zero : next = 0
      · refine ⟨0, fun limit fuel _ => ?_⟩
        rintro _ _ ⟨⟩ apart
        exact absurd zero apart
      · obtain ⟨left, split, ahead⟩ := ends.rest plain steps alike
        obtain ⟨later, behind⟩ := ih left (by omega) (onward zero) ahead
        refine ⟨later, fun limit fuel atLeast => ?_⟩
        rintro _ _ ⟨⟩ _
        exact behind limit fuel atLeast
    | _ =>
      refine ⟨0, fun limit fuel _ => ?_⟩
      rintro _ _ ⟨⟩

end Session

namespace Engine

/-- From an address on an engine comes to an end where the guest machine does, and to nothing else. -/
structure Refines (engine : Engine) (code : Semantics.Code) (cpu : Cpu) (address : UInt64) : Prop where
  ends : ∀ bound ending, Semantics.run code bound ⟨address, cpu.regs, engine.world⟩ = some ending →
    ∃ least, ∀ fuel, least ≤ fuel → Session.Tells code ending ((Session.execute fuel address).run ⟨engine, cpu⟩)
  tells : ∀ fuel, ((Session.execute fuel address).run ⟨engine, cpu⟩).1 ≠ .error (.halt .outOfFuel) →
    ∃ bound ending, Semantics.run code bound ⟨address, cpu.regs, engine.world⟩ = some ending ∧
      Session.Tells code ending ((Session.execute fuel address).run ⟨engine, cpu⟩)

/-- Where the machine hands control back the engine does. -/
theorem Refines.halts {engine : Engine} {code : Semantics.Code} {cpu : Cpu} {address : UInt64}
    (refines : engine.Refines code cpu address) {bound : Nat} {last : State}
    (halts : Semantics.run code bound ⟨address, cpu.regs, engine.world⟩ = some (.halted last)) :
    ∃ least, ∀ fuel, least ≤ fuel → ∃ session,
      (Session.execute fuel address).run ⟨engine, cpu⟩ = (.ok 0, session) ∧ last.Alike (session.stateAt 0) := by
  obtain ⟨least, tells⟩ := refines.ends bound _ halts
  refine ⟨least, fun fuel atLeast => ?_⟩
  have told := tells fuel atLeast
  generalize (Session.execute fuel address).run ⟨engine, cpu⟩ = outcome at told
  cases told with
  | @halted _ session alike => exact ⟨session, rfl, alike⟩

/-- An engine does so where every dispatch does what the code has it do. -/
theorem refines_of_carries {code : Semantics.Code} {holds : UInt64 → Session → Prop} {engine : Engine} {cpu : Cpu}
    {address : UInt64} (carries : Session.Carries code holds) (plain : code.Plain)
    (held : holds address ⟨engine, cpu⟩) (apart : address ≠ 0) : engine.Refines code cpu address := by
  refine ⟨?_, ?_⟩
  · intro bound ending ended
    obtain ⟨count, last, steps, stops, rfl⟩ := steps_of_run plain apart ended
    obtain ⟨least, bounded⟩ := carries.loop_ends plain held ⟨last, steps, stops⟩
    refine ⟨least, fun fuel atLeast => ?_⟩
    obtain ⟨_, other, stepsToo, stopsToo, tells⟩ :=
      carries.loop_tells plain held fuel fuel apart (bounded fuel fuel atLeast)
    rw [steps.unique stops stepsToo stopsToo]
    exact tells
  · intro fuel bounded
    obtain ⟨count, last, steps, stops, tells⟩ := carries.loop_tells plain held fuel fuel apart bounded
    obtain ⟨bound, ended⟩ := steps.run plain apart stops
    exact ⟨bound, .of last, ended, tells⟩

end Engine
end Dynarec
