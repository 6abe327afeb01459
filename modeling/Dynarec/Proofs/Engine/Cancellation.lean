import Dynarec.Calling.Samples
import Dynarec.Proofs.Engine.Atomicity
import Dynarec.Proofs.Engine.Deeds
import Dynarec.Proofs.Engine.Interruption

/-!
Cancellation loses nothing. A run whose flag is cleared in one of its dispatches ends behind that dispatch, with the
address that comes next; and a run from there on the resumed thread ends as the run does that is left alone, with the
same registers, memory, cache and counters.
-/
namespace Dynarec
open Effect Interpreter

namespace Session

variable {disturb : UInt64 → Engine → Engine} {fuel more : Nat} {address : UInt64} {session after : Session}
  {result : Except Failure UInt64}

/-- A larger bound changes nothing in a dispatch that did not come to its bound. -/
theorem dispatch_within (atLeast : fuel ≤ more) (ends : result ≠ .error (.halt .outOfFuel))
    (ran : (dispatch disturb fuel address).run session = (result, after)) :
    (dispatch disturb more address).run session = (result, after) := by
  obtain ⟨engine, cpu⟩ := session
  rw [run_dispatch] at ran ⊢
  generalize (Engine.notify address).run engine = heard at ran ⊢
  obtain ⟨_ | _, told⟩ := heard
  · exact ran
  dsimp only at ran ⊢
  generalize (Engine.resolve disturb cpu.mode address).run told = resolved at ran ⊢
  obtain ⟨_ | ⟨subroutine, times⟩, found⟩ := resolved
  · exact ran
  dsimp only at ran ⊢
  have within : found.machine.run more subroutine cpu.regs = found.machine.run fuel subroutine cpu.regs := by
    rw [Machine.run_eq, Machine.run_eq]
    refine congrArg _ (exec_within found.machine.cache atLeast _ _ fun bounded => ?_)
    rw [Machine.run_eq, invoke, bounded] at ran
    cases ran
    exact ends rfl
  rwa [within]

/-- A larger bound changes nothing in a run that did not come to its bound. -/
theorem loop_within {poll : Engine → Bool} (atLeast : fuel ≤ more) (ends : result ≠ .error (.halt .outOfFuel))
    (ran : (loop disturb poll fuel address).run session = (result, after)) :
    (loop disturb poll more address).run session = (result, after) := by
  induction fuel generalizing more address session with
  | zero =>
    cases ran
    exact absurd rfl ends
  | succ fuel ih =>
    obtain ⟨more, rfl⟩ : ∃ rest, more = rest + 1 := ⟨more - 1, by omega⟩
    rw [loop_succ] at ran ⊢
    cases dispatched : (dispatch disturb fuel address).run session with
    | mk outcome middle =>
      rw [dispatched] at ran
      have whole : outcome ≠ .error (.halt .outOfFuel) := by
        rintro rfl
        cases ran
        exact ends rfl
      rw [dispatch_within (by omega) whole dispatched]
      cases outcome with
      | error failure => exact ran
      | ok next =>
        dsimp only at ran ⊢
        split
        · next halts => rwa [if_pos halts] at ran
        · next goes =>
          rw [if_neg goes] at ran
          exact ih (by omega) ran

/-- A run in which the flag is cleared: at what moments of its dispatches, by their numbers. -/
def executeAmid : (Nat → Timing) → Nat → UInt64 → Run UInt64
  | _, 0, _ => throw (.halt .outOfFuel)
  | timings, fuel + 1, address => do
    let next ← dispatchAmid (timings 0) fuel address
    if next = 0 ∨ !(← get).engine.isRunning then return next
    else executeAmid (fun number => timings (number + 1)) fuel next

theorem executeAmid_succ (timings : Nat → Timing) (fuel : Nat) (address : UInt64) (session : Session) :
    (executeAmid timings (fuel + 1) address).run session =
      match (dispatchAmid (timings 0) fuel address).run session with
      | (.error failure, after) => (.error failure, after)
      | (.ok next, after) =>
        if next = 0 ∨ !after.engine.isRunning then (.ok next, after)
        else (executeAmid (fun number => timings (number + 1)) fuel next).run after := by
  rw [executeAmid, run_bind]
  rcases (dispatchAmid (timings 0) fuel address).run session with ⟨_ | next, after⟩
  · rfl
  · dsimp only
    rw [run_bind, run_get]
    dsimp only
    split <;> rfl

/-- A run that is left alone is an ordinary one. -/
theorem executeAmid_never {engine : Engine} (reached : engine.Reached) (limit fuel : Nat) (address : UInt64) (cpu : Cpu) :
    (executeAmid (fun _ => {}) fuel address).run ⟨engine, cpu⟩ =
      (loop (rivals limit) Engine.isRunning fuel address).run ⟨engine, cpu⟩ := by
  induction fuel generalizing engine address cpu with
  | zero => rfl
  | succ fuel ih =>
    rw [executeAmid_succ, loop_succ, dispatchAmid_never, ← dispatch_single reached.fit.alone limit]
    cases dispatched : (dispatch (rivals limit) fuel address).run ⟨engine, cpu⟩ with
    | mk outcome middle =>
      obtain ⟨after, left⟩ := middle
      cases outcome with
      | error failure => rfl
      | ok next =>
        dsimp only
        rw [ih (reached.happens (.dispatch dispatched))]

/-- A run whose flag is cleared in its first dispatch ends behind that. -/
theorem executeAmid_cut {engine : Engine} {cpu : Cpu} {next : UInt64}
    (heedless : engine.cache.Admitted Calling.HostFunction.Heedless)
    (completed : (dispatch (fun _ engine => engine) fuel address).run ⟨engine, cpu⟩ = (.ok next, after))
    (timings : Nat → Timing) (cuts : (timings 0).Cuts address ⟨engine, cpu⟩) :
    ∃ middle, (executeAmid timings (fuel + 1) address).run ⟨engine, cpu⟩ = (.ok next, middle) ∧
      middle.stop = after.stop ∧ middle.engine.isRunning = false := by
  obtain ⟨middle, interrupted, same, stops, _⟩ := dispatchAmid_completes heedless (timings 0) completed
  have halted : middle.engine.isRunning = false := by
    rw [← stops cuts]
    rfl
  refine ⟨middle, ?_, same, halted⟩
  rw [executeAmid_succ, interrupted]
  dsimp only
  rw [if_pos (.inr (by simp [halted]))]

end Session

namespace Engine

/-- A dispatch counts the run that it completes, and nothing when it fails. -/
theorem Fit.executions {engine after : Engine} (fit : engine.Fit) {limit fuel : Nat} {address : UInt64} {cpu left : Cpu}
    {result : Except Failure UInt64}
    (ran : (Session.dispatch (Session.rivals limit) fuel address).run ⟨engine, cpu⟩ = (result, ⟨after, left⟩)) :
    after.stats.executions = engine.stats.executions + result.toBool.toNat := by
  have fares := fit.fares limit fuel address cpu
  rw [ran] at fares
  generalize engine.deed address = deed at fares
  cases fares with
  | unheard heard => exact congrArg Stats.executions heard.stats
  | untranslated _ _ stats => exact congrArg Stats.executions stats
  | unrebuilt _ stats => exact (congrArg Stats.executions stats).trans rfl
  | @runs deed _ found _ _ stats _ _ _ _ executes =>
    have tallied : found.stats.executions = engine.stats.executions :=
      (congrArg Stats.executions stats).trans (deed.executions_tally engine.stats)
    obtain ⟨times, executed⟩ := executes
    split at executed
    · cases executed
      exact tallied
    · cases executed
      exact congrArg (· + 1) tallied

end Engine

namespace Session

variable {limit fuel count : Nat} {address : UInt64} {session final : Session} {result : Except Failure UInt64}

/-- The first dispatch of a run that completes one. -/
theorem loop_first (fit : session.engine.Fit)
    (ran : (loop (rivals limit) Engine.isRunning fuel address).run session = (result, final))
    (ends : result ≠ .error (.halt .outOfFuel))
    (completed : session.engine.stats.executions < final.engine.stats.executions) :
    ∃ rest next after, fuel = rest + 1 ∧ (dispatch (rivals limit) rest address).run session = (.ok next, after) ∧
      after.engine.stats.executions = session.engine.stats.executions + 1 ∧
      (if next = 0 ∨ !after.engine.isRunning then (.ok next, after)
        else (loop (rivals limit) Engine.isRunning rest next).run after) = (result, final) := by
  cases fuel with
  | zero =>
    cases ran
    exact absurd rfl ends
  | succ rest =>
    rw [loop_succ] at ran
    cases dispatched : (dispatch (rivals limit) rest address).run session with
    | mk outcome after =>
      rw [dispatched] at ran
      have counted := fit.executions dispatched
      cases outcome with
      | error failure =>
        cases ran
        exact absurd counted completed.ne'
      | ok next => exact ⟨rest, next, after, rfl, dispatched, counted, ran⟩

/-- A run that completes more dispatches than a number comes to the one of that number, and goes on from there to its
end. A run whose flag is cleared no earlier comes to it as well. -/
theorem Completes.reaches {first : Session} {start : UInt64} (completes : Completes limit first start session address)
    (reached : first.engine.Reached) (heedless : session.engine.cache.Admitted Calling.HostFunction.Heedless)
    (ran : (loop (rivals limit) Engine.isRunning fuel address).run session = (result, final))
    (ends : result ≠ .error (.halt .outOfFuel))
    (completed : session.engine.stats.executions + count < final.engine.stats.executions) :
    ∃ rest here before next after, rest < fuel ∧ Completes limit first start before here ∧
      before.engine.stats.executions = session.engine.stats.executions + count ∧
      before.engine.cache.Admitted Calling.HostFunction.Heedless ∧
      (dispatch (rivals limit) rest here).run before = (.ok next, after) ∧
      (if next = 0 ∨ !after.engine.isRunning then (.ok next, after)
        else (loop (rivals limit) Engine.isRunning rest next).run after) = (result, final) ∧
      ∀ timings : Nat → Timing, (∀ earlier < count, timings earlier = {}) →
        (executeAmid timings fuel address).run session =
          (executeAmid (fun number => timings (count + number)) (rest + 1) here).run before := by
  induction count generalizing fuel session address with
  | zero =>
    obtain ⟨rest, next, after, rfl, dispatched, _, goes⟩ :=
      loop_first (reached.completes completes).fit ran ends (by omega)
    refine ⟨rest, address, session, next, after, Nat.lt_succ_self rest, completes, rfl, heedless, dispatched, goes, ?_⟩
    intro timings _
    simp only [Nat.zero_add]
  | succ count ih =>
    obtain ⟨rest, next, after, rfl, dispatched, counted, goes⟩ :=
      loop_first (reached.completes completes).fit ran ends (by omega)
    split at goes
    · cases goes
      omega
    · next onward =>
      have single := (reached.completes completes).fit.alone
      obtain ⟨apart, running⟩ := not_or.mp onward
      obtain ⟨engine, cpu⟩ := session
      have alone := dispatched
      rw [dispatch_single single] at alone
      obtain ⟨_, _, _, _, heedlessToo⟩ := dispatchAmid_completes heedless {} alone
      obtain ⟨more, here, before, last, arrived, less, reaches, counts, admitted, arrives, ends, follows⟩ :=
        ih (completes.more dispatched apart (by simpa using running)) heedlessToo goes (by omega)
      refine ⟨more, here, before, last, arrived, by omega, reaches, by omega, admitted, arrives, ends, ?_⟩
      intro timings quiet
      rw [executeAmid_succ, quiet 0 (Nat.succ_pos count), dispatchAmid_never, alone]
      dsimp only
      rw [if_neg onward, follows _ fun earlier before => quiet (earlier + 1) (Nat.succ_lt_succ before)]
      simp only [Nat.add_right_comm count]

end Session

namespace Engine

/-- A run whose flag is cleared in a dispatch ends behind it, with the address that comes next, in the session in which
the run goes on there that is left alone. On the resumed thread a run from that address goes to the same end. -/
theorem Reached.resumes {engine : Engine} (reached : engine.Reached)
    (heedless : engine.cache.Admitted Calling.HostFunction.Heedless) {fuel : Nat} {address : UInt64} {cpu : Cpu}
    {result : Except Failure UInt64} {final : Session}
    (ran : (Session.execute fuel address).run ⟨engine, cpu⟩ = (result, final))
    (ends : result ≠ .error (.halt .outOfFuel)) (uncut : final.engine.isRunning = true) {count : Nat}
    (completed : engine.stats.executions + count < final.engine.stats.executions) :
    (Session.executeAmid (fun _ => {}) fuel address).run ⟨engine, cpu⟩ =
      (Session.execute fuel address).run ⟨engine, cpu⟩ ∧
    ∃ rest here before next after, Session.Completes fuel ⟨engine, cpu⟩ address before here ∧
      before.engine.stats.executions = engine.stats.executions + count ∧
      (Session.dispatch (fun _ engine => engine) rest here).run before = (.ok next, after) ∧
      (next ≠ 0 → Session.Completes fuel ⟨engine, cpu⟩ address after next) ∧
      ∀ timings : Nat → Session.Timing, (∀ earlier < count, timings earlier = {}) → (timings count).Cuts here before →
        ∃ middle, (Session.executeAmid timings fuel address).run ⟨engine, cpu⟩ = (.ok next, middle) ∧
          middle.engine.isRunning = false ∧ middle.resume = after ∧
          middle.engine.stats.executions = engine.stats.executions + (count + 1) ∧
          (next = 0 → (.ok 0, middle.resume) = (result, final)) ∧
          (next ≠ 0 → (Session.execute fuel next).run middle.resume = (result, final)) := by
  refine ⟨Session.executeAmid_never reached fuel fuel address cpu, ?_⟩
  obtain ⟨rest, here, before, next, after, less, reaches, counts, heedless, dispatched, goes, follows⟩ :=
    (Session.Completes.none : Session.Completes fuel ⟨engine, cpu⟩ address _ _).reaches reached heedless ran ends
      completed
  obtain ⟨between, cpuThen⟩ := before
  have fit := (reached.completes reaches).fit
  have counted := fit.executions dispatched
  have alone := dispatched
  rw [Session.dispatch_single fit.alone] at alone
  -- the run that is left alone polls a flag that is set
  have running : after.engine.isRunning = true := by
    split at goes
    · cases goes
      exact uncut
    · next onward => simpa using (not_or.mp onward).2
  refine ⟨rest, here, ⟨between, cpuThen⟩, next, after, reaches, counts, alone,
    fun apart => reaches.more dispatched apart running, ?_⟩
  intro timings quiet cuts
  obtain ⟨middle, interrupted, same, halted⟩ :=
    Session.executeAmid_cut heedless alone (fun number => timings (count + number)) cuts
  have resumed : middle.resume = after := by
    rw [← Session.resume_stop running, ← same]
    rfl
  refine ⟨middle, (follows timings quiet).trans interrupted, halted, resumed, ?_, fun zero => ?_, fun apart => ?_⟩
  · change middle.stop.engine.stats.executions = _
    rw [same]
    change after.engine.stats.executions = _
    rw [counted, counts]
    rfl
  · rw [if_pos (.inl zero), zero] at goes
    rw [resumed, goes]
  · rw [if_neg (not_or.mpr ⟨apart, by simp [running]⟩)] at goes
    rw [resumed]
    exact Session.loop_within less.le ends goes

/-- Goes on at the address of a host function. -/
def handing : Guest.Program := .ofList [⟨.b, 0x1000, [], some 0x2000, 4⟩]

theorem block_handing : handing.block 0x1000 = .ok ⟨0x1000, [⟨.b, 0x1000, [], some 0x2000, 4⟩]⟩ := by
  have at?_handing : ∀ address, handing.at? address =
      if 0x1000 = address then some ⟨.b, 0x1000, [], some 0x2000, 4⟩ else none := by
    simp [handing, Guest.Program.ofList, Guest.Program.at?, Std.TreeMap.getElem?_insert]
  have size : handing.size = 1 := by
    simp [handing, Guest.Program.ofList, Guest.Program.size, Std.TreeMap.size_insert]
  simp [Guest.Program.block, Guest.Program.run, size, at?_handing, Guest.Instruction.endsBlock, Guest.Form.flow,
    Guest.Flow.endsBlock]

/-- An engine for it, with a host function that counts its calls. -/
def counting : Engine :=
  ((Engine.start {} handing (fun _ => {}) {}).registerHost 0x2000 Calling.Samples.count).toOption.getD default

/-- It translates the block, which goes on at the host function, and this hands control back. -/
theorem runs_counting : ∃ after final, (Session.dispatch (fun _ engine => engine) 19 0x1000).run ⟨counting, {}⟩ =
      (.ok 0x2000, after) ∧ (Session.execute 20 0x1000).run ⟨counting, {}⟩ = (.ok 0, final) ∧
    final.engine.isRunning = true ∧ final.engine.stats.executions = 2 := by
  let tells (outcome : Except Failure UInt64 × Session) :=
    (outcome.1, outcome.2.engine.isRunning, outcome.2.engine.stats.executions)
  have decoded : (decodeBlock .aarch64 0x1000).run counting =
      (.ok ⟨0x1000, [⟨.b, 0x1000, [], some 0x2000, 4⟩]⟩, { counting with decodes := ⟨1, 0, [.aarch64]⟩ }) := by
    have scripted : counting.program.block 0x1000 = handing.block 0x1000 := rfl
    unfold decodeBlock
    rw [run_bind, run_modify]
    dsimp only
    rw [run_bind, run_get]
    dsimp only
    rw [scripted, block_handing]
    rfl
  have told : (match (Session.dispatch (fun _ engine => engine) 19 0x1000).run ⟨counting, {}⟩ with
      | (.ok next, after) => (next, after.engine.isRunning,
          tells ((Session.loop (Session.rivals 20) isRunning 19 next).run after))
      | (.error failure, after) => (0, false, tells (.error failure, after))) = (0x2000, true, .ok 0, true, 2) := by
    have heard : (notify 0x1000).run counting = (.ok (), counting) := rfl
    have missing : counting.cache.handle? 0x1000 = none := rfl
    rw [Session.run_dispatch, heard]
    unfold resolve locate compileTier0
    dsimp only
    rw [run_bind, run_bind, run_get]
    dsimp only
    rw [missing]
    dsimp only
    rw [run_bind, run_modify]
    dsimp only
    rw [run_bind, decoded]
    cbv
  cases dispatched : (Session.dispatch (fun _ engine => engine) 19 0x1000).run ⟨counting, {}⟩ with
  | mk outcome after =>
    rw [dispatched] at told
    cases outcome with
    | error failure => cases told
    | ok next =>
      obtain ⟨rfl, running, outcome⟩ : next = 0x2000 ∧ after.engine.isRunning = true ∧
          tells ((Session.loop (Session.rivals 20) isRunning 19 next).run after) = (.ok 0, true, 2) := by
        simpa using told
      cases ran : (Session.loop (Session.rivals 20) isRunning 19 0x2000).run after with
      | mk result final =>
        rw [ran] at outcome
        obtain ⟨rfl, runs, executions⟩ : result = .ok 0 ∧ final.engine.isRunning = true ∧
            final.engine.stats.executions = 2 := by simpa [tells] using outcome
        refine ⟨after, final, rfl, ?_, runs, executions⟩
        unfold Session.execute
        rw [Session.loop_succ, Session.dispatch_single rfl, dispatched]
        dsimp only
        rw [if_neg (by simp [running]), ran]

theorem resumes_counting :
    counting.Reached ∧ counting.cache.Admitted Calling.HostFunction.Heedless ∧
      ∃ final, (Session.execute 20 0x1000).run ⟨counting, {}⟩ = (.ok 0, final) ∧ final.engine.isRunning = true ∧
        counting.stats.executions + 0 < final.engine.stats.executions ∧
        ∃ middle, (Session.executeAmid (fun _ => { running := fun moment => moment = [0] }) 20 0x1000).run ⟨counting, {}⟩ =
            (.ok 0x2000, middle) ∧
          middle.engine.isRunning = false ∧ middle.engine.stats.executions = 1 ∧
          (Session.execute 20 0x2000).run middle.resume = (.ok 0, final) := by
  have registered : (Engine.start {} handing (fun _ => {}) {}).registerHost 0x2000 Calling.Samples.count = .ok counting := rfl
  have reached : counting.Reached := (Reached.start {} handing (fun _ => {}) {}).happens (.host registered)
  have heedless : counting.cache.Admitted Calling.HostFunction.Heedless :=
    heedless_registerHost Cache.admitted_empty (Calling.Samples.all_heedless _ (by simp [Calling.Samples.all])) registered
  have none : counting.stats.executions = 0 := rfl
  obtain ⟨after, final, dispatched, ran, running, executions⟩ := runs_counting
  have completed : counting.stats.executions + 0 < final.engine.stats.executions := by
    rw [none, executions]
    decide
  refine ⟨reached, heedless, final, ran, running, completed, ?_⟩
  obtain ⟨_, rest, here, ⟨engine, cpu⟩, next, left, _, _, alone, _, cut⟩ :=
    reached.resumes heedless ran (by simp) running completed
  let timing : Session.Timing := { running := fun moment => moment = [0] }
  have cuts {engine : Engine} {cpu : Cpu} {fuel : Nat} {address next : UInt64} {after : Session}
      (dispatched : (Session.dispatch (fun _ engine => engine) fuel address).run ⟨engine, cpu⟩ = (.ok next, after)) :
      timing.Cuts address ⟨engine, cpu⟩ := by
    obtain ⟨told, _, times, _, _, heard, resolved, _⟩ := Session.of_dispatch dispatched
    exact .running ⟨told, times, heard, resolved⟩ .now rfl
  obtain ⟨middle, interrupted, halted, _, counts, _, onward⟩ := cut (fun _ => timing) (by omega) (cuts alone)
  obtain ⟨_, goes, _⟩ := Session.executeAmid_cut heedless dispatched (fun _ => timing) (cuts dispatched)
  obtain rfl : next = 0x2000 := Except.ok.inj (congrArg Prod.fst (interrupted.symm.trans goes))
  exact ⟨middle, interrupted, halted, counts, onward (by decide)⟩

end Engine
end Dynarec
