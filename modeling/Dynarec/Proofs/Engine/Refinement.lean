import Dynarec.Calling.Samples
import Dynarec.Proofs.Engine.Conduct
import Dynarec.Proofs.Engine.Fidelity

/-!
Engines refine the guest machine. Whatever an engine has been given and has run before, a dispatch finds code that stands
for what is at its address; so a run comes to an end exactly where the machine does.
-/
namespace Dynarec
open Effect Semantics Interpreter

theorem Subscriber.tell_quiet (address : UInt64) (subscribers : List Subscriber)
    (quiet : ∀ subscriber ∈ subscribers, ∀ seen current, subscriber.react seen current = .proceed) :
    (tell address subscribers).1 = {} ∧
      ∀ subscriber ∈ (tell address subscribers).2, ∀ seen current, subscriber.react seen current = .proceed := by
  induction subscribers with
  | nil => exact ⟨rfl, quiet⟩
  | cons subscriber rest ih =>
    obtain ⟨first, others⟩ := List.forall_mem_cons.mp quiet
    obtain ⟨verdict, still⟩ := ih others
    rw [tell]
    dsimp only
    rw [first]
    exact ⟨verdict, List.forall_mem_cons.mpr ⟨first, still⟩⟩

namespace Engine

/-- No subscriber that is told of addresses fails or stops the thread. -/
def Quiet (engine : Engine) : Prop :=
  engine.config.trace = true →
    ∀ subscriber ∈ engine.subscribers, ∀ seen current, subscriber.react seen current = .proceed

variable {code : Semantics.Code} {engine : Engine}

theorem Quiet.of_setup {former : Engine} (same : engine.setup = former.setup) (untraced : former.config.trace = false) :
    engine.Quiet := by
  intro traced
  have config : engine.config = former.config := congrArg (·.1) same
  rw [config, untraced] at traced
  cases traced

theorem Quiet.keeps (quiet : engine.Quiet) {after : Engine} (keeps : engine.Keeps after) : after.Quiet := by
  have config : after.config = engine.config := congrArg (·.1) keeps.setup
  unfold Quiet
  rw [config, keeps.subscribers]
  exact quiet

theorem Quiet.hears (quiet : engine.Quiet) (address : UInt64) :
    ∃ subscribers, (Engine.notify address).run engine = (.ok (), { engine with subscribers }) ∧
      ({ engine with subscribers } : Engine).Quiet := by
  unfold Engine.notify
  rw [run_bind, run_get]
  dsimp only
  split
  · next traced =>
    obtain ⟨verdict, still⟩ := Subscriber.tell_quiet address engine.subscribers (quiet traced)
    generalize Subscriber.tell address engine.subscribers = told at verdict still
    obtain ⟨_, subscribers⟩ := told
    obtain rfl : _ = ({} : Subscriber.Verdict) := verdict
    exact ⟨subscribers, rfl, fun _ => still⟩
  · exact ⟨engine.subscribers, rfl, quiet⟩

theorem Quiet.notify (quiet : engine.Quiet) (address : UInt64) :
    ∃ told, (Engine.notify address).run engine = (.ok (), told) ∧ told.Quiet ∧ told.world = engine.world := by
  obtain ⟨_, heard, still⟩ := quiet.hears address
  exact ⟨_, heard, still, rfl⟩

/-- An engine that stands for the code and can build it, whose thread runs and is not stopped. -/
structure Ready (code : Semantics.Code) (engine : Engine) : Prop extends Stands code engine where
  liveIn : ∀ graph, (engine.liveIn graph).vector.toNat < 2 ^ 32
  quiet : engine.Quiet
  running : engine.isRunning = true

/-- It stays so where running code only changes the memory, and what is counted. -/
theorem Ready.arrive (ready : Ready code engine) {address next : UInt64} {tier : Tier}
    {times : Profile.SubroutineTimes} {cpu : Cpu} {result : Outcome (UInt64 × Context)} {after : Session}
    (arrived : Session.arrive address engine tier times cpu result = (.ok next, after))
    (running : after.engine.isRunning = true) : Ready code after.engine := by
  obtain ⟨⟨program, single, cache⟩, liveIn, quiet, _⟩ := ready
  cases result with
  | error halt => cases arrived
  | ok arrival =>
    cases arrived
    exact ⟨⟨program, single, cache⟩, liveIn, quiet, running⟩

end Engine

namespace Session

variable {code : Semantics.Code} {engine : Engine}

/-- What a dispatch finds at an address: nothing, or code that stands for what is there. -/
inductive Serves (code : Semantics.Code) (engine : Engine) (cpu : Cpu) (address : UInt64) : Prop
  | nothing {found : Engine} : code.program.at? address = none → code.host address = none →
      engine.world.Alike found.world →
        (∀ limit fuel, (dispatch (rivals limit) fuel address).run ⟨engine, cpu⟩ =
          (.error (.error (.translate address (.decode address "no instruction scripted"))), ⟨found, cpu⟩)) →
            Serves code engine cpu address
  | code {found : Engine} {subroutine : Subroutine} {times : Profile.SubroutineTimes} : Engine.Ready code found →
      engine.world.Alike found.world → found.cache.Faithful code → found.cache.get? address = some subroutine →
        (∀ limit fuel, (dispatch (rivals limit) fuel address).run ⟨engine, cpu⟩ =
          arrive address found subroutine.tier times cpu
            (invoke found.cache fuel subroutine { regs := cpu.regs, world := found.world })) →
          Serves code engine cpu address

theorem serves (named : ∀ address instruction, code.program.at? address = some instruction → instruction.Named)
    (ready : Engine.Ready code engine) (cpu : Cpu) (address : UInt64) : Serves code engine cpu address := by
  obtain ⟨entries, shown, faithful⟩ := ready.cache
  obtain ⟨told, heard, quiet, sameWorld⟩ := ready.quiet.notify address
  obtain ⟨result, next, builds, found, resolved, leads, ran⟩ := dispatch_resolves shown ready.single heard 0 cpu
  rw [ready.program] at resolved
  have alike : engine.world.Alike found.world := by
    rw [← sameWorld]
    exact leads.keeps.world
  cases result with
  | error cause =>
    obtain ⟨unscripted, guest, rfl⟩ := faithful.resolve_error named ready.liveIn resolved
    refine .nothing unscripted guest alike fun limit fuel => ?_
    rw [dispatch_alone ready.single limit 0]
    exact ran fuel
  | ok subroutine =>
    have setup := (engine.run_notify address).1
    rw [heard] at setup
    have same : found.setup = engine.setup := leads.keeps.setup.trans setup
    have moves : Entries.Moves code.program engine.builder address entries builds next :=
      Entries.moves_resolve (by rw [resolved])
    have faithfulNow := faithful.moves named moves
    have sameLiveIn : found.liveIn = engine.liveIn := congrArg (·.2.2.1) same
    have published : found.cache.get? address = some subroutine := by
      rw [leads.shown.entries]
      exact Entries.resolve_published resolved
    obtain ⟨times, runs⟩ := ran.runs
    have readyNow : Engine.Ready code found :=
      ⟨ready.setup leads.shown faithfulNow same, by rw [sameLiveIn]; exact ready.liveIn, quiet.keeps leads.keeps,
        alike.running.symm.trans ready.running⟩
    refine @Serves.code _ _ _ _ _ _ times readyNow alike (faithfulNow.cache leads.shown) published fun limit fuel => ?_
    rw [dispatch_alone ready.single limit 0, runs fuel]
    exact arrive_run address found cpu fuel subroutine times

/-- Engines that stand for plain code do what it has them do. -/
theorem carries_ready (named : ∀ address instruction, code.program.at? address = some instruction → instruction.Named) :
    Carries code fun _ session => Engine.Ready code session.engine := by
  refine ⟨fun _ _ ready => ready.running, ?_⟩
  rintro address ⟨engine, cpu⟩ ready
  cases serves named ready cpu address with
  | nothing unscripted guest alike ran => exact .nothing unscripted guest alike ran
  | code readyNow alike faithful published ran =>
    refine .code alike faithful published ran fun limit fuel next after arrived _ running => ?_
    rw [ran] at arrived
    exact readyNow.arrive arrived running

end Session

namespace Engine

/-- Whatever an engine has been given and has run before, it runs as the guest machine does. -/
theorem Furnished.refines {program : Guest.Program}
    {hosts : UInt64 → Option (Calling.Layout × Calling.HostFunction)} {engine : Engine}
    (furnished : Furnished program hosts engine) (plain : Code.Plain ⟨program, hosts⟩)
    (liveIn : ∀ graph, (engine.liveIn graph).vector.toNat < 2 ^ 32) (quiet : engine.Quiet) (running : engine.isRunning = true)
    {address : UInt64} (apart : address ≠ 0) (cpu : Cpu) : engine.Refines ⟨program, hosts⟩ cpu address := by
  have ready : Ready ⟨program, hosts⟩ engine := ⟨furnished.stands plain.named, liveIn, quiet, running⟩
  exact refines_of_carries (Session.carries_ready plain.named) plain ready apart

/-- Has a host function add two numbers, and hands control back. -/
def summing : Semantics.Code where
  program := .ofList
    [⟨.bl, 0x1000, [], some 0x2000, 4⟩, ⟨.movz, 0x1004, [30, 0], none, 4⟩, ⟨.ret, 0x1008, [], none, 4⟩]
  host := Function.update (fun _ => none) 0x2000 (some (⟨[.int 0, .int 1]⟩, Calling.Samples.sum))

theorem at?_summing (address : UInt64) : summing.program.at? address =
    if 0x1008 = address then some ⟨.ret, 0x1008, [], none, 4⟩
    else if 0x1004 = address then some ⟨.movz, 0x1004, [30, 0], none, 4⟩
    else if 0x1000 = address then some ⟨.bl, 0x1000, [], some 0x2000, 4⟩ else none := by
  simp [summing, Guest.Program.ofList, Guest.Program.at?, Std.TreeMap.getElem?_insert]

theorem host_summing (address : UInt64) : summing.host address =
    if address = 0x2000 then some (⟨[.int 0, .int 1]⟩, Calling.Samples.sum) else none := by
  simp [summing, Function.update_apply]

theorem plain_summing : summing.Plain := by
  refine ⟨?_, ?_, ?_, ?_⟩
  · intro address instruction scripted
    rw [at?_summing] at scripted
    repeat' split at scripted
    all_goals
      cases scripted
    all_goals decide
  · intro address found host
    rw [host_summing] at host
    split at host
    · next here =>
      rw [here, at?_summing]
      rfl
    · cases host
  · intro address layout function host
    rw [host_summing] at host
    split at host
    · cases host
      exact .plain rfl
    · cases host
  · exact ⟨by rw [at?_summing]; rfl, by rw [host_summing]; rfl⟩

theorem steps_summing (world : World) :
    ∃ last, Steps summing 4 ⟨0x1000, (({} : RegisterFile).write (.int 0) 2).write (.int 1) 3, world⟩ last ∧
      last.address = 0 ∧ last.regs.read (.int 0) = 5 := by
  have moves : ∀ {state next : State} {instruction : Guest.Instruction},
      summing.program.at? state.address = some instruction → execute? instruction state = some next →
        step? summing state = some next := fun scripted ran => (step?_scripted plain_summing scripted).trans ran
  refine ⟨_, .step (moves (by rw [at?_summing]; rfl) rfl) (.step rfl (.step (moves (by rw [at?_summing]; rfl) rfl)
    (.step (moves (by rw [at?_summing]; rfl) rfl) (.refl _)))), rfl, rfl⟩

/-- An engine that has run before, on a thread of its own, runs to the sum. -/
theorem refines_summing : ∃ engine, Furnished summing.program summing.host engine ∧ ∃ least, ∀ fuel, least ≤ fuel →
    ∃ session, (Session.execute fuel 0x1000).run
      ⟨engine, { regs := (({} : RegisterFile).write (.int 0) 2).write (.int 1) 3 }⟩ = (.ok 0, session) ∧
        session.cpu.regs.read (.int 0) = 5 := by
  have placed : Calling.Layout.ofClasses Calling.Samples.sum.signature.classes = .ok ⟨[.int 0, .int 1]⟩ := rfl
  obtain ⟨registered, made⟩ : ∃ registered,
      (Engine.start {} summing.program (fun _ => {}) {}).registerHost 0x2000 Calling.Samples.sum = .ok registered := ⟨_, rfl⟩
  have before : Furnished summing.program summing.host registered := (Furnished.start {} (fun _ => {}) {}).host placed made
  let executed := ((Session.execute 100 0x1000).run ⟨registered, {}⟩).2.engine
  have setup : executed.setup = registered.setup :=
    ((before.stands plain_summing.named).execute plain_summing.named 100 0x1000 {}).2
  have empty : (Engine.start {} summing.program (fun _ => {}) {}).cache.Shows fun _ => none := Cache.shows_empty
  obtain ⟨_, _, _, setupBefore, _⟩ := registerHost_entries empty made
  have config : executed.config = ({} : Config).normalized := congrArg (·.1) (setup.trans setupBefore)
  have liveIn : executed.liveIn = fun _ => {} := congrArg (·.2.2.1) (setup.trans setupBefore)
  have furnished : Furnished summing.program summing.host executed.renewThread :=
    (before.execute 100 0x1000 {}).outside rfl rfl rfl
  have quiet : executed.renewThread.Quiet := by
    intro traced
    have traces : executed.config.trace = true := traced
    rw [config] at traces
    cases traces
  let cpu : Cpu := { regs := (({} : RegisterFile).write (.int 0) 2).write (.int 1) 3 }
  have apart : (0x1000 : UInt64) ≠ 0 := by decide
  have valid : ∀ graph, (executed.renewThread.liveIn graph).vector.toNat < 2 ^ 32 := by
    have same : executed.renewThread.liveIn = executed.liveIn := rfl
    intro graph
    rw [same, liveIn]
    exact (by decide : ({} : LiveIn).vector.toNat < 2 ^ 32)
  have refines := Furnished.refines furnished plain_summing valid quiet rfl apart cpu
  obtain ⟨last, steps, halts, sum⟩ := steps_summing executed.renewThread.world
  obtain ⟨bound, ended⟩ := steps.run plain_summing apart (step?_zero plain_summing halts)
  obtain ⟨least, tells⟩ := refines.ends bound _ ended
  refine ⟨executed.renewThread, furnished, least, fun fuel atLeast => ?_⟩
  have told := tells fuel atLeast
  rw [Ending.of_zero halts] at told
  generalize (Session.execute fuel 0x1000).run ⟨executed.renewThread, cpu⟩ = outcome at told
  cases told with
  | @halted _ session alike => exact ⟨session, rfl, (alike.regs (.int 0)).symm.trans sum⟩

end Engine
end Dynarec
