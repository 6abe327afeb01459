import Dynarec.Proofs.Engine.Alike
import Dynarec.Proofs.Guest.Exploration

/-!
Instrumentation is a side channel. Whatever a host asks of an engine it is answered, and finds in the cache and in the
counters, the same whether or not profiles are kept, large instructions are reported and subscribers are told.
-/
namespace Dynarec
open Effect

namespace Session

/-- The same thread on engines that differ in what they tell of themselves alone. -/
structure Alike (left right : Session) : Prop where
  engine : left.engine.Alike right.engine
  cpu : left.cpu = right.cpu

variable {left right : Session} {disturb : UInt64 → Engine → Engine}

theorem ofWork_alike {α : Type} (alike : left.Alike right) {work workToo : Work α} {kind : α → Prop}
    (twins : Twins Engine.Alike kind (work.run left.engine) (workToo.run right.engine)) :
    Twins Alike kind ((Run.ofWork work).run left) ((Run.ofWork workToo).run right) := by
  obtain ⟨engine, cpu⟩ := left
  obtain ⟨engineToo, _⟩ := right
  obtain ⟨_, rfl⟩ := alike
  rw [Run.run_ofWork, Run.run_ofWork]
  generalize work.run engine = here at twins
  generalize workToo.run engineToo = there at twins
  cases twins with
  | ok kind engines => exact .ok kind ⟨engines, rfl⟩
  | error error engines => exact .error error ⟨engines, rfl⟩

theorem run_alike (alike : left.Alike right) {subroutine : Subroutine}
    (admitted : subroutine.Admitted Calling.HostFunction.Discreet) (fuel : Nat) :
    Twins Alike (fun _ => True) ((run fuel subroutine).run left) ((run fuel subroutine).run right) := by
  obtain ⟨engine, cpu⟩ := left
  obtain ⟨engineToo, _⟩ := right
  obtain ⟨engines, rfl⟩ := alike
  have runs := engines.machine.run admitted fuel cpu.regs
  rw [run_run, run_run]
  generalize engine.machine.run fuel subroutine cpu.regs = here at runs
  generalize engineToo.machine.run fuel subroutine cpu.regs = there at runs
  cases runs with
  | error halt => exact .error _ ⟨engines, rfl⟩
  | @ok first second same =>
    obtain ⟨next, regs, machine⟩ := first
    obtain ⟨_, _, machineToo⟩ := second
    obtain ⟨rfl, rfl, machines⟩ := same
    exact .ok trivial ⟨{ engines with machine := machines }, rfl⟩

variable (disturbs : ∀ {left right : Engine} {address : UInt64}, left.Alike right →
  (disturb address left).Alike (disturb address right))

include disturbs in
theorem dispatch_alike (alike : left.Alike right) (fuel : Nat) (address : UInt64) :
    Twins Alike (fun _ => True) ((dispatch disturb fuel address).run left) ((dispatch disturb fuel address).run right) := by
  unfold dispatch
  refine (ofWork_alike alike (Engine.notify_alike alike.engine address)).bind fun _ left right _ alike => ?_
  rw [run_bind, run_bind, run_get, run_get]
  dsimp only
  rw [← alike.cpu]
  refine (ofWork_alike alike (Engine.resolve_alike disturbs alike.engine left.cpu.mode)).bind
    fun found left right admitted alike => ?_
  obtain ⟨subroutine, times⟩ := found
  refine (run_alike alike admitted fuel).bind fun next left right _ alike => ?_
  rw [run_bind, run_bind, run_modify, run_modify]
  obtain ⟨engine, cpu⟩ := left
  obtain ⟨engineToo, _⟩ := right
  obtain ⟨engines, rfl⟩ := alike
  exact .ok trivial ⟨{ engines with
    machine := engines.machine.note (.executed address next subroutine.tier) (.executed address next subroutine.tier)
    stats := congrArg (fun stats => { stats with executions := stats.executions + 1 }) engines.stats }, rfl⟩

include disturbs in
theorem loop_alike {poll : Engine → Bool} (polls : ∀ {left right : Engine}, left.Alike right → poll left = poll right)
    (alike : left.Alike right) (fuel : Nat) (address : UInt64) :
    Twins Alike (fun _ => True) ((loop disturb poll fuel address).run left) ((loop disturb poll fuel address).run right) := by
  induction fuel generalizing address left right with
  | zero => exact .error _ alike
  | succ fuel ih =>
    unfold loop
    refine (dispatch_alike disturbs alike fuel address).bind fun next left right _ alike => ?_
    rw [run_bind, run_bind, run_get, run_get]
    dsimp only
    rw [polls alike.engine]
    split
    · exact .ok trivial alike
    · exact ih alike next

theorem rivals_alike {left right : Engine} (alike : left.Alike right) (fuel : Nat) (address : UInt64) :
    (rivals fuel address left).Alike (rivals fuel address right) := by
  unfold rivals
  rw [← alike.rivals]
  cases left.rivals with
  | none => exact alike
  | some plan =>
    dsimp only
    split
    -- each run of another thread is a dispatch loop of its own that nothing disturbs
    · generalize plan.runs = runs
      induction runs with
      | zero => exact { alike with rivals := rfl }
      | succ runs ih =>
        refine (loop_alike ?_ ?_ ?_ fuel address).same.2.engine
        · exact fun alike => alike
        · exact fun _ => rfl
        · exact ⟨ih, rfl⟩
    · exact alike

theorem execute_alike (alike : left.Alike right) (fuel : Nat) (address : UInt64) :
    Twins Alike (fun _ => True) ((execute fuel address).run left) ((execute fuel address).run right) := by
  refine loop_alike ?_ ?_ alike fuel address
  · exact fun alike => rivals_alike alike fuel _
  · exact fun alike => alike.machine.world.running

end Session

namespace Engine

/-- What a host asks of an engine. -/
inductive Request
  | execute (fuel : Nat) (address : UInt64) (thread : Thread)
  | register (address : UInt64) (function : Calling.HostFunction)

/-- What it is answered, with the thread as the engine leaves it. -/
inductive Answer
  | executed (result : Except Failure UInt64) (thread : Thread)
  | registered (result : Except ExecError Unit)

def answer (engine : Engine) : Request → Answer × Engine
  | .execute fuel address thread =>
    match (Session.execute fuel address).run ⟨engine.setRunning thread.running, thread.toCpu⟩ with
    | (result, ⟨after, cpu⟩) => (.executed result { cpu with running := after.isRunning }, after)
  | .register address function =>
    match engine.registerHost address function with
    | .error error => (.registered (.error error), engine)
    | .ok after => (.registered (.ok ()), after)

def answerAll (engine : Engine) : List Request → List Answer × Engine
  | [] => ([], engine)
  | request :: rest =>
    let (first, engine) := engine.answer request
    let (answers, engine) := engine.answerAll rest
    (first :: answers, engine)

def Request.Discreet : Request → Prop
  | .execute .. => True
  | .register _ function => function.Discreet

variable {left right : Engine}

theorem Alike.setRunning (alike : left.Alike right) (running : Bool) :
    (left.setRunning running).Alike (right.setRunning running) :=
  have ⟨cache, world, discreet⟩ := alike.machine
  { alike with machine := ⟨cache, ⟨world.memory, rfl, world.count⟩, discreet⟩ }

theorem answer_alike (alike : left.Alike right) {request : Request} (discreet : request.Discreet) :
    (left.answer request).1 = (right.answer request).1 ∧ (left.answer request).2.Alike (right.answer request).2 := by
  cases request with
  | execute fuel address thread =>
    have start : Session.Alike ⟨left.setRunning thread.running, thread.toCpu⟩
        ⟨right.setRunning thread.running, thread.toCpu⟩ := ⟨alike.setRunning thread.running, rfl⟩
    have ran := Session.execute_alike start fuel address
    unfold answer
    dsimp only
    generalize (Session.execute fuel address).run ⟨left.setRunning thread.running, thread.toCpu⟩ = here at ran ⊢
    generalize (Session.execute fuel address).run ⟨right.setRunning thread.running, thread.toCpu⟩ = there at ran ⊢
    obtain ⟨result, after, cpu⟩ := here
    obtain ⟨_, afterToo, _⟩ := there
    obtain ⟨rfl, engines, rfl⟩ := ran.same
    have running : after.isRunning = afterToo.isRunning := engines.machine.world.running
    dsimp only
    rw [running]
    exact ⟨rfl, engines⟩
  | register address function =>
    unfold answer registerHost
    dsimp only
    cases made : Subroutine.thunk address function with
    | error cause => exact ⟨rfl, alike⟩
    | ok thunk =>
      have machines := (alike.machine.note (.marshalled address function.name function.signature.params.length)
        (.marshalled address function.name function.signature.params.length)).addAt address
          (Subroutine.admitted_thunk made discreet) 0
      exact ⟨rfl, { alike with machine := machines }⟩

theorem answerAll_alike (alike : left.Alike right) {requests : List Request}
    (discreet : ∀ request ∈ requests, request.Discreet) :
    (left.answerAll requests).1 = (right.answerAll requests).1 ∧
      (left.answerAll requests).2.Alike (right.answerAll requests).2 := by
  induction requests generalizing left right with
  | nil => exact ⟨rfl, alike⟩
  | cons request rest ih =>
    obtain ⟨first, others⟩ := List.forall_mem_cons.mp discreet
    obtain ⟨answers, after⟩ := answer_alike alike first
    obtain ⟨answersToo, last⟩ := ih after others
    unfold answerAll
    dsimp only
    rw [answers, answersToo]
    exact ⟨rfl, last⟩

theorem start_alike {config other : Config} (threshold : config.threshold = other.threshold) (program : Guest.Program)
    (liveIn : Guest.Graph → LiveIn) (world : World) {subscribers subscribersToo : List Subscriber}
    (proceeds : ∀ subscriber ∈ subscribers ++ subscribersToo, ∀ seen current,
      subscriber.react seen current = .proceed) :
    ({ Engine.start config program liveIn world with subscribers } : Engine).Alike
      { Engine.start other program liveIn world with subscribers := subscribersToo } where
  program := rfl
  liveIn := rfl
  threshold := by
    change (if config.threshold = 0 then _ else config.threshold) = if other.threshold = 0 then _ else other.threshold
    rw [threshold]
  rivals := rfl
  machine := ⟨rfl, (World.Alike.refl world).note _ _, Cache.admitted_empty⟩
  stats := rfl
  decodes := rfl
  handed := rfl
  quiet := ⟨fun _ _ member => proceeds _ (List.mem_append_left _ member),
    fun _ _ member => proceeds _ (List.mem_append_right _ member)⟩

/-- Engines whose promotion thresholds are the same answer alike, and are left with the same memory, cache and counters,
however they are instrumented. -/
theorem answerAll_instrumented (config other : Config) (threshold : config.threshold = other.threshold)
    (program : Guest.Program) (liveIn : Guest.Graph → LiveIn) (world : World) {subscribers subscribersToo : List Subscriber}
    (proceeds : ∀ subscriber ∈ subscribers ++ subscribersToo, ∀ seen current,
      subscriber.react seen current = .proceed)
    {requests : List Request} (discreet : ∀ request ∈ requests, request.Discreet) :
    let left := ({ Engine.start config program liveIn world with subscribers } : Engine).answerAll requests
    let right := ({ Engine.start other program liveIn world with subscribers := subscribersToo } : Engine).answerAll requests
    left.1 = right.1 ∧ left.2.world.Alike right.2.world ∧ left.2.cache = right.2.cache ∧ left.2.stats = right.2.stats := by
  obtain ⟨answers, alike⟩ := answerAll_alike (start_alike threshold program liveIn world proceeds) discreet
  exact ⟨answers, alike.machine.world, alike.machine.cache, alike.stats⟩

/-- Two runs of guest code, and one of a host function. -/
def errands : List Request :=
  [.execute 50 0x1000 {}, .execute 50 0x1000 {}, .register 0x5000 Calling.Samples.count, .execute 50 0x5000 {}]

/-- Code is built at both tiers, a rebuild fails, and a host function counts. One engine keeps profiles, the other reports
what is large and tells a subscriber. -/
theorem answerAll_instrumented_roaming :
    let left := ({ Engine.start { threshold := 1 } .roaming Builder.narrow {} with
      subscribers := [] } : Engine).answerAll errands
    let right := ({ Engine.start { threshold := 1, introspection := false, bulk := 1, trace := true } .roaming
      Builder.narrow {} with subscribers := [.recorder] } : Engine).answerAll errands
    (left.1 = right.1 ∧ left.2.world.Alike right.2.world ∧ left.2.cache = right.2.cache ∧ left.2.stats = right.2.stats) ∧
      right.2.stats = { tier0Compiles := 5, tier1Compiles := 3, cacheHits := 5, executions := 9, notifications := 1 } ∧
      (left.2.tables.isSome ∧ right.2.tables.isNone) ∧
      ¬left.2.world.log.any (·.level = .warn) ∧ right.2.world.log.any (·.level = .warn) := by
  have proceeds : ∀ subscriber ∈ [] ++ [Subscriber.recorder], ∀ seen current,
      subscriber.react seen current = .proceed := by
    intro subscriber member seen current
    cases List.mem_singleton.mp member
    rfl
  have discreet : ∀ request ∈ errands, request.Discreet := by
    simp only [errands, List.forall_mem_cons, List.not_mem_nil, false_implies, implies_true, and_true]
    exact ⟨trivial, trivial, Calling.Samples.all_discreet _ (by simp [Calling.Samples.all]), trivial⟩
  have alike := answerAll_instrumented { threshold := 1 }
    { threshold := 1, introspection := false, bulk := 1, trace := true } rfl .roaming Builder.narrow {} proceeds discreet
  dsimp only at alike ⊢
  refine ⟨alike, ?_, ⟨?_, ?_⟩, ?_, ?_⟩ <;> decide +kernel

end Engine
end Dynarec
