import Dynarec.Proofs.Compilation.Builder
import Dynarec.Proofs.Emission.Onward
import Dynarec.Proofs.Engine.Dispatch
import Dynarec.Proofs.Interpreter.Advance
import Dynarec.Proofs.Interpreter.Bound

/-!
Tier-0 code gives control back. It comes to its end within as many steps as it has operations, whatever its graph, its
arguments, the registers and the memory, so that the dispatch loop gets to look at the run flag behind each of its
dispatches. What keeps it from a return is a read that passes the top of memory and nothing else.
-/
namespace Dynarec
namespace Emission
open Ir

variable {emission : Emission} {graph : Guest.Graph} {added : List Op} {dst : Local} {slot : Nat}

theorem Takes.lt {word : Nat} {registers : List Register} (takes : emission.Takes word registers added) {dst : Local}
    {slot : Nat} (member : .loadArg dst slot ∈ added) : slot < word + (registers.map Register.words).sum := by
  induction registers generalizing word added with
  | nil =>
    obtain rfl : added = [] := takes
    cases member
  | cons register rest ih =>
    obtain ⟨own, later, _, rfl, others⟩ := takes
    have positive := register.words_pos
    rw [List.map_cons, List.sum_cons]
    rcases List.mem_cons.mp member with same | inside
    · obtain ⟨_, rfl⟩ : dst = own ∧ slot = word := by simpa using same
      omega
    · have bound := ih others inside
      omega

/-- Arguments are few enough for their words to be numbered. -/
theorem Laid.slotsFit (laid : emission.Laid graph) (few : emission.params.length ≤ 128) :
    emission.finish.function.SlotsFit := by
  have words : (emission.params.map Register.words).sum ≤ 2 * emission.params.length := by
    have total := ({} : RegisterFile).length_words_le emission.params
    rwa [List.length_flatMap, List.map_congr_left fun register _ => ({} : RegisterFile).length_words register] at total
  have emitted : ∀ op ∈ emission.ops.toList, ∀ dst slot, op = .loadArg dst slot → slot < 0xffffffff := by
    refine laid.forall_ops (fun added takes op member dst slot same => ?_) (by simp) (by simp) ?_ ?_
    · subst same
      have bound := takes.lt member
      omega
    · rintro _ _ added code _ member dst slot rfl
      exact absurd trivial (code.inner _ member)
    · rintro target added goes _ member dst slot rfl
      exact absurd trivial (goes.inner _ member)
  intro dst slot member
  rcases Expansion.mem_expand member with ⟨origin, _⟩ | ⟨binding, _, same | same⟩
  · exact emitted _ origin dst slot rfl
  · simp [Expansion.load] at same
  · simp [Expansion.store] at same

end Emission

namespace Session
open Effect Interpreter

/-- A dispatch of code that ends comes back to the loop, which looks whether to go on, unless a read passed the top of
memory. -/
theorem loop_regains {disturb : UInt64 → Engine → Engine} {address : UInt64} {engine found : Engine} {cpu : Cpu}
    {subroutine : Subroutine} (finds : Finds disturb cpu.mode address engine subroutine found) {fuel : Nat}
    (ended : found.machine.run fuel subroutine cpu.regs = .error .overflow ∨
      ∃ arrival, found.machine.run fuel subroutine cpu.regs = .ok arrival) (poll : Engine → Bool) :
    (∃ next after, (dispatch disturb fuel address).run ⟨engine, cpu⟩ = (.ok next, after) ∧
      (loop disturb poll (fuel + 1) address).run ⟨engine, cpu⟩ =
        if next = 0 ∨ !poll after.engine then (.ok next, after) else (loop disturb poll fuel next).run after) ∨
    (dispatch disturb fuel address).run ⟨engine, cpu⟩ = (.error (.halt .overflow), ⟨found, cpu⟩) := by
  obtain ⟨times, runs⟩ := finds.runs
  rcases ended with stopped | ⟨⟨next, regs, machine⟩, ran⟩
  · right
    rw [runs, stopped]
  · left
    have dispatched := runs fuel
    rw [ran] at dispatched
    exact ⟨next, _, dispatched, by rw [loop_succ, dispatched]⟩

end Session

namespace Builder
open Ir Interpreter Session

theorem ended_run {function : Function} {subroutine : Subroutine} (code : subroutine.code = .compiled function)
    {machine : Machine} {regs : RegisterFile} {fuel : Nat}
    (ended : Ended machine.cache function (subroutine.arguments regs) { regs, world := machine.world }
      (exec machine.cache fuel (.compiled function (subroutine.arguments regs) (.start function))
        { regs, world := machine.world })) :
    machine.run fuel subroutine regs = .error .overflow ∨ ∃ arrival, machine.run fuel subroutine regs = .ok arrival := by
  have invoked : invoke machine.cache fuel subroutine { regs, world := machine.world } =
      exec machine.cache fuel (.compiled function (subroutine.arguments regs) (.start function))
        { regs, world := machine.world } := by
    unfold invoke Subroutine.activate
    rw [code]
  obtain ⟨cache, world⟩ := machine
  unfold Machine.run
  dsimp only at invoked ended ⊢
  rw [invoked]
  generalize exec cache fuel _ _ = outcome at ended
  cases ended with
  | ret => exact .inr ⟨_, rfl⟩
  | overflow => exact .inl rfl

/-- What is built at tier 0 has no jump and no call, and branches only to labels behind; with any arguments, registers
and memory it ends within as many steps as it has operations, at a return or at a read that passes the top of memory; and
a dispatch of it comes back to the loop, which looks whether to go on. -/
theorem tier0_yields {builder : Builder} {linkable : UInt64 → Bool} {address : UInt64} {graph : Guest.Graph}
    {name : String} {build : Build} (made : builder.build linkable address graph .tier0 name = .ok build) :
    ∃ function, build.subroutine.code = .compiled function ∧ function.Advances ∧
      (∀ cache args start fuel, function.ops.size ≤ fuel →
        Ended cache function args start (exec cache fuel (.compiled function args (.start function)) start)) ∧
      ∀ (resident : Subroutine) disturb poll fuel target engine found cpu, resident.code = .compiled function →
        Finds disturb cpu.mode target engine resident found → function.ops.size ≤ fuel →
          (∃ next after, (dispatch disturb fuel target).run ⟨engine, cpu⟩ = (.ok next, after) ∧
            (loop disturb poll (fuel + 1) target).run ⟨engine, cpu⟩ =
              if next = 0 ∨ !poll after.engine then (.ok next, after) else (loop disturb poll fuel next).run after) ∨
          (dispatch disturb fuel target).run ⟨engine, cpu⟩ = (.error (.halt .overflow), ⟨found, cpu⟩) := by
  obtain ⟨accepts, emission, builds, tier, _⟩ := builds_of_build made
  have wellFormed := builds.laid.wellFormed_iff.mpr ⟨accepts.nonempty, accepts.distinct⟩
  have ended : ∀ cache args start fuel, emission.finish.function.ops.size ≤ fuel →
      Ended cache emission.finish.function args start
        (exec cache fuel (.compiled emission.finish.function args (.start emission.finish.function)) start) := by
    intro cache args start fuel enough
    exact exec_ended wellFormed (builds.laid.slotsFit builds.few) (builds.laid.advances tier) fuel
      (standing_start wellFormed) .start (enough.trans (Nat.le_add_left _ _))
  refine ⟨emission.finish.function, builds.code, builds.laid.advances tier, ended, ?_⟩
  intro resident disturb poll fuel target engine found cpu code finds enough
  exact loop_regains finds (ended_run code (ended _ _ _ fuel enough)) poll

/-- Two blocks that go on at each other and at themselves. -/
def circling : Guest.Graph where
  blocks := [⟨0x1000, [⟨.cbnz, 0x1000, [0], some 0x1000, 4⟩]⟩, ⟨0x1004, [⟨.b, 0x1004, [], some 0x1000, 4⟩]⟩]

theorem tier0_yields_circling :
    ∃ build function, ({ liveIn := fun _ => {} } : Builder).build (fun _ => false) 0x1000 circling .tier0 "Sub" = .ok build ∧
      build.subroutine.code = .compiled function ∧ function.Advances ∧
      Ended {} function [] { regs := ({} : RegisterFile).write (.int 0) 1 }
        (exec {} function.ops.size (.compiled function [] (.start function))
          { regs := ({} : RegisterFile).write (.int 0) 1 }) ∧
      (invoke {} 20 build.subroutine { regs := ({} : RegisterFile).write (.int 0) 1 }).map Prod.fst = .ok 0x1000 := by
  have ran : (({ liveIn := fun _ => {} } : Builder).build (fun _ => false) 0x1000 circling .tier0 "Sub").map (fun build =>
      (invoke {} 20 build.subroutine { regs := ({} : RegisterFile).write (.int 0) 1 }).map Prod.fst) =
        .ok (.ok 0x1000) := by cbv
  cases made : ({ liveIn := fun _ => {} } : Builder).build (fun _ => false) 0x1000 circling .tier0 "Sub" with
  | error cause =>
    rw [made] at ran
    cases ran
  | ok build =>
    rw [made] at ran
    obtain ⟨function, code, advances, ended, _⟩ := tier0_yields made
    exact ⟨build, function, rfl, code, advances, ended _ _ _ _ le_rfl, Except.ok.inj ran⟩

/-- Reads a word. -/
def peeking : Guest.Graph where
  blocks := [⟨0x1000, [⟨.ldr, 0x1000, [0, 1], none, 4⟩, ⟨.ret, 0x1004, [], none, 4⟩]⟩]

/-- Nothing is mapped, and `x1` holds the address four bytes below the top. -/
def atTop : Context where
  regs := ({} : RegisterFile).write (.int 1) 0xfffffffffffffffc
  world := { memory := .empty 0 }

/-- Code that reads a word across the top of memory never returns. -/
theorem tier0_stops_past_top :
    ∃ build, ({ liveIn := fun _ => {} } : Builder).build (fun _ => false) 0x1000 peeking .tier0 "Sub" = .ok build ∧
      ∀ fuel word after, invoke {} fuel build.subroutine atTop ≠ .ok (word, after) := by
  have ran : (({ liveIn := fun _ => {} } : Builder).build (fun _ => false) 0x1000 peeking .tier0 "Sub").map (fun build =>
      (invoke {} 20 build.subroutine atTop).map Prod.fst) = .ok (.error .overflow) := by cbv
  cases made : ({ liveIn := fun _ => {} } : Builder).build (fun _ => false) 0x1000 peeking .tier0 "Sub" with
  | error cause =>
    rw [made] at ran
    cases ran
  | ok build =>
    rw [made] at ran
    refine ⟨build, rfl, fun fuel word after returned => ?_⟩
    have stops : invoke {} 20 build.subroutine atTop = .error .overflow := by
      have same : (invoke {} 20 build.subroutine atTop).map Prod.fst = .error .overflow := Except.ok.inj ran
      cases stopped : invoke {} 20 build.subroutine atTop with
      | error halt =>
        rw [stopped] at same
        cases same
        rfl
      | ok arrival =>
        rw [stopped] at same
        cases same
    -- both bounds are enough, so the larger one would have to come to both
    have first := exec_within {} (Nat.le_max_left 20 fuel) (build.subroutine.activate atTop.regs) atTop
    have second := exec_within {} (Nat.le_max_right 20 fuel) (build.subroutine.activate atTop.regs) atTop
    have one := first (by rw [← invoke, stops]; simp)
    have other := second (by rw [← invoke, returned]; simp)
    rw [← invoke, ← invoke] at one other
    cases stops.symm.trans (one.symm.trans (other.trans returned))

end Builder
end Dynarec
