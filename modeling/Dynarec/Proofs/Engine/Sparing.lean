import Dynarec.Proofs.Engine.Conduct
import Dynarec.Proofs.Engine.Fidelity
import Dynarec.Proofs.Interpreter.Hiding
import Dynarec.Proofs.Semantics.Bare

/-!
What code in a cache has taken in. Tier-0 code is code of its own block and calls nothing in place; tier-1 code may hold
blocks at other addresses. A cache whose code spares what the guest machine does not come to stands for the bare code.
-/
namespace Dynarec
open Semantics

/-- Code that holds no block at an address to be spared: a host function, or code of a graph without one. -/
inductive Subroutine.Spares (program : Guest.Program) (spared : UInt64 → Bool) (address : UInt64)
    (subroutine : Subroutine) : Prop
  | thunk {layout : Calling.Layout} {function : Calling.HostFunction} : subroutine.code = .thunk layout function →
      Spares program spared address subroutine
  | graph {known : UInt64 → Bool} {graph : Guest.Graph} {emission : Emission} :
      program.graph known address = .ok graph → Builder.Codes subroutine graph emission →
        (∀ block ∈ graph.blocks, spared block.address = false) → Spares program spared address subroutine

/-- Code of the block at an address and of nothing else. -/
def Subroutine.Single (program : Guest.Program) (address : UInt64) (subroutine : Subroutine) : Prop :=
  ∃ block emission, program.block address = .ok block ∧ Builder.Codes subroutine (.single block) emission ∧
    emission.tier = .tier0

theorem Builder.Codes.kin {former subroutine : Subroutine} {graph : Guest.Graph} {emission : Emission}
    (codes : Builder.Codes former graph emission) (kin : Entries.Kin former subroutine) :
    Builder.Codes subroutine graph emission where
  laid := codes.laid
  code := kin.code.trans codes.code
  params := kin.params.trans codes.params
  few := codes.few
  linked := by
    rw [kin.linksTo]
    exact codes.linked

namespace Subroutine
variable {program : Guest.Program} {spared : UInt64 → Bool} {address : UInt64} {subroutine : Subroutine}

theorem Single.unlinked (single : subroutine.Single program address) (target : UInt64) :
    subroutine.linksTo target = false := by
  obtain ⟨_, emission, _, codes, tier⟩ := single
  rw [Bool.eq_false_iff]
  intro linked
  cases tier.symm.trans ((codes.linked target).mp linked).2.1

theorem Single.spares (single : subroutine.Single program address) (stays : spared address = false) :
    subroutine.Spares program spared address := by
  obtain ⟨block, emission, found, codes, _⟩ := single
  refine .graph (Guest.Program.graph_known found) codes fun other member => ?_
  cases List.mem_singleton.mp member
  rwa [(Guest.Program.run_of_block found).1]

theorem Spares.kin {former : Subroutine} (spares : former.Spares program spared address)
    (kin : Entries.Kin former subroutine) : subroutine.Spares program spared address := by
  cases spares with
  | thunk holds => exact .thunk (kin.code.trans holds)
  | graph found codes stay => exact .graph found (codes.kin kin) stay

/-- Code that spares what the guest machine does not come to is code of the bare program. -/
theorem Spares.renders {code : Semantics.Code} (regular : code.Regular) (apart : address ≠ 0)
    (renders : subroutine.Renders code address) (spares : subroutine.Spares code.program code.covers address) :
    subroutine.Renders code.bare address := by
  cases renders with
  | thunk host holds => exact .thunk ((Code.host_bare apart).trans host) holds
  | graph codes _ _ =>
    cases spares with
    | thunk holds => cases codes.code.symm.trans holds
    | graph found codes stay =>
      have isGraph : code.bare.program.IsGraph address _ :=
        Guest.Program.isGraph_graph (Guest.Program.graph_without regular.ends regular.skirts found stay)
      exact .graph codes (isGraph.sound regular.plain.named) isGraph

end Subroutine

namespace Entries

/-- All tier-0 code is guest code of single blocks. -/
def Singly (program : Guest.Program) (entries : Entries) : Prop :=
  ∀ address subroutine, entries address = some subroutine → subroutine.tier = .tier0 →
    subroutine.isHost = false ∧ subroutine.Single program address

variable {program : Guest.Program} {builder : Builder} {entries next : Entries} {address : UInt64} {count : Nat}

theorem Singly.move (singly : entries.Singly program) (move : Move program builder address entries count next) :
    next.Singly program := by
  intro other subroutine there low
  rcases move.kin there with ⟨former, before, kin⟩ | ⟨rfl, ⟨_, _, made⟩ | ⟨_, made⟩⟩
  · obtain ⟨guest, block, emission, found, codes, tier⟩ := singly other former before (kin.tier.symm.trans low)
    exact ⟨kin.isHost.trans guest, block, emission, found, codes.kin kin, tier⟩
  · obtain ⟨block, build, found, rfl, built⟩ := of_buildTier0 made
    obtain ⟨_, emission, builds, tier, _⟩ := Builder.builds_of_build built
    exact ⟨builds.fresh.guest, block, emission, found, builds.toCodes, tier⟩
  · obtain ⟨graph, build, _, rfl, built⟩ := of_buildTier1 made
    obtain ⟨_, emission, builds, tier, _⟩ := Builder.builds_of_build built
    cases low.symm.trans (builds.fresh.sameTier.trans tier)

theorem Singly.register (singly : entries.Singly program) {function : Calling.HostFunction} {thunk : Subroutine}
    (made : Subroutine.thunk address function = .ok thunk) : (entries.put address thunk).Singly program := by
  intro other subroutine there low
  by_cases here : other = address
  · subst here
    obtain ⟨_, _, rfl⟩ := thunk_host made
    rw [put_self] at there
    cases there
    cases low
  · rw [entries.put_other here] at there
    exact singly other subroutine there low

end Entries

namespace Engine
variable {program : Guest.Program} {hosts : UInt64 → Option (Calling.Layout × Calling.HostFunction)} {engine : Engine}

/-- An engine by itself that translates the program, with entries of a kind in its cache. -/
structure Bears (program : Guest.Program) (kind : Entries → Prop) (engine : Engine) : Prop where
  translates : engine.program = program
  alone : engine.rivals = none
  cache : ∃ entries, engine.cache.Shows entries ∧ kind entries

variable {kind : Entries → Prop}

theorem Bears.setup {after : Engine} (bears : Bears program kind engine) (same : after.setup = engine.setup)
    {entries : Entries} (shown : after.cache.Shows entries) {kindNow : Entries → Prop} (held : kindNow entries) :
    Bears program kindNow after :=
  ⟨(program_of_setup same).trans bears.translates, (congrArg (·.2.2.2) same).trans bears.alone, entries, shown, held⟩

theorem Bears.outside {after : Engine} (bears : Bears program kind engine)
    (sameProgram : after.program = engine.program) (sameRivals : after.rivals = engine.rivals)
    (sameCache : after.cache = engine.cache) : Bears program kind after := by
  obtain ⟨translates, alone, entries, shown, held⟩ := bears
  exact ⟨sameProgram.trans translates, sameRivals.trans alone, entries, by rwa [sameCache], held⟩

/-- A dispatch keeps what moves keep. -/
theorem Bears.dispatch (bears : Bears program kind engine)
    (kept : ∀ {builder : Builder} {entries next : Entries} {address : UInt64} {count : Nat}, kind entries →
      Entries.Move program builder address entries count next → kind next)
    {limit fuel : Nat} {address : UInt64} {cpu left : Cpu} {after : Engine} {result : Except Failure UInt64}
    (ran : (Session.dispatch (Session.rivals limit) fuel address).run ⟨engine, cpu⟩ = (result, ⟨after, left⟩)) :
    Bears program kind after := by
  have whole : ∀ {builder : Builder} {entries next : Entries} {address : UInt64} {count : Nat}, kind entries →
      Entries.Moves program builder address entries count next → kind next := by
    intro builder entries next address count held moves
    induction moves with
    | none => exact held
    | move _ move ih => exact kept ih move
  obtain ⟨entries, shown, held⟩ := bears.cache
  obtain ⟨_, _, _, same, setup, next, count, shownNow, _, moves⟩ :=
    Session.dispatch_entries shown bears.alone limit fuel address cpu
  rw [ran] at same
  cases same
  refine bears.setup setup shownNow ?_
  rcases moves with same | resolved
  · cases same
    exact held
  · rw [bears.translates] at resolved
    exact whole held (Entries.moves_resolve resolved)

theorem Furnished.singly (furnished : Furnished program hosts engine) : Bears program (·.Singly program) engine := by
  induction furnished with
  | start => exact ⟨rfl, rfl, _, Cache.shows_empty, fun _ _ there => (nomatch there)⟩
  | host _ _ registered ih =>
    obtain ⟨entries, shown, singly⟩ := ih.cache
    obtain ⟨thunk, made, shownNow, setup, _⟩ := registerHost_entries shown registered
    exact ih.setup setup shownNow (singly.register made)
  | execute fuel address cpu _ ih =>
    exact Session.loop_keeps (Bears program (·.Singly program)) (fun bears ran => bears.dispatch .move ran) isRunning fuel
      address ih cpu
  | outside _ sameProgram sameRivals sameCache ih => exact ih.outside sameProgram sameRivals sameCache

end Engine

namespace Semantics
variable {code : Semantics.Code}

theorem Faults.of_bare {state : State} (faults : Faults code.bare state) : Faults code state := by
  obtain ⟨instruction, scripted⟩ := Option.isSome_iff_exists.mp faults.scripted
  obtain ⟨stays, there⟩ := Guest.Program.at?_of_without scripted
  exact ⟨Option.isSome_of_eq_some there, (step?_bare (Code.covers_eq_false.mp stays).1).symm.trans faults.stops⟩

end Semantics

/-- Apart from address 0 the bare code tells what the code does. -/
theorem Session.Tells.of_bare {code : Semantics.Code} {state : State} {outcome : Except Failure UInt64 × Session}
    (tells : Tells code.bare (.of state) outcome) : Tells code (.of state) outcome := by
  by_cases zero : state.address = 0
  · rw [Ending.of_zero zero] at tells ⊢
    cases tells with
    | halted alike => exact .halted alike
  · rw [Ending.of_ne_zero zero] at tells ⊢
    cases tells with
    | nothing unscripted guest alike =>
      have guestToo := (Code.host_bare zero).symm.trans guest
      exact .nothing ((Code.at?_bare (Code.covers_eq_false.mpr ⟨zero, guestToo⟩)).symm.trans unscripted) guestToo alike
    | overflow faults => exact .overflow faults.of_bare

/-- An engine that refines the bare code refines the code. -/
theorem Engine.Refines.of_bare {code : Semantics.Code} {engine : Engine} {cpu : Cpu} {address : UInt64}
    (refines : engine.Refines code.bare cpu address) (plain : code.bare.Plain) (apart : address ≠ 0) :
    engine.Refines code cpu address := by
  refine ⟨?_, ?_⟩
  · intro bound ending ended
    rw [← @run_bare code bound ⟨address, cpu.regs, engine.world⟩ apart] at ended
    obtain ⟨_, last, _, _, rfl⟩ := steps_of_run plain apart ended
    obtain ⟨least, tells⟩ := refines.ends bound _ ended
    exact ⟨least, fun fuel atLeast => (tells fuel atLeast).of_bare⟩
  · intro fuel bounded
    obtain ⟨bound, ending, ended, tells⟩ := refines.tells fuel bounded
    obtain ⟨_, last, _, _, rfl⟩ := steps_of_run plain apart ended
    rw [run_bare bound apart] at ended
    exact ⟨bound, _, ended, tells.of_bare⟩

end Dynarec
