import Dynarec.Proofs.Engine.Sparing

/-!
Host functions in the place of instructions. A graph stops at what has an entry, so code that is built from then on has
nothing of what is under a host function; code that had been built when the function was registered may have.
-/
namespace Dynarec
open Semantics

/-- Code that holds nothing the guest machine does not come to, and does not call address 0 in place. -/
structure Subroutine.HandsBack (code : Semantics.Code) (address : UInt64) (subroutine : Subroutine) : Prop where
  spares : subroutine.Spares code.program code.covers address
  unlinked : subroutine.linksTo 0 = false

theorem Subroutine.HandsBack.kin {code : Semantics.Code} {address : UInt64} {former subroutine : Subroutine}
    (handsBack : former.HandsBack code address) (kin : Entries.Kin former subroutine) :
    subroutine.HandsBack code address where
  spares := handsBack.spares.kin kin
  unlinked := by
    rw [kin.linksTo]
    exact handsBack.unlinked

theorem Subroutine.Single.handsBack {code : Semantics.Code} {address : UInt64} {subroutine : Subroutine}
    (single : subroutine.Single code.program address) (apart : address ≠ 0) (free : code.host address = none) :
    subroutine.HandsBack code address :=
  ⟨single.spares (Code.covers_eq_false.mpr ⟨apart, free⟩), single.unlinked 0⟩

namespace Guest.Program
variable {program : Program} {address : UInt64}

/-- No instruction leads to address 0 or calls it. -/
def Avoids (program : Program) : Prop :=
  ∀ address instruction, program.at? address = some instruction →
    0 ∉ instruction.successors ∧ instruction.callee? ≠ some 0

/-- A successor of a block is one of an instruction. -/
theorem of_mem_successors {block : Block} (found : program.block address = .ok block) {next : UInt64}
    (successor : next ∈ block.successors) :
    ∃ place instruction, program.at? place = some instruction ∧ next ∈ instruction.successors := by
  obtain ⟨_, instructions, _⟩ := run_of_block found
  unfold Block.successors at successor
  cases last : block.instructions.getLast? with
  | none => simp [last] at successor
  | some instruction =>
    rw [last, Option.map_some, Option.getD_some] at successor
    have member := List.mem_of_getLast? last
    rw [instructions] at member
    obtain ⟨place, there⟩ := at?_of_mem_run member
    exact ⟨place, instruction, there, successor⟩

theorem Avoids.reaches (avoids : program.Avoids) (apart : address ≠ 0) {next : UInt64}
    (reaches : program.Reaches address next) : next ≠ 0 := by
  cases reaches with
  | refl => exact apart
  | step _ found successor =>
    rintro rfl
    obtain ⟨place, instruction, there, leads⟩ := of_mem_successors found successor
    exact (avoids place instruction there).1 leads

theorem Avoids.callees (avoids : program.Avoids) {graph : Graph} (isGraph : program.IsGraph address graph) :
    0 ∉ graph.callees := by
  intro callee
  obtain ⟨block, member, calls⟩ := List.mem_flatMap.mp callee
  obtain ⟨instruction, inside, named⟩ := List.mem_filterMap.mp calls
  rw [(run_of_block (isGraph.blocks block member)).2.1] at inside
  obtain ⟨place, there⟩ := at?_of_mem_run inside
  exact (avoids place instruction there).2 named

end Guest.Program

namespace Semantics

/-- Nothing but a return leads to what is at address 0, if anything is there. -/
def Code.Sealed (code : Code) : Prop :=
  code.program.Avoids ∨ code.program.at? 0 = none ∧ code.host 0 = none

variable {code : Code} {address : UInt64} {graph : Guest.Graph}

theorem Code.Sealed.blocks (closed : code.Sealed) (isGraph : code.program.IsGraph address graph) (apart : address ≠ 0) :
    ∀ block ∈ graph.blocks, block.address ≠ 0 := by
  intro block member
  rcases closed with avoids | ⟨nothing, _⟩
  · exact avoids.reaches apart (isGraph.reached block member)
  · intro zero
    have scripted := Guest.Program.contains_of_block (isGraph.blocks block member)
    rw [zero, Guest.Program.contains_iff, nothing] at scripted
    obtain ⟨_, there⟩ := scripted
    cases there

/-- Nothing but calls leads to a host function. -/
def Code.Reserved (code : Code) : Prop :=
  ∀ address block, code.program.block address = .ok block → ∀ next ∈ block.successors, code.host next = none

section Update
variable {program : Guest.Program} {hosts : UInt64 → Option (Calling.Layout × Calling.HostFunction)}
  {found : Calling.Layout × Calling.HostFunction}

theorem eq_none_of_update {place : UInt64} (free : Function.update hosts address (some found) place = none) :
    hosts place = none := by
  rw [Function.update_apply] at free
  split at free
  · cases free
  · exact free

theorem Code.Sealed.of_update (closed : Code.Sealed ⟨program, Function.update hosts address (some found)⟩) :
    Code.Sealed ⟨program, hosts⟩ :=
  closed.imp_right fun ⟨nothing, free⟩ => ⟨nothing, eq_none_of_update free⟩

theorem Code.Reserved.of_update (reserved : Code.Reserved ⟨program, Function.update hosts address (some found)⟩) :
    Code.Reserved ⟨program, hosts⟩ :=
  fun place block there next successor => eq_none_of_update (reserved place block there next successor)

end Update

end Semantics

namespace Entries
variable {code : Semantics.Code} {builder : Builder} {entries next : Entries} {address : UInt64} {count : Nat}

/-- No host function stands where guest code is published. -/
theorem Faithful.unhosted (faithful : entries.Faithful code) {subroutine : Subroutine}
    (there : entries address = some subroutine) (guest : subroutine.isHost = false) : code.host address = none := by
  by_contra host
  obtain ⟨found, here⟩ := Option.ne_none_iff_exists'.mp host
  obtain ⟨_, same, isHost⟩ := faithful.hosts address found here
  cases there.symm.trans same
  cases guest.symm.trans isHost

/-- What is built of a graph does not call 0 in place. -/
theorem Faithful.unlinked (faithful : entries.Faithful code) (closed : code.Sealed) {graph : Guest.Graph}
    (isGraph : code.program.IsGraph address graph) {tier : Tier} {name : String} {build : Build}
    (built : builder.build entries.holdsTier1 address graph tier name = .ok build) :
    build.subroutine.linksTo 0 = false := by
  obtain ⟨_, emission, builds, _, linkable⟩ := Builder.builds_of_build built
  rw [Bool.eq_false_iff]
  intro linked
  obtain ⟨callee, _, held⟩ := (builds.linked 0).mp linked
  rcases closed with avoids | ⟨nothing, free⟩
  · exact avoids.callees isGraph callee
  · rw [linkable, holdsTier1_iff] at held
    obtain ⟨subroutine, there, _⟩ := held
    cases faithful.renders 0 subroutine there with
    | thunk host _ => cases free.symm.trans host
    | graph _ _ isGraphToo =>
      obtain ⟨_, _, found⟩ := isGraphToo.first
      obtain ⟨_, scripted⟩ := Guest.Program.contains_iff.mp (Guest.Program.contains_of_block found)
      cases nothing.symm.trans scripted

/-- All code hands control back, but for what is published at 0 itself. -/
def HandBack (code : Semantics.Code) (entries : Entries) : Prop :=
  ∀ address subroutine, address ≠ 0 → entries address = some subroutine → subroutine.HandsBack code address

/-- Code that is built has nothing of what is known by then. -/
theorem HandBack.move (handBack : entries.HandBack code) (faithful : entries.Faithful code)
    (faithfulNow : next.Faithful code) (ends : code.program.Ends) (closed : code.Sealed)
    (move : Move code.program builder address entries count next) : next.HandBack code := by
  intro other subroutine apart there
  rcases move.kin there with ⟨former, before, kin⟩ | ⟨rfl, ⟨_, _, made⟩ | ⟨_, made⟩⟩
  · exact (handBack other former apart before).kin kin
  · obtain ⟨block, build, found, rfl, built⟩ := of_buildTier0 made
    obtain ⟨_, emission, builds, tier, _⟩ := Builder.builds_of_build built
    have single : build.subroutine.Single code.program other := ⟨block, emission, found, builds.toCodes, tier⟩
    exact single.handsBack apart (faithfulNow.unhosted there builds.fresh.guest)
  · obtain ⟨graph, build, found, rfl, built⟩ := of_buildTier1 made
    obtain ⟨_, emission, builds, _⟩ := Builder.builds_of_build built
    have isGraph := Guest.Program.isGraph_graph found
    refine ⟨.graph found builds.toCodes fun block member => Code.covers_eq_false.mpr
      ⟨closed.blocks isGraph apart block member, ?_⟩, faithful.unlinked closed isGraph built⟩
    rcases Guest.Program.unknown_of_graph ends found block member with entry | unknown
    · rw [entry]
      exact faithfulNow.unhosted there builds.fresh.guest
    · -- a host function would have had its entry, and been known
      by_contra host
      obtain ⟨held, here⟩ := Option.ne_none_iff_exists'.mp host
      obtain ⟨_, before, _⟩ := faithful.hosts block.address held here
      simp [contains, before] at unknown

/-- A host function may be registered where tier-1 code elsewhere holds no block of its address. -/
theorem HandBack.register (handBack : entries.HandBack code) (faithful : entries.Faithful code)
    (singly : entries.Singly code.program) {layout : Calling.Layout} {function : Calling.HostFunction}
    {thunk : Subroutine} (made : Subroutine.thunk address function = .ok thunk)
    (spares : ∀ other subroutine, other ≠ 0 → other ≠ address → entries other = some subroutine →
      subroutine.tier = .tier1 → subroutine.Spares code.program
        (Code.covers { code with host := Function.update code.host address (some (layout, function)) }) other) :
    (entries.put address thunk).HandBack
      { code with host := Function.update code.host address (some (layout, function)) } := by
  intro other subroutine apart there
  by_cases here : other = address
  · subst here
    obtain ⟨_, _, rfl⟩ := thunk_host made
    rw [put_self] at there
    cases there
    exact ⟨.thunk rfl, rfl⟩
  · rw [entries.put_other here] at there
    refine ⟨?_, (handBack other subroutine apart there).unlinked⟩
    cases tier : subroutine.tier with
    | tier1 => exact spares other subroutine apart here there tier
    | tier0 =>
      obtain ⟨guest, single⟩ := singly other subroutine there tier
      have free := faithful.unhosted there guest
      exact single.spares (Code.covers_eq_false.mpr ⟨apart, (Function.update_of_ne here ..).trans free⟩)

/-- Entries that stand for the code and hand control back. -/
structure Returns (code : Semantics.Code) (entries : Entries) : Prop where
  faithful : entries.Faithful code
  handBack : entries.HandBack code

theorem Returns.move (returns : entries.Returns code)
    (named : ∀ address instruction, code.program.at? address = some instruction → instruction.Named)
    (ends : code.program.Ends) (closed : code.Sealed) (move : Move code.program builder address entries count next) :
    next.Returns code := by
  have faithfulNow := returns.faithful.move named move
  exact ⟨faithfulNow, returns.handBack.move returns.faithful faithfulNow ends closed move⟩

end Entries

namespace Engine

/-- An engine that has been started for a program, has been given host functions and has run guest code, in whatever
order, where tier-1 code held no block under a host function that it was given. -/
inductive Equipped (program : Guest.Program) :
    (UInt64 → Option (Calling.Layout × Calling.HostFunction)) → Engine → Prop
  | start (config : Config) (liveIn : Guest.Graph → LiveIn) (world : World) :
      Equipped program (fun _ => none) (Engine.start config program liveIn world)
  | host {hosts : UInt64 → Option (Calling.Layout × Calling.HostFunction)} {engine after : Engine} {address : UInt64}
      {layout : Calling.Layout} {function : Calling.HostFunction} : Equipped program hosts engine →
      Calling.Layout.ofClasses function.signature.classes = .ok layout →
        engine.registerHost address function = .ok after →
          (∀ other subroutine, other ≠ 0 → other ≠ address → engine.cache.get? other = some subroutine →
            subroutine.tier = .tier1 → subroutine.Spares program
              (Code.covers ⟨program, Function.update hosts address (some (layout, function))⟩) other) →
            Equipped program (Function.update hosts address (some (layout, function))) after
  | execute {hosts : UInt64 → Option (Calling.Layout × Calling.HostFunction)} {engine : Engine} (fuel : Nat)
      (address : UInt64) (cpu : Cpu) : Equipped program hosts engine →
      Equipped program hosts ((Session.execute fuel address).run ⟨engine, cpu⟩).2.engine
  | outside {hosts : UInt64 → Option (Calling.Layout × Calling.HostFunction)} {engine after : Engine} :
      Equipped program hosts engine → after.program = engine.program → after.rivals = engine.rivals →
        after.cache = engine.cache → Equipped program hosts after

variable {program : Guest.Program} {hosts : UInt64 → Option (Calling.Layout × Calling.HostFunction)} {engine : Engine}

theorem Equipped.furnished (equipped : Equipped program hosts engine) : Furnished program hosts engine := by
  induction equipped with
  | start config liveIn world => exact .start config liveIn world
  | host _ placed registered _ ih => exact ih.host placed registered
  | execute fuel address cpu _ ih => exact ih.execute fuel address cpu
  | outside _ sameProgram sameRivals sameCache ih => exact ih.outside sameProgram sameRivals sameCache

theorem Equipped.returns
    (named : ∀ address instruction, program.at? address = some instruction → instruction.Named)
    (ends : program.Ends) (equipped : Equipped program hosts engine) (closed : Code.Sealed ⟨program, hosts⟩) :
    Bears program (·.Returns ⟨program, hosts⟩) engine := by
  induction equipped with
  | start =>
    have faithful : Entries.Faithful ⟨program, fun _ => none⟩ fun _ => none :=
      ⟨fun _ _ there => (nomatch there), fun _ _ host => (nomatch host), Entries.sane_empty⟩
    exact ⟨rfl, rfl, _, Cache.shows_empty, faithful, fun _ _ _ there => (nomatch there)⟩
  | @host hosts engine after address layout function before placed registered spares ih =>
    have bears := ih closed.of_update
    obtain ⟨entries, shown, returns⟩ := bears.cache
    obtain ⟨others, shownToo, singly⟩ := before.furnished.singly.cache
    obtain ⟨thunk, made, shownNow, setup, _⟩ := registerHost_entries shown registered
    obtain rfl : others = entries :=
      funext fun address => (shownToo.entries address).symm.trans (shown.entries address)
    refine bears.setup setup shownNow ⟨returns.faithful.register placed made, ?_⟩
    refine returns.handBack.register returns.faithful singly made fun other subroutine apart away there => ?_
    exact spares other subroutine apart away ((shown.entries other).trans there)
  | execute fuel address cpu _ ih =>
    exact Session.loop_keeps (Bears program (·.Returns ⟨program, _⟩))
      (fun bears ran => bears.dispatch (·.move named ends closed ·) ran) isRunning fuel address (ih closed) cpu
  | outside _ sameProgram sameRivals sameCache ih => exact (ih closed).outside sameProgram sameRivals sameCache

/-- Where a host function is registered to which only calls lead, no code elsewhere holds its block. -/
theorem Furnished.equipped
    (named : ∀ address instruction, program.at? address = some instruction → instruction.Named)
    (ends : program.Ends) (furnished : Furnished program hosts engine) (closed : Code.Sealed ⟨program, hosts⟩)
    (reserved : Code.Reserved ⟨program, hosts⟩) : Equipped program hosts engine := by
  induction furnished with
  | start config liveIn world => exact .start config liveIn world
  | execute fuel address cpu _ ih => exact (ih closed reserved).execute fuel address cpu
  | outside _ sameProgram sameRivals sameCache ih =>
    exact (ih closed reserved).outside sameProgram sameRivals sameCache
  | @host hosts engine after address layout function _ placed registered ih =>
    have before := ih closed.of_update reserved.of_update
    obtain ⟨entries, shown, returns⟩ := (before.returns named ends closed.of_update).cache
    refine before.host placed registered fun other subroutine apart away there _ => ?_
    rw [shown.entries] at there
    cases (returns.handBack other subroutine apart there).spares with
    | thunk holds => exact .thunk holds
    | graph found codes stay =>
      refine .graph found codes fun block member => Code.covers_eq_false.mpr ?_
      obtain ⟨elsewhere, free⟩ := Code.covers_eq_false.mp (stay block member)
      refine ⟨elsewhere, ?_⟩
      have reaches := (Guest.Program.isGraph_graph found).reached block member
      generalize block.address = start at free reaches
      cases reaches with
      | refl => exact (Function.update_of_ne away ..).trans free
      | step _ there successor => exact reserved _ _ there _ successor

end Engine
end Dynarec
