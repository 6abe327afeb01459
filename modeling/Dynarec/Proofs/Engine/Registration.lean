import Dynarec.Calling.Samples
import Dynarec.Proofs.Engine.Handback

/-!
Registration. From then on calls of an address run the host function that has been registered there, whatever is scripted
there and whenever the calling code was built, but where tier-1 code had taken in the block of the address before. No code
does that where nothing but calls leads to the address.
-/
namespace Dynarec
open Effect Semantics Interpreter

namespace Engine
variable {program : Guest.Program} {hosts : UInt64 → Option (Calling.Layout × Calling.HostFunction)} {engine : Engine}

/-- Calls of a host function run it. -/
theorem Equipped.calls_hosts (equipped : Equipped program hosts engine) (regular : Code.Regular ⟨program, hosts⟩)
    (closed : Code.Sealed ⟨program, hosts⟩) (liveIn : ∀ graph, (engine.liveIn graph).vector.toNat < 2 ^ 32) (quiet : engine.Quiet)
    (running : engine.isRunning = true) {address : UInt64} (apart : address ≠ 0) (cpu : Cpu) :
    engine.Refines ⟨program, hosts⟩ cpu address := by
  have returns := equipped.returns regular.named regular.ends closed
  have handsBack : Session.HandsBack ⟨program, hosts⟩ address ⟨engine, cpu⟩ :=
    Session.handsBack_of_returns regular.named regular.ends closed returns
  exact handsBack.follows regular ⟨equipped.furnished.stands regular.named, liveIn, quiet, running⟩
    equipped.furnished.singly apart

/-- Calls code that has another function in its place. -/
def overridden : List Guest.Instruction :=
  [⟨.bl, 0x1000, [], some 0x2000, 4⟩, ⟨.movz, 0x1004, [30, 0], none, 4⟩, ⟨.ret, 0x1008, [], none, 4⟩,
    ⟨.movz, 0x2000, [0, 7], none, 4⟩, ⟨.ret, 0x2004, [], none, 4⟩]

def overriding : UInt64 → Option (Calling.Layout × Calling.HostFunction) :=
  Function.update (fun _ => none) 0x2000 (some (⟨[.int 0, .int 1]⟩, Calling.Samples.sum))

theorem overriding_eq_none {address : UInt64} (apart : address ≠ 0x2000) : overriding address = none :=
  Function.update_of_ne apart ..

theorem at?_overridden (address : UInt64) : (Guest.Program.ofList overridden).at? address =
    if 0x2004 = address then some ⟨.ret, 0x2004, [], none, 4⟩
    else if 0x2000 = address then some ⟨.movz, 0x2000, [0, 7], none, 4⟩
    else if 0x1008 = address then some ⟨.ret, 0x1008, [], none, 4⟩
    else if 0x1004 = address then some ⟨.movz, 0x1004, [30, 0], none, 4⟩
    else if 0x1000 = address then some ⟨.bl, 0x1000, [], some 0x2000, 4⟩ else none := by
  simp [overridden, Guest.Program.ofList, Guest.Program.at?, Std.TreeMap.getElem?_insert]

theorem regular_overridden : Code.Regular ⟨.ofList overridden, overriding⟩ where
  named _ _ there :=
    (by decide : ∀ instruction ∈ overridden, instruction.Named) _ (Guest.Program.of_at?_ofList there).1
  tame address _ _ host := by
    change overriding address = _ at host
    unfold overriding at host
    rw [Function.update_apply] at host
    split at host
    · cases host
      exact .plain rfl
    · cases host
  ends := (Guest.Program.climbs_ofList (by decide) (by decide)).ends
  skirts _ _ there _ covered := by
    obtain ⟨apart, elsewhere⟩ := (by decide : ∀ instruction ∈ overridden, instruction.next ≠ 0 ∧ instruction.next ≠ 0x2000)
      _ (Guest.Program.of_at?_ofList there).1
    simp [Code.covers, apart, overriding_eq_none elsewhere] at covered

theorem reserved_overridden : Code.Sealed ⟨.ofList overridden, overriding⟩ ∧
    Code.Reserved ⟨.ofList overridden, overriding⟩ := by
  constructor
  · exact .inl fun _ _ there =>
      (by decide : ∀ instruction ∈ overridden, 0 ∉ instruction.successors ∧ instruction.callee? ≠ some 0) _
        (Guest.Program.of_at?_ofList there).1
  · intro _ _ found next successor
    have apart : ∀ instruction ∈ overridden, ∀ next ∈ instruction.successors, next ≠ 0x2000 := by
      simp [overridden, Guest.Instruction.successors, Guest.Form.flow, Guest.Instruction.next]
    obtain ⟨_, _, there, leads⟩ := Guest.Program.of_mem_successors found successor
    exact overriding_eq_none (apart _ (Guest.Program.of_at?_ofList there).1 next leads)

theorem run_overridden (world : World) : ∃ last,
    Semantics.run ⟨.ofList overridden, overriding⟩ 4
      ⟨0x1000, (({} : RegisterFile).write (.int 0) 2).write (.int 1) 3, world⟩ = some (.halted last) ∧
        last.regs.read (.int 0) = 5 := by
  let regs := ((({} : RegisterFile).write (.int 0) 2).write (.int 1) 3).write .link (.ofWord 0x1004)
  let summed := regs.write (.int 0) (.ofWord 5)
  let left := summed.write .link (.ofWord 0)
  have first : step? ⟨.ofList overridden, overriding⟩
      ⟨0x1000, (({} : RegisterFile).write (.int 0) 2).write (.int 1) 3, world⟩ = some ⟨0x2000, regs, world⟩ :=
    (step?_guest rfl (at?_overridden 0x1000)).trans rfl
  have second : step? ⟨.ofList overridden, overriding⟩ ⟨0x2000, regs, world⟩ = some ⟨0x1004, summed, world⟩ := rfl
  have third : step? ⟨.ofList overridden, overriding⟩ ⟨0x1004, summed, world⟩ = some ⟨0x1008, left, world⟩ :=
    (step?_guest rfl (at?_overridden 0x1004)).trans rfl
  have fourth : step? ⟨.ofList overridden, overriding⟩ ⟨0x1008, left, world⟩ = some ⟨0, left, world⟩ :=
    (step?_guest rfl (at?_overridden 0x1008)).trans rfl
  have sum : left.read (.int 0) = 5 := by decide
  exact ⟨⟨0, left, world⟩, (run_onward first (by decide) 3).trans ((run_onward second (by decide) 2).trans
    ((run_onward third (by decide) 1).trans (run_halted fourth 0))), sum⟩

/-- Code that was built of all there is, before the function was registered, calls the function behind it. -/
theorem calls_hosts_overridden : ∃ engine, Equipped (.ofList overridden) overriding engine ∧
    ∃ least, ∀ fuel, least ≤ fuel → ∃ session, (Session.execute fuel 0x1000).run
      ⟨engine, { regs := (({} : RegisterFile).write (.int 0) 2).write (.int 1) 3 }⟩ = (.ok 0, session) ∧
        session.cpu.regs.read (.int 0) = 5 := by
  obtain ⟨named, _, ends, _⟩ := regular_overridden
  obtain ⟨closed, reserved⟩ := reserved_overridden
  have start : Furnished (.ofList overridden) (fun _ => none)
      (Engine.start { threshold := 1 } (.ofList overridden) (fun _ => {}) {}) := .start _ _ _
  obtain ⟨once, setup⟩ := start.again named
  obtain ⟨twice, sameSetup⟩ := once.again named
  have whole := sameSetup.trans setup
  generalize (Engine.start { threshold := 1 } (.ofList overridden) (fun _ => {}) {}).again.again = former at twice whole
  have placed : Calling.Layout.ofClasses Calling.Samples.sum.signature.classes = .ok ⟨[.int 0, .int 1]⟩ := rfl
  obtain ⟨registered, made⟩ : ∃ registered, former.registerHost 0x2000 Calling.Samples.sum = .ok registered := ⟨_, rfl⟩
  obtain ⟨_, _, _, shown, _⟩ := twice.stands named
  obtain ⟨_, _, _, sameNow, _⟩ := registerHost_entries shown made
  have furnished : Furnished (.ofList overridden) overriding registered.renewThread :=
    (twice.host placed made).outside rfl rfl rfl
  have setupNow := sameNow.trans whole
  have liveIn : registered.renewThread.liveIn = fun _ => {} := congrArg (·.2.2.1) setupNow
  have valid : ∀ graph, (registered.renewThread.liveIn graph).vector.toNat < 2 ^ 32 := by
    intro graph
    rw [liveIn]
    exact (by decide : ({} : LiveIn).vector.toNat < 2 ^ 32)
  have quiet : registered.renewThread.Quiet := Quiet.of_setup setupNow rfl
  have apart : (0x1000 : UInt64) ≠ 0 := by decide
  have equipped := furnished.equipped named ends closed reserved
  have refines := Equipped.calls_hosts equipped regular_overridden closed valid quiet rfl apart
    { regs := (({} : RegisterFile).write (.int 0) 2).write (.int 1) 3 }
  obtain ⟨last, halts, sum⟩ := run_overridden registered.renewThread.world
  obtain ⟨least, ends⟩ := refines.halts halts
  refine ⟨registered.renewThread, equipped, least, fun fuel atLeast => ?_⟩
  obtain ⟨session, ended, alike⟩ := ends fuel atLeast
  exact ⟨session, ended, (alike.regs (.int 0)).symm.trans sum⟩

/-- Branches to code that it calls otherwise, so that its graph has that code too. -/
def sharing : Guest.Program :=
  .ofList [⟨.cbnz, 0x1000, [1], some 0x2000, 4⟩, ⟨.bl, 0x1004, [], some 0x2000, 4⟩, ⟨.ret, 0x1008, [], none, 4⟩,
    ⟨.movz, 0x2000, [0, 7], none, 4⟩, ⟨.ret, 0x2004, [], none, 4⟩]

def shared : Guest.Graph :=
  ⟨[⟨0x1000, [⟨.cbnz, 0x1000, [1], some 0x2000, 4⟩]⟩,
    ⟨0x2000, [⟨.movz, 0x2000, [0, 7], none, 4⟩, ⟨.ret, 0x2004, [], none, 4⟩]⟩,
    ⟨0x1004, [⟨.bl, 0x1004, [], some 0x2000, 4⟩]⟩, ⟨0x1008, [⟨.ret, 0x1008, [], none, 4⟩]⟩]⟩

theorem graph_sharing : sharing.graph (fun _ => false) 0x1000 = .ok shared := by
  have at?_sharing : ∀ address, sharing.at? address =
      if 0x2004 = address then some ⟨.ret, 0x2004, [], none, 4⟩
      else if 0x2000 = address then some ⟨.movz, 0x2000, [0, 7], none, 4⟩
      else if 0x1008 = address then some ⟨.ret, 0x1008, [], none, 4⟩
      else if 0x1004 = address then some ⟨.bl, 0x1004, [], some 0x2000, 4⟩
      else if 0x1000 = address then some ⟨.cbnz, 0x1000, [1], some 0x2000, 4⟩ else none := by
    simp [sharing, Guest.Program.ofList, Guest.Program.at?, Std.TreeMap.getElem?_insert]
  have size : sharing.size = 5 := by
    simp [sharing, Guest.Program.ofList, Guest.Program.size, Std.TreeMap.size_insert]
  have scripted : sharing.contains 0x2000 = true ∧ sharing.contains 0x1004 = true ∧ sharing.contains 0x1008 = true :=
    ⟨Guest.Program.contains_of_at? (at?_sharing 0x2000), Guest.Program.contains_of_at? (at?_sharing 0x1004),
      Guest.Program.contains_of_at? (at?_sharing 0x1008)⟩
  have blocks : sharing.block 0x1000 = .ok ⟨0x1000, [⟨.cbnz, 0x1000, [1], some 0x2000, 4⟩]⟩ ∧
      sharing.block 0x2000 = .ok ⟨0x2000, [⟨.movz, 0x2000, [0, 7], none, 4⟩, ⟨.ret, 0x2004, [], none, 4⟩]⟩ ∧
      sharing.block 0x1004 = .ok ⟨0x1004, [⟨.bl, 0x1004, [], some 0x2000, 4⟩]⟩ ∧
      sharing.block 0x1008 = .ok ⟨0x1008, [⟨.ret, 0x1008, [], none, 4⟩]⟩ := by
    simp [Guest.Program.block, Guest.Program.run, size, at?_sharing, Guest.Instruction.endsBlock, Guest.Form.flow,
      Guest.Flow.endsBlock, Guest.Instruction.next]
  simp [Guest.Program.graph, Guest.Program.explore, size, blocks, scripted, shared, Guest.Block.successors,
    Guest.Instruction.successors, Guest.Form.flow, Guest.Instruction.next, bind, Except.bind, pure, Except.pure,
    Except.map, List.eraseDups_cons]

/-- Code that has taken in the block at an address runs that for a call, whatever has been registered there since. -/
theorem call_runs_shared : ∃ build, sharing.graph (fun _ => false) 0x1000 = .ok shared ∧
    ({} : Builder).build (fun _ => false) 0x1000 shared .tier1 "Sub" = .ok build ∧
      ∀ cache, ∃ fuel left, invoke cache fuel build.subroutine {} = .ok (0x1008, left) ∧
        left.regs.read (.int 0) = 7 := by
  have sound : shared.Sound := by decide
  obtain ⟨build, emission, made, builds, tier, linkable⟩ := Builder.build_ok {} (fun _ => false) 0x1000 .tier1 "Sub"
    (Builder.accepts_of_sound (by decide) sound)
  refine ⟨build, graph_sharing, made, fun cache => ?_⟩
  have unlinked : build.subroutine.linksTo = fun _ => false := by
    funext target
    rw [Bool.eq_false_iff]
    intro linked
    have links := ((builds.linked target).mp linked).2.2
    rw [linkable] at links
    cases links
  obtain ⟨left, ran, seven⟩ : ∃ left, runGraph shared .tier1 (fun _ => false) (link cache (exec cache 0)) 3 0x1000
      {} = .ok (0x1008, left) ∧ left.regs.read (.int 0) = 7 := ⟨_, rfl, by decide⟩
  rw [← tier, ← unlinked] at ran
  obtain ⟨fuel, other, invoked, agree⟩ := builds.arrives sound rfl ran
  exact ⟨fuel, other, invoked, (agree (.int 0)).trans seven⟩

end Engine
end Dynarec
