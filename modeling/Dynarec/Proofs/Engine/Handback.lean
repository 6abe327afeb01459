import Dynarec.Proofs.Engine.Equipping
import Dynarec.Proofs.Engine.Refinement

/-!
Handing control back. Control that comes to address 0 goes to the host, and nothing at 0 is run. Tier-0 code leaves for
every address it comes to, and so hands control back unless its one block is a row of instructions that runs over the top
of the address space on to 0; tier-1 code does where it has not taken in what is at 0.
-/
namespace Dynarec
open Effect Semantics Interpreter

namespace Cache
variable {code : Semantics.Code} {cache : Cache}

section Hidden
variable (faithful : cache.Faithful code) (handsBack : ∀ address subroutine, address ≠ 0 →
  cache.get? address = some subroutine → subroutine.HandsBack code address)
include faithful handsBack

/-- With the entry at 0 out of sight a cache of such code stands for the bare code. -/
theorem Faithful.hide (regular : code.Regular) : (cache.hide 0).Faithful code.bare := by
  intro address subroutine found
  have apart : address ≠ 0 := by
    rintro rfl
    cases get?_hide_self.symm.trans found
  rw [get?_hide_other apart] at found
  exact (handsBack address subroutine apart found).spares.renders regular apart (faithful address subroutine found)

/-- The code does not look at the entry. -/
theorem Faithful.invoke_hide {address : UInt64} {subroutine : Subroutine} (apart : address ≠ 0)
    (found : cache.get? address = some subroutine) (fuel : Nat) (context : Context) :
    invoke cache fuel subroutine context = invoke (cache.hide 0) fuel subroutine context := by
  have shuns : ∀ address subroutine, address ≠ 0 → cache.get? address = some subroutine →
      subroutine.code.Shuns 0 := by
    intro address subroutine apart found
    cases faithful address subroutine found with
    | thunk _ holds =>
      rw [holds]
      trivial
    | graph codes _ _ => exact codes.shuns (handsBack address subroutine apart found).unlinked
  exact exec_hide shuns fuel ((shuns address subroutine apart found).activate context.regs) context

end Hidden
end Cache

namespace Engine

/-- All code of tier 1 hands control back, but for what is published at 0 itself. -/
def HandsBack (code : Semantics.Code) (engine : Engine) : Prop :=
  ∀ address subroutine, address ≠ 0 → engine.cache.get? address = some subroutine → subroutine.tier = .tier1 →
    subroutine.HandsBack code address

variable {code : Semantics.Code} {engine : Engine}

/-- Then all code does. -/
theorem HandsBack.all (handsBack : engine.HandsBack code) (ready : Ready code engine)
    (bears : engine.Bears code.program (·.Singly code.program)) {address : UInt64} {subroutine : Subroutine}
    (apart : address ≠ 0) (found : engine.cache.get? address = some subroutine) :
    subroutine.HandsBack code address := by
  cases tier : subroutine.tier with
  | tier1 => exact handsBack address subroutine apart found tier
  | tier0 =>
    obtain ⟨entries, shown, singly⟩ := bears.cache
    obtain ⟨guest, single⟩ := singly address subroutine ((shown.entries address).symm.trans found) tier
    obtain ⟨_, shownToo, faithful⟩ := ready.cache
    exact single.handsBack apart (faithful.unhosted ((shownToo.entries address).symm.trans found) guest)

end Engine

namespace Session

/-- The sessions that a run comes by, and where it goes on in them. -/
inductive Passes (start : UInt64) (first : Session) : UInt64 → Session → Prop
  | start : Passes start first start first
  | onward {address next : UInt64} {session after : Session} (limit fuel : Nat) : Passes start first address session →
      (dispatch (rivals limit) fuel address).run session = (.ok next, after) → next ≠ 0 → Passes start first next after

/-- Whenever code is run, all tier-1 code that there is hands control back. -/
def HandsBack (code : Semantics.Code) (start : UInt64) (first : Session) : Prop :=
  ∀ address session, Passes start first address session → ∀ limit fuel,
    ((dispatch (rivals limit) fuel address).run session).2.engine.HandsBack code

variable {code : Semantics.Code} {start : UInt64} {first : Session}

theorem HandsBack.carries (handsBack : HandsBack code start first) (regular : code.Regular) :
    Carries code.bare fun address session => Passes start first address session ∧ address ≠ 0 ∧
      Engine.Ready code session.engine ∧ session.engine.Bears code.program (·.Singly code.program) := by
  refine ⟨fun _ _ held => held.2.2.1.running, ?_⟩
  rintro address ⟨engine, cpu⟩ ⟨passes, apart, ready, bears⟩
  cases serves regular.named ready cpu address with
  | nothing unscripted guest alike ran =>
    have same := Code.at?_bare (Code.covers_eq_false.mpr ⟨apart, guest⟩)
    exact .nothing (same.trans unscripted) ((Code.host_bare apart).trans guest) alike ran
  | @code found subroutine times readyNow alike faithful published ran =>
    -- a dispatch that is cut short at once leaves the engine that it has found
    have stopped : (dispatch (rivals 0) 0 address).run ⟨engine, cpu⟩ = (.error (.halt .outOfFuel), ⟨found, cpu⟩) :=
      ran 0 0
    have handsBackNow := handsBack address ⟨engine, cpu⟩ passes 0 0
    rw [stopped] at handsBackNow
    have all : ∀ address subroutine, address ≠ 0 → found.cache.get? address = some subroutine →
        subroutine.HandsBack code address := fun _ _ => handsBackNow.all readyNow (bears.dispatch .move stopped)
    refine @Conducts.code _ _ _ _ found (found.cache.hide 0) subroutine times alike (faithful.hide all regular)
      ((Cache.get?_hide_other apart).trans published) ?_ ?_
    · intro limit fuel
      rw [ran, faithful.invoke_hide all apart published]
    · intro limit fuel next after arrived onward running
      refine ⟨passes.onward limit fuel arrived onward, onward, ?_, bears.dispatch .move arrived⟩
      rw [ran] at arrived
      exact readyNow.arrive arrived running

/-- A run goes on as the guest machine does where all code hands control back. -/
theorem HandsBack.follows {engine : Engine} {cpu : Cpu} (handsBack : HandsBack code start ⟨engine, cpu⟩)
    (regular : code.Regular) (ready : Engine.Ready code engine)
    (bears : engine.Bears code.program (·.Singly code.program)) (apart : start ≠ 0) : engine.Refines code cpu start := by
  have carries := handsBack.carries regular
  exact (Engine.refines_of_carries carries regular.plain ⟨.start, apart, ready, bears⟩ apart).of_bare regular.plain apart

/-- Code hands control back throughout a run where it does so at first and nothing but a return leads to 0. -/
theorem handsBack_of_returns
    (named : ∀ address instruction, code.program.at? address = some instruction → instruction.Named)
    (ends : code.program.Ends) (closed : code.Sealed) (returns : first.engine.Bears code.program (·.Returns code)) :
    HandsBack code start first := by
  have kept : ∀ {builder : Builder} {entries next : Entries} {address : UInt64} {count : Nat}, entries.Returns code →
      Entries.Move code.program builder address entries count next → next.Returns code :=
    fun before move => before.move named ends closed move
  intro address session passes limit fuel other subroutine apart found _
  have bears : session.engine.Bears code.program (·.Returns code) := by
    clear found
    induction passes with
    | start => exact returns
    | onward limit fuel _ ran _ ih => exact ih.dispatch kept ran
  obtain ⟨entries, shown, before⟩ := (bears.dispatch kept rfl).cache
  exact before.handBack other subroutine apart ((shown.entries other).symm.trans found)

end Session

namespace Engine

/-- Whatever is at address 0, control that comes there comes back to the host, from code of either tier, as long as
tier-1 code has not taken in what is at 0 or under a host function. -/
theorem Furnished.hands_back {program : Guest.Program}
    {hosts : UInt64 → Option (Calling.Layout × Calling.HostFunction)} {engine : Engine}
    (furnished : Furnished program hosts engine) (regular : Code.Regular ⟨program, hosts⟩)
    (liveIn : ∀ graph, (engine.liveIn graph).vector.toNat < 2 ^ 32) (quiet : engine.Quiet) (running : engine.isRunning = true)
    {address : UInt64} (apart : address ≠ 0) (cpu : Cpu)
    (handsBack : Session.HandsBack ⟨program, hosts⟩ address ⟨engine, cpu⟩) :
    engine.Refines ⟨program, hosts⟩ cpu address :=
  handsBack.follows regular ⟨furnished.stands regular.named, liveIn, quiet, running⟩ furnished.singly apart

/-- Returns to the host, with code at address 0. -/
def landing : List Guest.Instruction :=
  [⟨.movz, 0x1000, [0, 7], none, 4⟩, ⟨.ret, 0x1004, [], none, 4⟩, ⟨.movz, 0, [0, 9], none, 4⟩]

theorem at?_landing (address : UInt64) : (Guest.Program.ofList landing).at? address =
    if 0 = address then some ⟨.movz, 0, [0, 9], none, 4⟩
    else if 0x1004 = address then some ⟨.ret, 0x1004, [], none, 4⟩
    else if 0x1000 = address then some ⟨.movz, 0x1000, [0, 7], none, 4⟩ else none := by
  simp [landing, Guest.Program.ofList, Guest.Program.at?, Std.TreeMap.getElem?_insert]

theorem regular_landing : Code.Regular ⟨.ofList landing, fun _ => none⟩ where
  named _ _ there :=
    (by decide : ∀ instruction ∈ landing, instruction.Named) _ (Guest.Program.of_at?_ofList there).1
  tame _ _ _ host := by cases host
  ends := (Guest.Program.climbs_ofList (by decide) (by decide)).ends
  skirts _ _ there _ covered := by
    have elsewhere := (by decide : ∀ instruction ∈ landing, instruction.next ≠ 0) _
      (Guest.Program.of_at?_ofList there).1
    simp [Code.covers, elsewhere] at covered

theorem sealed_landing : Code.Sealed ⟨.ofList landing, fun _ => none⟩ :=
  .inl fun _ _ there =>
    (by decide : ∀ instruction ∈ landing, 0 ∉ instruction.successors ∧ instruction.callee? ≠ some 0) _
      (Guest.Program.of_at?_ofList there).1

theorem run_landing (world : World) : ∃ last,
    Semantics.run ⟨.ofList landing, fun _ => none⟩ 2 ⟨0x1000, {}, world⟩ = some (.halted last) ∧
      last.regs.read (.int 0) = 7 := by
  let regs := ({} : RegisterFile).write (.int 0) (.ofWord 7)
  have first : step? ⟨.ofList landing, fun _ => none⟩ ⟨0x1000, {}, world⟩ = some ⟨0x1004, regs, world⟩ :=
    (step?_guest rfl (at?_landing 0x1000)).trans rfl
  have second : step? ⟨.ofList landing, fun _ => none⟩ ⟨0x1004, regs, world⟩ = some ⟨0, regs, world⟩ :=
    (step?_guest rfl (at?_landing 0x1004)).trans rfl
  have seven : regs.read (.int 0) = 7 := by decide
  exact ⟨⟨0, regs, world⟩, (run_onward first (by decide) 1).trans (run_halted second 0), seven⟩

/-- Runs code at `0x1000` on a thread that is done with then. -/
def again (engine : Engine) : Engine := ((Session.execute 100 0x1000).run ⟨engine, {}⟩).2.engine.renewThread

theorem Furnished.again {program : Guest.Program} {hosts : UInt64 → Option (Calling.Layout × Calling.HostFunction)}
    {engine : Engine} (furnished : Furnished program hosts engine)
    (named : ∀ address instruction, program.at? address = some instruction → instruction.Named) :
    Furnished program hosts engine.again ∧ engine.again.setup = engine.setup :=
  ⟨(furnished.execute 100 0x1000 {}).outside rfl rfl rfl, ((furnished.stands named).execute named 100 0x1000 {}).2⟩

/-- An engine that builds code anew after one run hands control back after three. -/
theorem hands_back_landing : ∃ engine, Furnished (.ofList landing) (fun _ => none) engine ∧
    ∃ least, ∀ fuel, least ≤ fuel → ∃ session,
      (Session.execute fuel 0x1000).run ⟨engine, {}⟩ = (.ok 0, session) ∧ session.cpu.regs.read (.int 0) = 7 := by
  obtain ⟨named, _, ends, _⟩ := regular_landing
  have start : Furnished (.ofList landing) (fun _ => none) (Engine.start { threshold := 1 } (.ofList landing) (fun _ => {}) {}) :=
    .start _ _ _
  obtain ⟨once, setup⟩ := start.again named
  obtain ⟨twice, sameSetup⟩ := once.again named
  obtain ⟨furnished, sameAgain⟩ := twice.again named
  have whole := sameAgain.trans (sameSetup.trans setup)
  generalize (Engine.start { threshold := 1 } (.ofList landing) (fun _ => {}) {}).again.again = former at furnished whole
  have liveIn : former.again.liveIn = fun _ => {} := congrArg (·.2.2.1) whole
  have valid : ∀ graph, (former.again.liveIn graph).vector.toNat < 2 ^ 32 := by
    intro graph
    rw [liveIn]
    exact (by decide : ({} : LiveIn).vector.toNat < 2 ^ 32)
  have quiet : former.again.Quiet := Quiet.of_setup whole rfl
  have apart : (0x1000 : UInt64) ≠ 0 := by decide
  have equipped := furnished.equipped named ends sealed_landing fun _ _ _ _ _ => rfl
  have returns := equipped.returns named ends sealed_landing
  have handsBack : Session.HandsBack ⟨.ofList landing, fun _ => none⟩ 0x1000 ⟨former.again, {}⟩ :=
    Session.handsBack_of_returns named ends sealed_landing returns
  have refines := Furnished.hands_back furnished regular_landing valid quiet rfl apart {} handsBack
  obtain ⟨last, halts, seven⟩ := run_landing former.again.world
  obtain ⟨least, ends⟩ := refines.halts halts
  refine ⟨former.again, furnished, least, fun fuel atLeast => ?_⟩
  obtain ⟨session, ended, alike⟩ := ends fuel atLeast
  exact ⟨session, ended, (alike.regs (.int 0)).symm.trans seven⟩

/-- Branches to address 0, where there is code. -/
def leaping : Guest.Program :=
  .ofList [⟨.b, 0x1000, [], some 0, 4⟩, ⟨.movz, 0, [0, 9], none, 4⟩, ⟨.ret, 4, [], none, 4⟩]

theorem blocks_leaping : leaping.block 0x1000 = .ok ⟨0x1000, [⟨.b, 0x1000, [], some 0, 4⟩]⟩ ∧
    leaping.graph (fun _ => false) 0x1000 = .ok ⟨[⟨0x1000, [⟨.b, 0x1000, [], some 0, 4⟩]⟩,
      ⟨0, [⟨.movz, 0, [0, 9], none, 4⟩, ⟨.ret, 4, [], none, 4⟩]⟩]⟩ := by
  have at?_leaping : ∀ address, leaping.at? address = if 4 = address then some ⟨.ret, 4, [], none, 4⟩
      else if 0 = address then some ⟨.movz, 0, [0, 9], none, 4⟩
      else if 0x1000 = address then some ⟨.b, 0x1000, [], some 0, 4⟩ else none := by
    simp [leaping, Guest.Program.ofList, Guest.Program.at?, Std.TreeMap.getElem?_insert]
  have size : leaping.size = 3 := by
    simp [leaping, Guest.Program.ofList, Guest.Program.size, Std.TreeMap.size_insert]
  have scripted : leaping.contains 0 = true := Guest.Program.contains_of_at? (by rw [at?_leaping]; rfl)
  have first : leaping.block 0x1000 = .ok ⟨0x1000, [⟨.b, 0x1000, [], some 0, 4⟩]⟩ := by
    simp [Guest.Program.block, Guest.Program.run, size, at?_leaping, Guest.Instruction.endsBlock, Guest.Form.flow,
      Guest.Flow.endsBlock]
  have second : leaping.block 0 = .ok ⟨0, [⟨.movz, 0, [0, 9], none, 4⟩, ⟨.ret, 4, [], none, 4⟩]⟩ := by
    simp [Guest.Program.block, Guest.Program.run, size, at?_leaping, Guest.Instruction.endsBlock, Guest.Form.flow,
      Guest.Flow.endsBlock, Guest.Instruction.next]
  refine ⟨first, ?_⟩
  simp [Guest.Program.graph, Guest.Program.explore, size, first, second, scripted, Guest.Block.successors,
    Guest.Instruction.successors, Guest.Form.flow, bind, Except.bind, pure, Except.pure, Except.map, List.eraseDups_cons]

/-- Code of the one tier hands control back where code of the other runs what is at 0. -/
theorem tiers_differ_leaping : ∃ block graph low high,
    leaping.block 0x1000 = .ok block ∧ leaping.graph (fun _ => false) 0x1000 = .ok graph ∧
      ({} : Builder).build (fun _ => false) 0x1000 (.single block) .tier0 "Sub" = .ok low ∧
      ({} : Builder).build (fun _ => false) 0x1000 graph .tier1 "Sub" = .ok high ∧
      (∃ fuel left, invoke {} fuel low.subroutine {} = .ok (0, left) ∧ left.regs.read (.int 0) = 0) ∧
      ∃ fuel left, invoke {} fuel high.subroutine {} = .ok (0, left) ∧ left.regs.read (.int 0) = 9 := by
  obtain ⟨isBlock, isGraph⟩ := blocks_leaping
  let block : Guest.Block := ⟨0x1000, [⟨.b, 0x1000, [], some 0, 4⟩]⟩
  let graph : Guest.Graph := ⟨[block, ⟨0, [⟨.movz, 0, [0, 9], none, 4⟩, ⟨.ret, 4, [], none, 4⟩]⟩]⟩
  have alone : (Guest.Graph.single block).Sound := by decide
  have sound : graph.Sound := by decide
  obtain ⟨low, early, made, builds, tier, _⟩ := Builder.build_ok {} (fun _ => false) 0x1000 .tier0 "Sub"
    (Builder.accepts_of_sound (by decide) alone)
  obtain ⟨high, late, madeToo, buildsToo, tierToo, _⟩ := Builder.build_ok {} (fun _ => false) 0x1000 .tier1 "Sub"
    (Builder.accepts_of_sound (by decide) sound)
  refine ⟨block, graph, low, high, isBlock, isGraph, made, madeToo, ?_, ?_⟩
  · have ran : runGraph (.single block) .tier0 low.subroutine.linksTo (link {} (exec {} 0)) 1 0x1000 {} =
        .ok (0, {}) := rfl
    rw [← tier] at ran
    obtain ⟨fuel, other, invoked, agree⟩ := builds.arrives alone rfl ran
    exact ⟨fuel, other, invoked, agree (.int 0)⟩
  · obtain ⟨left, ran, nine⟩ : ∃ left, runGraph graph .tier1 high.subroutine.linksTo (link {} (exec {} 0)) 2 0x1000
        {} = .ok (0, left) ∧ left.regs.read (.int 0) = 9 := ⟨_, rfl, by decide⟩
    rw [← tierToo] at ran
    obtain ⟨fuel, other, invoked, agree⟩ := buildsToo.arrives sound rfl ran
    exact ⟨fuel, other, invoked, (agree (.int 0)).trans nine⟩

end Engine
end Dynarec
