import Dynarec.Proofs.Builder
import Dynarec.Proofs.Compilation.Simulation

/-!
What is built of a graph runs as the graph does, from the registers and the memory it is given to those it leaves.
-/
namespace Dynarec
open Ir Semantics Interpreter Outcome

/-- Behind the prologue stands the first block's code. -/
theorem Emission.Lays.starts {emission : Emission} {graph : Guest.Graph} (lays : emission.Lays graph)
    {block : Guest.Block} {others : List Guest.Block} (first : graph.blocks = block :: others) (context : Context)
    (small : (emission.params.flatMap context.regs.words).length < 2 ^ 32) :
    ∃ count frame, Glide emission.finish.function (emission.params.flatMap context.regs.words) count
        (.start emission.finish.function) context frame context ∧ emission.AtBlock frame context block context := by
  obtain ⟨loads, codes, takes, split, blocks⟩ := lays.code
  rw [first] at blocks
  cases blocks with
  | @cons _ added _ later code _ =>
    have shape : emission.finish.function.ops.toList =
        [] ++ (loads ++ Expansion.expand emission.bindings [.preload]) ++
          Expansion.expand emission.bindings (added ++ later.flatten) := by
      change Expansion.expand emission.bindings emission.ops.toList = _
      have parts : loads ++ .preload :: (added :: later).flatten =
          loads ++ ([.preload] ++ (added ++ later.flatten)) := by simp
      rw [split, parts, Expansion.expand_append, Expansion.expand_append, takes.unexpanded]
      simp
    have shapeToo : emission.finish.function.ops.toList =
        (loads ++ Expansion.expand emission.bindings [.preload]) ++ Expansion.expand emission.bindings added ++
          Expansion.expand emission.bindings later.flatten := by
      rw [shape, Expansion.expand_append]
      simp
    obtain ⟨frame, glides, position, tracks⟩ := Emission.glide_prologue lays.allotted rfl lays.given context
      small takes (Function.holds_of_eq shape) block.address
    have holds := Function.holds_of_eq shapeToo
    rw [← position] at holds
    exact ⟨_, frame, glides, added, code, holds, tracks, rfl⟩

namespace Builder

theorem accepts_of_sound {builder : Builder} {graph : Guest.Graph} (valid : (builder.liveIn graph).vector.toNat < 2 ^ 32)
    (sound : graph.Sound) : builder.Accepts graph where
  liveIn := valid
  named instruction member := by
    obtain ⟨block, inside, own⟩ := List.mem_flatMap.mp member
    exact (sound.straight block inside).named instruction own
  nonempty := sound.nonempty
  distinct := sound.distinct

variable {subroutine : Subroutine} {graph : Guest.Graph} {emission : Emission}

theorem Codes.links (codes : Codes subroutine graph emission) : emission.Links graph subroutine.linksTo := by
  intro target member
  rw [codes.linked]
  simp [member]

theorem Codes.starts (codes : Codes subroutine graph emission) (sound : graph.Sound) {entry : UInt64}
    (enters : graph.entry? = some entry) (context : Context) :
    ∃ block ∈ graph.blocks, block.address = entry ∧ ∃ count frame, emission.AtBlock frame context block context ∧
      ∀ cache fuel, invoke cache fuel subroutine context = exec cache (fuel - count)
        (.compiled emission.finish.function (emission.params.flatMap context.regs.words) frame) context := by
  obtain ⟨block, head, address⟩ := Option.map_eq_some_iff.mp enters
  obtain ⟨others, first⟩ := List.head?_eq_some_iff.mp head
  have words := context.regs.length_words_le emission.params
  have few := codes.few
  obtain ⟨count, frame, glides, atBlock⟩ := (codes.laid.lays sound).starts first context (by omega)
  refine ⟨block, by simp [first], address, count, frame, atBlock, ?_⟩
  intro cache fuel
  rw [← glides.exec cache fuel]
  unfold invoke Subroutine.activate Subroutine.arguments
  rw [codes.code, codes.params]

theorem Codes.below_runGraph (codes : Codes subroutine graph emission) (sound : graph.Sound) {entry : UInt64}
    (enters : graph.entry? = some entry) (cache : Cache) {fuel calls : Nat} (few : fuel ≤ calls + 1)
    (context : Context) :
    Below Arrival.Agree (invoke cache fuel subroutine context)
      (runGraph graph emission.tier subroutine.linksTo (link cache (exec cache calls)) (fuel + 1) entry context) := by
  obtain ⟨block, member, rfl, count, frame, atBlock, starts⟩ := codes.starts sound enters context
  rw [starts]
  exact Emission.exec_below_runGraph (codes.laid.lays sound) sound codes.links (by omega) (by omega) member atBlock

theorem Codes.above_runGraph (codes : Codes subroutine graph emission) (sound : graph.Sound) {entry : UInt64}
    (enters : graph.entry? = some entry) (cache : Cache) (calls fuel : Nat) (context : Context) :
    ∃ bound, Below Arrival.Agree
      (runGraph graph emission.tier subroutine.linksTo (link cache (exec cache calls)) fuel entry context)
      (invoke cache bound subroutine context) := by
  obtain ⟨block, member, rfl, count, frame, atBlock, starts⟩ := codes.starts sound enters context
  obtain ⟨bound, below⟩ :=
    Emission.runGraph_below_exec (codes.laid.lays sound) sound codes.links calls fuel member atBlock
  refine ⟨bound + count, ?_⟩
  rw [starts, Nat.add_sub_cancel]
  exact below

/-- Where a graph arrives its code does, and leaves the registers the same. -/
theorem Codes.arrives (codes : Codes subroutine graph emission) (sound : graph.Sound) {entry : UInt64}
    (enters : graph.entry? = some entry) {cache : Cache} {calls fuel : Nat} {context left : Context} {next : UInt64}
    (ran : runGraph graph emission.tier subroutine.linksTo (link cache (exec cache calls)) fuel entry context =
      .ok (next, left)) :
    ∃ bound other, invoke cache bound subroutine context = .ok (next, other) ∧ other.regs.Agree left.regs := by
  obtain ⟨bound, below⟩ := codes.above_runGraph sound enters cache calls fuel context
  rw [ran] at below
  obtain ⟨⟨_, other⟩, invoked, rfl, agree⟩ := (below (by simp)).symm.of_ok
  exact ⟨bound, other, invoked, agree.regs⟩

/-- Sound graphs are built, and what is built comes to what its graph comes to. -/
theorem build_runs_graph (builder : Builder) {graph : Guest.Graph} (valid : (builder.liveIn graph).vector.toNat < 2 ^ 32)
    (sound : graph.Sound) {entry : UInt64} (enters : graph.entry? = some entry) (linkable : UInt64 → Bool)
    (address : UInt64) (tier : Tier) (name : String) :
    ∃ build, builder.build linkable address graph tier name = .ok build ∧
      (∀ target, build.subroutine.linksTo target = true ↔
        target ∈ graph.callees ∧ tier = .tier1 ∧ linkable target = true) ∧
      ∀ cache context result, result ≠ .error .outOfFuel →
        ((∃ fuel, Outcome.Agree Arrival.Agree (invoke cache fuel build.subroutine context) result) ↔
          ∃ fuel, Outcome.Agree Arrival.Agree
            (runGraph graph tier build.subroutine.linksTo (link cache (exec cache fuel)) fuel entry context) result) := by
  obtain ⟨build, emission, made, builds, rfl, rfl⟩ := builder.build_ok linkable address tier name (accepts_of_sound valid sound)
  refine ⟨build, made, builds.linked, ?_⟩
  intro cache context result bounded
  constructor
  · rintro ⟨fuel, same⟩
    have below := builds.below_runGraph sound enters cache (Nat.le_add_right fuel 2) context
    exact ⟨fuel + 1, (below (mt same.bounded.mp bounded)).symm.trans same⟩
  · rintro ⟨fuel, same⟩
    obtain ⟨bound, below⟩ := builds.above_runGraph sound enters cache fuel fuel context
    exact ⟨bound, (below (mt same.bounded.mp bounded)).symm.trans same⟩

/-- Counts `x0` down to zero and falls out. -/
def countdown : Guest.Graph where
  blocks := [⟨0x1000, [⟨.subImm, 0x1000, [0, 0, 1], none, 4⟩, ⟨.cbnz, 0x1004, [0], some 0x1000, 4⟩]⟩]

theorem runGraph_countdown (links : UInt64 → Bool) :
    (runGraph countdown .tier1 links (link {} (exec {} 4)) 4 0x1000
      { regs := ({} : RegisterFile).write (.int 0) 3 }).map
        (fun arrival => (arrival.1, arrival.2.regs.read (.int 0))) = .ok (0x1008, 0) := by
  rfl

theorem build_runs_countdown :
    countdown.Sound ∧ ∃ build, ({} : Builder).build (fun _ => false) 0x1000 countdown .tier1 "Sub" = .ok build ∧
      ∃ fuel left, invoke {} fuel build.subroutine { regs := ({} : RegisterFile).write (.int 0) 3 } =
        .ok (0x1008, left) ∧ left.regs.read (.int 0) = 0 := by
  have sound : countdown.Sound := by decide
  have enters : countdown.entry? = some 0x1000 := rfl
  obtain ⟨build, made, _, runs⟩ :=
    build_runs_graph {} (by decide) sound enters (fun _ => false) 0x1000 .tier1 "Sub"
  have told := runGraph_countdown build.subroutine.linksTo
  cases ran : runGraph countdown .tier1 build.subroutine.linksTo (link {} (exec {} 4)) 4 0x1000
      { regs := ({} : RegisterFile).write (.int 0) 3 } with
  | error halt =>
    rw [ran] at told
    cases told
  | ok arrival =>
    obtain ⟨next, left⟩ := arrival
    rw [ran] at told
    obtain ⟨rfl, zero⟩ : next = 0x1008 ∧ left.regs.read (.int 0) = 0 := Prod.mk.inj (Except.ok.inj told)
    have same : Outcome.Agree Arrival.Agree (.ok (0x1008, left)) (.ok (0x1008, left)) := .ok ⟨rfl, .refl left⟩
    obtain ⟨fuel, reached⟩ := (runs {} _ (.ok (0x1008, left)) (by simp)).mpr ⟨4, by rwa [ran]⟩
    obtain ⟨⟨_, other⟩, invoked, rfl, agree⟩ := reached.of_ok
    exact ⟨sound, build, made, fuel, other, invoked, (agree.regs (.int 0)).trans zero⟩

/-- Two blocks, of which the first returns to the second. -/
def returning : Guest.Graph where
  blocks :=
    [⟨0x1000, [⟨.movz, 0x1000, [30, 0x2000], none, 4⟩, ⟨.ret, 0x1004, [], none, 4⟩]⟩,
      ⟨0x2000, [⟨.movz, 0x2000, [2, 7], none, 4⟩, ⟨.b, 0x2004, [], some 0x9000, 4⟩]⟩]

/-- A return leaves the graph also where control goes to the start of one of its blocks. -/
theorem return_leaves_graph :
    ∃ build, ({} : Builder).build (fun _ => false) 0x1000 returning .tier1 "Sub" = .ok build ∧
      returning.contains 0x2000 = true ∧ ∃ fuel left, invoke {} fuel build.subroutine {} = .ok (0x2000, left) ∧
        left.regs.read (.int 2) = 0 := by
  have sound : returning.Sound := by decide
  obtain ⟨build, emission, made, builds, same, _⟩ :=
    build_ok {} (fun _ => false) 0x1000 .tier1 "Sub" (accepts_of_sound (by decide) sound)
  refine ⟨build, made, by decide, ?_⟩
  obtain ⟨left, ran, zero⟩ : ∃ left, runGraph returning .tier1 build.subroutine.linksTo (link {} (exec {} 0)) 1 0x1000
      {} = .ok (0x2000, left) ∧ left.regs.read (.int 2) = 0 := ⟨_, rfl, by decide⟩
  obtain ⟨fuel, below⟩ := builds.above_runGraph sound rfl {} 0 1 {}
  rw [same, ran] at below
  obtain ⟨⟨_, other⟩, invoked, rfl, agree⟩ := (below (by simp)).symm.of_ok
  exact ⟨fuel, other, invoked, (agree.regs (.int 2)).trans zero⟩

end Builder
end Dynarec
