import Dynarec.Builder
import Dynarec.Proofs.Effect
import Dynarec.Proofs.Emission.Callees
import Dynarec.Proofs.Emission.Refusal
import Dynarec.Proofs.Emission.Validity
import Dynarec.Proofs.Register.LiveIn

/-!
What a build comes to: guest code of its tier that nothing has been asked of yet, with the calls of its graph; or an
error, which live-in masks with bits of no register, transfers without a target, and a graph with no blocks or two
of one address have.
-/
namespace Dynarec
open Ir

theorem Emitted.ofGraph_ok (name : String) (tier : Tier) {graph : Guest.Graph} (linkable : UInt64 → Bool)
    (params : List Register) (named : ∀ instruction ∈ graph.instructions, instruction.Named) :
    ∃ emission : Emission, Emitted.ofGraph name tier graph linkable params = .ok emission.finish ∧ emission.Laid graph ∧
      emission.name = name ∧ emission.tier = tier ∧ emission.linkable = linkable ∧ emission.params = params := by
  obtain ⟨emission, ran, rest⟩ := Emission.laid_graph name tier graph linkable params
    fun block member instruction inside => named instruction (List.mem_flatMap.mpr ⟨block, member, inside⟩)
  refine ⟨emission, ?_, rest⟩
  rw [Emitted.ofGraph, ran]

theorem Emitted.ofGraph_error (name : String) (tier : Tier) {graph : Guest.Graph} (linkable : UInt64 → Bool)
    (params : List Register) {front rest : List Guest.Instruction} {instruction : Guest.Instruction}
    (split : graph.instructions = front ++ instruction :: rest) (named : ∀ early ∈ front, early.Named)
    (lacks : ¬ instruction.Named) :
    Emitted.ofGraph name tier graph linkable params = .error instruction.lacking := by
  obtain ⟨_, prologue, _⟩ := Emission.adds_start name tier graph linkable params
  have fails := Emit.fails_blocks prologue.allotted (Emission.labelOf name tier graph linkable params)
    (fun _ => Emission.blockLabel?_start name tier graph linkable params) split named lacks
  unfold Emit.Fails at fails
  rw [Emitted.ofGraph]
  rcases ran : (graph.blocks.forM Emit.block).run (Emission.start name tier graph linkable params) with
    ⟨_ | _, emission⟩
  · rw [ran] at fails
    cases fails
    rfl
  · rw [ran] at fails
    cases fails

namespace Builder

/-- A graph that can be built. -/
structure Accepts (builder : Builder) (graph : Guest.Graph) : Prop where
  liveIn : (builder.liveIn graph).vector.toNat < 2 ^ 32
  named : ∀ instruction ∈ graph.instructions, instruction.Named
  nonempty : graph.blocks ≠ []
  distinct : (graph.blocks.map Guest.Block.address).Nodup

/-- Live-in registers of a graph of one block. A graph of more blocks has one that does not exist. -/
def narrow (graph : Guest.Graph) : LiveIn := if graph.blocks.length = 1 then {} else ⟨0, 0x100000000⟩

/-- Why a graph is not built. A later reason counts only where the earlier ones do not hold. -/
inductive Refuses (builder : Builder) (graph : Guest.Graph) (name : String) : TranslationError → Prop
  | stray {bit : Nat} : (builder.liveIn graph).Stray bit → Refuses builder graph name (.unsupportedRegister ⟨bit, .vector⟩)
  | lacking {front rest : List Guest.Instruction} {instruction : Guest.Instruction} :
      (builder.liveIn graph).vector.toNat < 2 ^ 32 → graph.instructions = front ++ instruction :: rest →
        (∀ early ∈ front, early.Named) → ¬ instruction.Named →
          Refuses builder graph name
            (.decode instruction.address s!"{instruction.form.name} without target")
  | flawed {reason : String} : (builder.liveIn graph).vector.toNat < 2 ^ 32 →
      (∀ instruction ∈ graph.instructions, instruction.Named) →
        graph.blocks = [] ∨ ¬ (graph.blocks.map Guest.Block.address).Nodup →
          Refuses builder graph name (.invalidIr name reason)

/-- Guest code of a tier that nothing has been asked of. -/
structure Fresh (subroutine : Subroutine) (tier : Tier) : Prop where
  sameTier : subroutine.tier = tier
  guest : subroutine.isHost = false
  promotion : subroutine.promotion = .start tier

/-- Code that lays a graph out, and calls in place what it could link. -/
structure Codes (subroutine : Subroutine) (graph : Guest.Graph) (emission : Emission) : Prop where
  laid : emission.Laid graph
  code : subroutine.code = .compiled emission.finish.function
  params : subroutine.params = emission.params
  few : emission.params.length ≤ 128
  linked : ∀ address, subroutine.linksTo address = true ↔
    address ∈ graph.callees ∧ emission.tier = .tier1 ∧ emission.linkable address = true

/-- What a build of a graph is: its code, of which nothing has been asked yet, with the calls of the graph. -/
structure Builds (subroutine : Subroutine) (graph : Guest.Graph) (emission : Emission) : Prop
    extends Codes subroutine graph emission where
  fresh : Fresh subroutine emission.tier
  words : emission.argWords = (emission.params.map Register.words).sum
  callees : ∀ address, address ∈ subroutine.callees ↔ address ∈ graph.callees

section
variable (builder : Builder) (linkable : UInt64 → Bool) (address : UInt64) (tier : Tier) (name : String)
  {graph : Guest.Graph}

/-- Code of a graph becomes a subroutine exactly if it passes its check. -/
theorem assemble_ok (graph : Guest.Graph) {emitted : Emitted} (formed : emitted.function.WellFormed) :
    ∃ build, builder.assemble address graph tier emitted = .ok build ∧
      build.subroutine = {
        entry := address
        name := emitted.function.name
        tier
        params := emitted.function.params
        code := .compiled emitted.function
        callees := emitted.callees
        linked := emitted.linked
        generatedOps := emitted.function.ops.size
        threshold := builder.threshold } := by
  unfold assemble
  dsimp only
  rw [(Function.validate_iff _).mpr formed]
  exact ⟨_, rfl, rfl⟩

theorem assemble_error (graph : Guest.Graph) {emitted : Emitted} (flawed : ¬ emitted.function.WellFormed) :
    ∃ reason, builder.assemble address graph tier emitted = .error (.invalidIr emitted.function.name reason) := by
  obtain ⟨flaw, refused⟩ := Function.validate_error flawed
  refine ⟨flaw.reason, ?_⟩
  unfold assemble
  dsimp only
  rw [refused]
  rfl

theorem translate_ok (liveIn : (builder.liveIn graph).vector.toNat < 2 ^ 32)
    (named : ∀ instruction ∈ graph.instructions, instruction.Named) :
    ∃ emission : Emission, builder.translate linkable graph tier name = .ok emission.finish ∧
      Emitted.ofGraph name tier graph linkable emission.params = .ok emission.finish ∧ emission.Laid graph ∧
        emission.name = name ∧ emission.tier = tier ∧ emission.linkable = linkable ∧
          emission.params.length ≤ 128 := by
  obtain ⟨params, live, few⟩ := LiveIn.registers_ok (builder.liveIn graph) liveIn
  obtain ⟨emission, made, laid, sameName, sameTier, sameLinkable, rfl⟩ :=
    Emitted.ofGraph_ok name tier linkable params named
  refine ⟨emission, ?_, made, laid, sameName, sameTier, sameLinkable, few⟩
  unfold translate
  rw [live]
  exact made

theorem build_ok (accepts : builder.Accepts graph) :
    ∃ build emission, builder.build linkable address graph tier name = .ok build ∧
      Builds build.subroutine graph emission ∧ emission.tier = tier ∧ emission.linkable = linkable := by
  obtain ⟨emission, translated, made, laid, sameName, rfl, rfl, few⟩ :=
    builder.translate_ok linkable tier name accepts.liveIn accepts.named
  obtain ⟨built, assembled, shape⟩ := builder.assemble_ok address emission.tier graph
    (laid.wellFormed_iff.mpr ⟨accepts.nonempty, accepts.distinct⟩)
  have calls := Emitted.callees_ofGraph made
  have codes : Codes built.subroutine graph emission := by
    refine ⟨laid, by rw [shape], by rw [shape]; rfl, few, fun callee => ?_⟩
    unfold Subroutine.linksTo
    rw [shape, List.contains_iff_mem]
    exact (calls callee).2
  refine ⟨built, emission, ?_, ⟨codes, ?_, Emitted.argWords_ofGraph made, fun callee => ?_⟩, rfl, rfl⟩
  · unfold build
    rw [translated]
    exact assembled
  · rw [shape]
    exact ⟨rfl, rfl, rfl⟩
  · rw [shape]
    exact (calls callee).1

theorem build_error (rejects : ¬ builder.Accepts graph) :
    ∃ error, builder.build linkable address graph tier name = .error error ∧ builder.Refuses graph name error := by
  by_cases liveIn : (builder.liveIn graph).vector.toNat < 2 ^ 32
  · by_cases named : ∀ instruction ∈ graph.instructions, instruction.Named
    · obtain ⟨emission, translated, _, laid, rfl, _, _, _⟩ := builder.translate_ok linkable tier name liveIn named
      have flawed : graph.blocks = [] ∨ ¬ (graph.blocks.map Guest.Block.address).Nodup := by
        by_contra fine
        obtain ⟨nonempty, distinct⟩ := not_or.mp fine
        exact rejects ⟨liveIn, named, nonempty, not_not.mp distinct⟩
      have unformed : ¬ emission.finish.function.WellFormed := by
        intro formed
        obtain ⟨nonempty, distinct⟩ := laid.wellFormed_iff.mp formed
        exact flawed.elim nonempty fun same => same distinct
      obtain ⟨reason, refused⟩ := builder.assemble_error address tier graph unformed
      refine ⟨.invalidIr emission.name reason, ?_, .flawed liveIn named flawed⟩
      unfold build
      rw [translated]
      exact refused
    · cases found : graph.instructions.find? fun instruction => !decide instruction.Named with
      | none =>
        refine absurd (fun instruction member => ?_) named
        simpa using List.find?_eq_none.mp found instruction member
      | some instruction =>
        obtain ⟨lacks, front, rest, split, early⟩ := List.find?_eq_some_iff_append.mp found
        have lacks : ¬ instruction.Named := by simpa using lacks
        have early : ∀ other ∈ front, other.Named := by simpa using early
        obtain ⟨params, live, _⟩ := LiveIn.registers_ok (builder.liveIn graph) liveIn
        refine ⟨instruction.lacking, ?_, .lacking liveIn split early lacks⟩
        unfold build translate
        rw [live]
        exact congrArg (· >>= _) (Emitted.ofGraph_error name tier linkable params split early lacks)
  · obtain ⟨bit, stray, failed⟩ := (builder.liveIn graph).registers_error liveIn
    refine ⟨_, ?_, .stray stray⟩
    unfold build translate
    rw [failed]
    rfl

end

variable {builder : Builder} {linkable : UInt64 → Bool} {address : UInt64} {graph : Guest.Graph} {tier : Tier}
  {name : String} {build : Build}

/-- What is built was accepted, and lays out its graph. -/
theorem builds_of_build (made : builder.build linkable address graph tier name = .ok build) :
    builder.Accepts graph ∧ ∃ emission, Builds build.subroutine graph emission ∧ emission.tier = tier ∧
      emission.linkable = linkable := by
  by_cases accepts : builder.Accepts graph
  · obtain ⟨other, emission, same, builds⟩ := builder.build_ok linkable address tier name accepts
    obtain rfl : other = build := Except.ok.inj (same.symm.trans made)
    exact ⟨accepts, emission, builds⟩
  · obtain ⟨error, failed, _⟩ := builder.build_error linkable address tier name accepts
    cases failed.symm.trans made

theorem mem_callees_build (made : builder.build linkable address graph tier name = .ok build) (callee : UInt64) :
    callee ∈ build.subroutine.callees ↔ callee ∈ graph.callees := by
  obtain ⟨_, emission, builds, _⟩ := builds_of_build made
  exact builds.callees callee

theorem linksTo_build (made : builder.build linkable address graph tier name = .ok build) (callee : UInt64) :
    build.subroutine.linksTo callee = true ↔ callee ∈ graph.callees ∧ tier = .tier1 ∧ linkable callee = true := by
  obtain ⟨_, emission, builds, rfl, rfl⟩ := builds_of_build made
  exact builds.linked callee

theorem threshold_build (made : builder.build linkable address graph tier name = .ok build) :
    build.subroutine.threshold = builder.threshold := by
  obtain ⟨_, _, assembled⟩ := Effect.of_bind made
  obtain ⟨_, _, whole⟩ := Effect.of_bind assembled
  cases whole
  rfl

theorem fresh_build (made : builder.build linkable address graph tier name = .ok build) :
    Fresh build.subroutine tier := by
  obtain ⟨_, emission, builds, rfl, _⟩ := builds_of_build made
  exact builds.fresh

end Builder
end Dynarec
