import Dynarec.Engine.Translation
import Dynarec.Proofs.Effect

/-!
What translating an address does to an engine, exactly. A failure is seen in what was asked of the decoder and in what
was handed on alone; a success takes the code in and publishes it.
-/
namespace Dynarec
namespace Engine
open Effect

/-- Tier-0 code for an address, with its graph. -/
def tier0Build (engine : Engine) (address : UInt64) : Except TranslationError (Guest.Graph × Build) := do
  let block ← engine.program.block address
  let build ← engine.builder.build engine.cache.holdsTier1 address (.single block) .tier0 (Subroutine.nameOf address)
  return (.single block, build)

/-- Tier-1 code for an address, with its graph. -/
def tier1Build (engine : Engine) (address : UInt64) : Except TranslationError (Guest.Graph × Build) := do
  let graph ← engine.program.graph engine.cache.contains address
  let build ← engine.builder.build engine.cache.holdsTier1 address graph .tier1 (Subroutine.nameOf address)
  return (graph, build)

/-- An engine that has taken a build in, which is not published yet. -/
def taken (engine : Engine) (build : Build) (handed : Array Ir.Function) : Engine :=
  { engine with
    handed
    tables := engine.tables.map (·.trackSpans build.spans)
    machine := ⟨(engine.cache.add build.subroutine).2, engine.world.noteAll build.events⟩ }

/-- An engine that has published tier-0 code where there was none. -/
def settledTier0 (engine : Engine) (address : UInt64) (handle : Handle) (size : Nat) : Engine :=
  { engine with
    machine := (engine.machine.publish address handle (.ofNat size)).2
    stats := { engine.stats with tier0Compiles := engine.stats.tier0Compiles + 1 } }.note (.tier0Compiled address size)

/-- An engine that has published tier-1 code and told the callers. -/
def settledTier1 (engine : Engine) (address : UInt64) (handle : Handle) (graph : Guest.Graph)
    (subroutine : Subroutine) : Engine :=
  let machine := (engine.machine.publish address handle (.ofNat subroutine.generatedOps)).2
  let marked := machine.cache.markCallers address
  { engine with
    machine := { machine with cache := marked.2 }
    stats := { engine.stats with
      tier1Compiles := engine.stats.tier1Compiles + 1
      notifications := engine.stats.notifications + marked.1 } }.note
    (.tier1Compiled address graph.blocks.length subroutine.generatedOps marked.1)

theorem run_translated {α : Type} (address : UInt64) (result : Except TranslationError α) (engine : Engine) :
    (translated address result).run engine =
      (result.mapError fun cause => .error (.translate address cause), engine) := by
  cases result <;> rfl

variable (engine : Engine) (address : UInt64)

theorem run_build_eq (graph : Guest.Graph) (tier : Tier) :
    ∃ handed, (Engine.build address graph tier).run engine =
      match engine.builder.build engine.cache.holdsTier1 address graph tier (Subroutine.nameOf address) with
      | .error cause => (.error (.error (.translate address cause)), { engine with handed })
      | .ok build =>
        (.ok ((engine.cache.add build.subroutine).1, build.subroutine), engine.taken build handed) := by
  unfold Engine.build Builder.build
  rw [run_bind, run_get]
  dsimp only
  rw [run_bind, run_translated]
  cases engine.builder.translate engine.cache.holdsTier1 graph tier (Subroutine.nameOf address) with
  | error cause => exact ⟨engine.handed, rfl⟩
  | ok emitted =>
    refine ⟨engine.handed.push emitted.function, ?_⟩
    simp only [mapError_ok]
    rw [run_bind, run_modify]
    dsimp only
    rw [run_bind, run_translated]
    change _ = match engine.builder.assemble address graph tier emitted with
      | .error cause => _
      | .ok build => _
    cases engine.builder.assemble address graph tier emitted <;> rfl

theorem publishTier0_missing (machine : Machine) {address : UInt64} (missing : machine.cache.handle? address = none)
    (handle : Handle) (sizeHint : UInt64) : machine.publishTier0 address handle sizeHint =
      (handle, (machine.publish address handle sizeHint).2) := by
  unfold Machine.publishTier0 Cache.publishTier0
  rw [missing]
  rfl

variable {engine address}

theorem run_compileTier0_eq (missing : engine.cache.handle? address = none) {disturb : UInt64 → Engine → Engine}
    (quiet : disturb address engine = engine) (mode : Mode) :
    ∃ decodes handed, (compileTier0 disturb mode address).run engine = match engine.tier0Build address with
      | .error cause => (.error (.error (.translate address cause)), { engine with decodes, handed })
      | .ok (graph, build) =>
        (.ok ((engine.cache.add build.subroutine).1, { tier0 := some 0, backend := some 0 }),
          (({ engine with decodes } : Engine).taken build handed).settledTier0 address
            (engine.cache.add build.subroutine).1 graph.size) := by
  let decoded : Engine := { engine with
    decodes := { engine.decodes with
      blocks := engine.decodes.blocks + 1
      modes := engine.decodes.modes.insert mode } }
  unfold compileTier0 decodeBlock tier0Build
  rw [run_bind, run_modify, quiet]
  dsimp only
  rw [run_bind, run_bind, run_modify]
  dsimp only
  rw [run_bind, run_get]
  dsimp only
  rw [run_translated]
  cases engine.program.block address with
  | error cause => exact ⟨decoded.decodes, engine.handed, rfl⟩
  | ok block =>
    obtain ⟨handed, ran⟩ := decoded.run_build_eq address (.single block) .tier0
    refine ⟨decoded.decodes, handed, ?_⟩
    simp only [mapError_ok]
    rw [run_bind, ran]
    change _ = match (do
        let build ← decoded.builder.build decoded.cache.holdsTier1 address (.single block) .tier0
          (Subroutine.nameOf address)
        return (.single block, build) : Except TranslationError (Guest.Graph × Build)) with
      | .error cause => _
      | .ok (graph, build) => _
    cases decoded.builder.build decoded.cache.holdsTier1 address (.single block) .tier0 (Subroutine.nameOf address) with
    | error cause => rfl
    | ok build =>
      have published := publishTier0_missing (decoded.taken build handed).machine missing
        (decoded.cache.add build.subroutine).1 (.ofNat (Guest.Graph.single block).size)
      dsimp only
      rw [run_bind, run_modifyGet]
      dsimp only
      rw [published, if_neg (not_not_intro rfl)]
      rfl

theorem run_compileTier1_eq (engine : Engine) (address : UInt64) :
    ∃ decodes handed, (compileTier1 address).run engine = match engine.tier1Build address with
      | .error cause => (.error (.error (.translate address cause)), { engine with decodes, handed })
      | .ok (graph, build) =>
        (.ok build.subroutine, (({ engine with decodes } : Engine).taken build handed).settledTier1 address
          (engine.cache.add build.subroutine).1 graph build.subroutine) := by
  let decoded : Engine := { engine with decodes := { engine.decodes with graphs := engine.decodes.graphs + 1 } }
  unfold compileTier1 decodeGraph tier1Build
  rw [run_bind, run_bind, run_modify]
  dsimp only
  rw [run_bind, run_get]
  dsimp only
  rw [run_translated]
  have same : decoded.cache = engine.cache := rfl
  rw [same]
  cases engine.program.graph engine.cache.contains address with
  | error cause => exact ⟨decoded.decodes, engine.handed, rfl⟩
  | ok graph =>
    obtain ⟨handed, ran⟩ := decoded.run_build_eq address graph .tier1
    refine ⟨decoded.decodes, handed, ?_⟩
    simp only [mapError_ok]
    rw [run_bind, ran]
    change _ = match (do
        let build ← decoded.builder.build decoded.cache.holdsTier1 address graph .tier1 (Subroutine.nameOf address)
        return (graph, build) : Except TranslationError (Guest.Graph × Build)) with
      | .error cause => _
      | .ok (graph, build) => _
    cases decoded.builder.build decoded.cache.holdsTier1 address graph .tier1 (Subroutine.nameOf address) <;> rfl

end Engine
end Dynarec
