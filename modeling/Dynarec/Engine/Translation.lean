import Dynarec.Engine.State

/-!
Finding code for an address. An address without an entry gets tier-0 code of its block; code that is due for
promotion is replaced by tier-1 code of its graph, and the callers of the address that could now call it in
place are marked. A failed translation leaves the cache as it was.
-/
namespace Dynarec

/-- Work of an engine that may fail; what was done by then stays done. -/
abbrev Work := ExceptT Failure (StateM Engine)

namespace Engine

def translated {α : Type} (address : UInt64) : Except TranslationError α → Work α
  | .ok result => pure result
  | .error cause => throw (.error (.translate address cause))

def decodeBlock (mode : Mode) (address : UInt64) : Work Guest.Block := do
  modify fun engine => { engine with
    decodes := { engine.decodes with
      blocks := engine.decodes.blocks + 1
      modes := engine.decodes.modes.insert mode } }
  translated address ((← get).program.block address)

/-- The graph of an address stops at the addresses that have entries. -/
def decodeGraph (address : UInt64) : Work Guest.Graph := do
  modify fun engine => { engine with decodes := { engine.decodes with graphs := engine.decodes.graphs + 1 } }
  let engine ← get
  translated address (engine.program.graph engine.cache.contains address)

/-- Builds code for an address and takes it in; it is not published yet. -/
def build (address : UInt64) (graph : Guest.Graph) (tier : Tier) : Work (Handle × Subroutine) := do
  let engine ← get
  let name := Subroutine.nameOf address
  let emitted ← translated address (engine.builder.translate engine.cache.holdsTier1 graph tier name)
  modify fun engine => { engine with handed := engine.handed.push emitted.function }
  let build ← translated address (engine.builder.assemble address graph tier emitted)
  modifyGet fun engine =>
    let (handle, machine) := engine.machine.add build.subroutine
    ((handle, build.subroutine), { engine with
      machine := { machine with world := machine.world.noteAll build.events }
      tables := engine.tables.map (·.trackSpans build.spans) })

/-- Builds and publishes tier-0 code, unless tier-1 code has been published meanwhile, which `disturb` may have
done. -/
def compileTier0 (disturb : UInt64 → Engine → Engine) (mode : Mode) (address : UInt64) :
    Work (Handle × Profile.SubroutineTimes) := do
  modify (disturb address)
  let block ← decodeBlock mode address
  let graph := Guest.Graph.single block
  let (handle, _) ← build address graph .tier0
  let resident ← modifyGet fun engine =>
    let (resident, machine) := engine.machine.publishTier0 address handle (.ofNat graph.size)
    (resident, { engine with machine })
  if resident ≠ handle then return (resident, {})
  modify fun engine =>
    { engine with stats := { engine.stats with tier0Compiles := engine.stats.tier0Compiles + 1 } }.note
      (.tier0Compiled address graph.size)
  return (handle, { tier0 := some 0, backend := some 0 })

def compileTier1 (address : UInt64) : Work Subroutine := do
  let graph ← decodeGraph address
  let (handle, subroutine) ← build address graph .tier1
  modify fun engine =>
    let machine := (engine.machine.publish address handle (.ofNat subroutine.generatedOps)).2
    let (marked, cache) := machine.cache.markCallers address
    { engine with
      machine := { machine with cache }
      stats := { engine.stats with
        tier1Compiles := engine.stats.tier1Compiles + 1
        notifications := engine.stats.notifications + marked } }.note
      (.tier1Compiled address graph.blocks.length subroutine.generatedOps marked)
  return subroutine

def isDue (handle : Handle) : Work Bool :=
  modifyGet fun engine =>
    let (due, cache) := engine.machine.cache.checkPromotion handle
    (due, { engine with machine := { engine.machine with cache } })

/-- The handle of the code for an address, with the times of its translation if it was translated now. -/
def locate (disturb : UInt64 → Engine → Engine) (mode : Mode) (address : UInt64) :
    Work (Handle × Profile.SubroutineTimes) := do
  match (← get).cache.handle? address with
  | none => compileTier0 disturb mode address
  | some handle =>
    modify fun engine => { engine with stats := { engine.stats with cacheHits := engine.stats.cacheHits + 1 } }
    return (handle, {})

def resolve (disturb : UInt64 → Engine → Engine) (mode : Mode) (address : UInt64) :
    Work (Subroutine × Profile.SubroutineTimes) := do
  let (handle, times) ← locate disturb mode address
  if ← isDue handle then
    let subroutine ← compileTier1 address
    return (subroutine, { times with tier1 := some 0, backend := times.backend.or (some 0) })
  else
    match (← get).cache.subroutine? handle with
    | some subroutine => return (subroutine, times)
    | none => throw (.halt .badIndex)

end Engine
end Dynarec
