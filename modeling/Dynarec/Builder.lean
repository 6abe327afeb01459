import Dynarec.Config
import Dynarec.Emission.Instruction
import Dynarec.Event
import Dynarec.Profile.Tables
import Dynarec.Subroutine

/-!
Building subroutines from block graphs: the live-in registers become parameters, the graph is emitted, and the
function is checked before it counts as code.
-/
namespace Dynarec

structure Builder where
  /-- The registers taken to be live where a graph is entered. -/
  liveIn : Guest.Graph → LiveIn := fun _ => .all
  backend : Backend := .interpreter
  /-- Operations of one instruction above which they are reported one by one. -/
  bulk : Nat := ({} : Config).bulk
  /-- Given to the subroutines built. -/
  threshold : Nat := ({} : Config).threshold
  deriving Inhabited

structure Build where
  subroutine : Subroutine
  spans : List Span
  events : List Event
  deriving Inhabited

namespace Builder

def translate (builder : Builder) (linkable : UInt64 → Bool) (graph : Guest.Graph) (tier : Tier)
    (name : String) : Except TranslationError Emitted := do
  let params ← (builder.liveIn graph).registers.mapError .unsupportedRegister
  Emitted.ofGraph name tier graph linkable params

/-- The report on a span: nothing unless it is bulky. -/
def bulkyEvents (builder : Builder) (function : Ir.Function) (span : Span) : List Event :=
  if span.size ≤ builder.bulk then []
  else
    .bulky function.name span.address span.key span.size builder.bulk
      :: ((function.ops.extract span.start span.stop).toList.zipIdx span.start).map fun (op, index) =>
        .bulkyOp op index

def assemble (builder : Builder) (address : UInt64) (graph : Guest.Graph) (tier : Tier) (emitted : Emitted) :
    Except TranslationError Build := do
  let function := emitted.function
  function.validate
  let size := function.ops.size
  let built := .built address tier function.name graph.blocks.length function.params.length size builder.backend
  return {
    subroutine :=
      { entry := address
        name := function.name
        tier
        params := function.params
        code := .compiled function
        callees := emitted.callees
        linked := emitted.linked
        generatedOps := size
        threshold := builder.threshold }
    spans := emitted.spans
    events := emitted.spans.flatMap (builder.bulkyEvents function) ++ [built] }

def build (builder : Builder) (linkable : UInt64 → Bool) (address : UInt64) (graph : Guest.Graph) (tier : Tier)
    (name : String) : Except TranslationError Build := do
  builder.assemble address graph tier (← builder.translate linkable graph tier name)

end Builder

/-- Notes the emission of each instruction. Emission takes no time that is measured. -/
def Profile.Tables.trackSpans (tables : Profile.Tables) (spans : List Span) : Profile.Tables :=
  spans.foldl (fun tables span => tables.trackOpcode span.key 0 span.size) tables

end Dynarec
