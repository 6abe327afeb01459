import Dynarec.Config
import Dynarec.Ir.Op
import Dynarec.Memory
import Dynarec.Profile.Opcode
import Dynarec.Subroutine.Promotion

/-!
Events worth a line in the log. A line has a level, a message and the event's fields; text fields that name
things stand as they are, numbers are decimal.
-/
namespace Dynarec

inductive Event
  | mapped (address physical size : UInt64)
  | fault (fault : Fault)
  | built (address : UInt64) (tier : Tier) (name : String) (blocks params generated : Nat) (backend : Backend)
  | bulky (function : String) (address : UInt64) (opcode : Profile.OpcodeKey) (generated threshold : Nat)
  | bulkyOp (op : Ir.Op) (index : Nat)
  | published (address : UInt64) (sizeHint : UInt64) (replaced : Bool)
  | kept (address : UInt64)
  | linkDepth (target : UInt64) (depth : Nat)
  | marshalled (address : UInt64) (name : String) (args : Nat)
  | ready (config : Config)
  | tier0Compiled (address : UInt64) (ops : Nat)
  | tier1Compiled (address : UInt64) (blocks generated marked : Nat)
  | executed (address next : UInt64) (tier : Tier)
  | unknownBackend (value : String) (kept : Backend)
  deriving DecidableEq, Repr, Inhabited

namespace Event

inductive Level
  | trace | debug | warn
  deriving DecidableEq, Repr

def Level.name : Level → String
  | .trace => "TRACE" | .debug => "DEBUG" | .warn => "WARN"

def level : Event → Level
  | .mapped .. | .built .. | .bulkyOp .. | .marshalled .. | .ready .. | .tier0Compiled ..
  | .tier1Compiled .. => .debug
  | .fault .. | .published .. | .kept .. | .linkDepth .. | .executed .. => .trace
  | .bulky .. | .unknownBackend .. => .warn

def message : Event → String
  | .mapped .. => "mapped guest range"
  | .fault .. => "guest memory fault"
  | .built .. => "built subroutine"
  | .bulky .. => "instruction generated an unusually large amount of code"
  | .bulkyOp op _ => "  " ++ op.render
  | .published .. => "published subroutine"
  | .kept .. => "tier1 entry kept over late tier0 build"
  | .linkDepth .. => "link depth exhausted"
  | .marshalled .. => "marshalled host function"
  | .ready .. => "translator ready"
  | .tier0Compiled .. => "tier0 compiled"
  | .tier1Compiled .. => "tier1 compiled"
  | .executed .. => "executed"
  | .unknownBackend _ current => "unknown ARMADA_JIT_BACKEND, keeping " ++ current.title

def quotedBackend (backend : Backend) : String := "\"" ++ backend.name ++ "\""

def fields : Event → List (String × String)
  | .mapped address physical size =>
    [("address", toString address), ("physical", toString physical), ("size", toString size)]
  | .fault access =>
    [("address", toString access.address), ("len", toString access.size), ("write", toString access.write)]
  | .built address tier name blocks params generated backend =>
    [("address", toString address), ("tier", tier.name), ("name", name), ("blocks", toString blocks),
      ("params", toString params), ("generated_ops", toString generated),
      ("backend", quotedBackend backend)]
  | .bulky function address opcode generated threshold =>
    [("function", function), ("address", toString address), ("opcode", opcode.render),
      ("generated", toString generated), ("threshold", toString threshold)]
  | .bulkyOp _ index => [("index", toString index)]
  | .published address sizeHint replaced =>
    [("address", toString address), ("size_hint", toString sizeHint), ("replaced", toString replaced)]
  | .kept address => [("address", toString address)]
  | .linkDepth target depth => [("target", toString target), ("depth", toString depth)]
  | .marshalled address name args =>
    [("address", toString address), ("name", name), ("args", toString args)]
  | .ready config =>
    [("backend", quotedBackend config.backend), ("tier1_threshold", toString config.threshold),
      ("introspection", toString config.introspection), ("cpu_trace", toString config.trace)]
  | .tier0Compiled address ops => [("address", toString address), ("ops", toString ops)]
  | .tier1Compiled address blocks generated marked =>
    [("address", toString address), ("blocks", toString blocks), ("generated_ops", toString generated),
      ("callers_marked", toString marked)]
  | .executed address next tier =>
    [("address", toString address), ("next", toString next), ("tier", tier.name)]
  | .unknownBackend value _ => [("value", value)]

def render (event : Event) : String :=
  event.level.name ++ " " ++ event.message
    ++ String.join (event.fields.map fun (field, value) => " | " ++ field ++ "=" ++ value)

end Event
end Dynarec
