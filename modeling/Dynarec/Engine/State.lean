import Dynarec.Builder
import Dynarec.Engine.Failure
import Dynarec.Engine.Subscriber
import Dynarec.Guest.Program
import Dynarec.Machine
import Dynarec.Thread

/-!
What an engine holds: its configuration, the program it translates, the machine its code runs on, and what it
has counted. A session is an engine with the one thread that runs on it.
-/
namespace Dynarec

structure Stats where
  tier0Compiles : Nat := 0
  tier1Compiles : Nat := 0
  /-- Dispatches that found an entry. -/
  cacheHits : Nat := 0
  /-- Subroutines run by dispatches. -/
  executions : Nat := 0
  /-- Callers marked after tier-1 builds. -/
  notifications : Nat := 0
  deriving DecidableEq, Repr, Inhabited

/-- What was asked of the decoder. -/
structure Decodes where
  blocks : Nat := 0
  graphs : Nat := 0
  /-- Modes that blocks were asked for in. -/
  modes : List Mode := []
  deriving DecidableEq, Repr, Inhabited

/-- Runs of other threads, to take place when the block at an address is first asked for. -/
structure Rivals where
  address : UInt64
  runs : Nat
  deriving DecidableEq, Repr, Inhabited

structure Engine where
  config : Config
  program : Guest.Program
  /-- The registers that builds take to be live where a graph is entered. -/
  liveIn : Guest.Graph → LiveIn
  machine : Machine
  tables : Option Profile.Tables := none
  stats : Stats := {}
  decodes : Decodes := {}
  subscribers : List Subscriber := []
  /-- Functions translated so far, those that failed the check too. -/
  handed : Array Ir.Function := #[]
  rivals : Option Rivals := none
  deriving Inhabited

namespace Engine

def start (config : Config) (program : Guest.Program) (liveIn : Guest.Graph → LiveIn) (world : World) : Engine :=
  let config := config.normalized
  { config, program, liveIn
    machine := { world := world.note (.ready config) }
    tables := if config.introspection then some {} else none }

def cache (engine : Engine) : Cache := engine.machine.cache

def world (engine : Engine) : World := engine.machine.world

def setWorld (engine : Engine) (world : World) : Engine :=
  { engine with machine := { engine.machine with world } }

def note (engine : Engine) (event : Event) : Engine := { engine with machine := engine.machine.note event }

def isRunning (engine : Engine) : Bool := engine.world.running

def setRunning (engine : Engine) (running : Bool) : Engine := engine.setWorld { engine.world with running }

/-- The engine with a new thread in place of the one it ran. -/
def renewThread (engine : Engine) : Engine :=
  { engine.setRunning true with subscribers := engine.subscribers.map Subscriber.outlive }

def subscribe (engine : Engine) (subscriber : Subscriber) : Engine :=
  { engine with subscribers := engine.subscribers ++ [subscriber] }

def builder (engine : Engine) : Builder :=
  { liveIn := engine.liveIn
    backend := engine.config.backend
    bulk := engine.config.bulk
    threshold := engine.config.threshold }

def registerHost (engine : Engine) (address : UInt64) (function : Calling.HostFunction) :
    Except ExecError Engine :=
  match Subroutine.thunk address function with
  | .error cause => .error (.arguments cause)
  | .ok thunk =>
    let machine := engine.machine.note (.marshalled address function.name function.signature.params.length)
    .ok { engine with machine := machine.addAt address thunk 0 }

/-- Asks for a rebuild of the entry at an address; yields its stage when there is an entry. -/
def mark (engine : Engine) (address : UInt64) : Option Stage × Engine :=
  match engine.cache.handle? address with
  | none => (none, engine)
  | some handle =>
    let engine := { engine with
      machine := { engine.machine with cache := engine.machine.cache.markForRejit handle } }
    ((engine.cache.subroutine? handle).map (·.promotion.stage), engine)

def addresses (list : List UInt64) : String :=
  "[" ++ ",".intercalate (list.map fun address => Text.hex address.toNat) ++ "]"

/-- One line about the entry at an address: its code, its promotion, the addresses it calls in place and those that call
it. Calls in place are looked for among the addresses `known`. -/
def summary? (engine : Engine) (known : List UInt64) (address : UInt64) : Option String := do
  let slot ← engine.cache.slot? address
  let subroutine ← engine.cache.subroutine? slot.handle
  let promotion := subroutine.promotion
  return s!"{Text.hex address.toNat} {subroutine.tier.name} {promotion.stage.name} n={promotion.dispatches}"
    ++ s!" ops={subroutine.generatedOps} hint={slot.sizeHint} links={addresses (known.filter subroutine.linksTo)}"
    ++ s!" callers={addresses (engine.cache.callersOf address)}"

end Engine

structure Session where
  engine : Engine
  cpu : Cpu := {}
  deriving Inhabited

end Dynarec
