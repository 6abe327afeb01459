import Dynarec.Event
import Dynarec.Memory.Access
import Dynarec.Memory.Atomic
import Dynarec.Memory.Dirty
import Dynarec.Memory.Mapping

/-!
What running code can touch beside its registers: guest memory, the run flag of the thread it runs for, and a
count that host code may advance. Every fault of the memory and every other event is added to one log.
-/
namespace Dynarec

structure World where
  memory : Memory := {}
  /-- Cleared to stop the thread at the end of the subroutine it is in. -/
  running : Bool := true
  count : UInt64 := 0
  log : Array Event := #[]
  deriving Inhabited

namespace World

def note (world : World) (event : Event) : World := { world with log := world.log.push event }

def noteAll (world : World) (events : List Event) : World := { world with log := world.log ++ events }

/-- Uses the memory and logs the faults that the use added. -/
def access {α : Type} (world : World) (use : Memory → α × Memory) : α × World :=
  match world with
  | ⟨memory, running, count, log⟩ =>
    let before := memory.faults.size
    let (result, memory) := use memory
    let faults := memory.faults.extract before memory.faults.size
    (result, ⟨memory, running, count, log ++ faults.map Event.fault⟩)

def read (world : World) (address : UInt64) (size : Nat) : Except Overflow (List UInt8) × World :=
  world.access fun memory => memory.read address size

def readNat (world : World) (address : UInt64) (size : Nat) : Except Overflow Nat × World :=
  world.access fun memory => memory.readNat address size

def write (world : World) (address : UInt64) (bytes : List UInt8) : World :=
  (world.access fun memory => ((), memory.write address bytes)).2

def writeNat (world : World) (address : UInt64) (size n : Nat) : World :=
  (world.access fun memory => ((), memory.writeNat address size n)).2

def compareAndSwap (world : World) (address : UInt64) (expected desired : UInt32) : Bool × World :=
  world.access fun memory => memory.compareAndSwap address expected desired

def map (world : World) (address physical size : UInt64) : Except Memory.MapError Unit × World :=
  match (Memory.map address physical size).run world.memory with
  | (.ok (), memory) => (.ok (), { world with memory }.note (.mapped address physical size))
  | (.error error, memory) => (.error error, { world with memory })

def unmap (world : World) (address size : UInt64) : Except Memory.MapError Unit × World :=
  let (result, memory) := (Memory.unmap address size).run world.memory
  (result, { world with memory })

/-- Takes the events logged so far. -/
def drain (world : World) : List Event × World := (world.log.toList, { world with log := #[] })

end World
end Dynarec
