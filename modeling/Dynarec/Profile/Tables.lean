import Dynarec.Profile.Opcode
import Dynarec.Profile.Subroutine
import Std.Data.HashMap

/-!
The profiling tables of an engine: one profile per kind of instruction, one record per subroutine address.
-/
namespace Dynarec.Profile

structure Tables where
  opcodes : Std.HashMap OpcodeKey OpcodeProfile := ∅
  subroutines : Std.HashMap UInt64 SubroutineTimes := ∅
  deriving Inhabited

namespace Tables

def trackOpcode (tables : Tables) (key : OpcodeKey) (time size : Nat) : Tables :=
  { tables with opcodes := tables.opcodes.insert key ((tables.opcodes.getD key {}).record time size) }

/-- The first observation of an address counts as one execution, whatever count it carries. -/
def trackSubroutine (tables : Tables) (address : UInt64) (observation : SubroutineTimes) : Tables :=
  let times := match tables.subroutines[address]? with
    | some times => times.merge observation
    | none => { observation with count := 1 }
  { tables with subroutines := tables.subroutines.insert address times }

/-- Nothing that was tracked is kept. -/
def reset (_ : Tables) : Tables := {}

def opcode? (tables : Tables) (key : OpcodeKey) : Option OpcodeProfile := tables.opcodes[key]?

def subroutine? (tables : Tables) (address : UInt64) : Option SubroutineTimes :=
  tables.subroutines[address]?

/-- Profiles in the order of their keys' texts. -/
def sortedOpcodes (tables : Tables) : List (String × OpcodeProfile) :=
  (tables.opcodes.toList.map fun (key, profile) => (key.render, profile)).mergeSort fun left right =>
    left.1 ≤ right.1

/-- Records in the order of their addresses. -/
def sortedSubroutines (tables : Tables) : List (UInt64 × SubroutineTimes) :=
  tables.subroutines.toList.mergeSort fun left right => left.1 ≤ right.1

end Tables
end Dynarec.Profile
