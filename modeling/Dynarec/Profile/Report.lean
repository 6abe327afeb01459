import Dynarec.Profile.Tables
import Dynarec.Text.Render

/-!
Ranked reports. Rows are first put in the order of their texts, and each ranking sorts them stably by one
column, largest first, so that ties stay in the order of the texts.
-/
namespace Dynarec.Profile

structure OpcodeRow where
  opcode : String
  occurrences : Nat
  maxSize : Nat
  /-- Mean emission time in nanoseconds. -/
  average : Nat
  deriving DecidableEq, Repr, Inhabited

/-- Times in microseconds. -/
structure SubroutineRow where
  address : UInt64
  tier0 : Option Nat
  tier1 : Option Nat
  /-- Zero when it was never observed. -/
  backend : Nat
  execution : Option Nat
  count : Nat
  deriving DecidableEq, Repr, Inhabited

structure Report where
  byFrequency : List OpcodeRow
  bySize : List OpcodeRow
  byTime : List OpcodeRow
  byBackend : List SubroutineRow
  deriving DecidableEq, Repr, Inhabited

/-- A count as the report's 64-bit columns hold it. -/
def column (n : Nat) : Nat := n % 0x10000000000000000

def microseconds (time : Nat) : Nat := column (time / 1000)

def OpcodeRow.of (key : OpcodeKey) (profile : OpcodeProfile) : Except TimeOverflow OpcodeRow := do
  let average ← profile.average
  return ⟨key.render, profile.occurrences, profile.maxSize, column average⟩

def SubroutineRow.of (address : UInt64) (times : SubroutineTimes) : SubroutineRow where
  address
  tier0 := times.tier0.map microseconds
  tier1 := times.tier1.map microseconds
  backend := (times.backend.map microseconds).getD 0
  execution := times.execution.map microseconds
  count := times.count

/-- Largest value of a column first, ties as they stand. -/
def rankBy (value : OpcodeRow → Nat) (rows : List OpcodeRow) : List OpcodeRow :=
  rows.mergeSort fun left right => value right ≤ value left

namespace Report

/-- The report on table entries that may come in any order. -/
def ofEntries (opcodes : List (OpcodeKey × OpcodeProfile)) (subroutines : List (UInt64 × SubroutineTimes)) :
    Except TimeOverflow Report := do
  let rows ← opcodes.mapM fun (key, profile) => OpcodeRow.of key profile
  let rows := rows.mergeSort fun left right => left.opcode ≤ right.opcode
  return {
    byFrequency := rankBy (·.occurrences) rows
    bySize := rankBy (·.maxSize) rows
    byTime := rankBy (·.average) rows
    byBackend := (subroutines.map fun (address, times) => SubroutineRow.of address times).mergeSort
      fun left right =>
        right.backend < left.backend || right.backend == left.backend && left.address ≤ right.address }

def of (tables : Tables) : Except TimeOverflow Report :=
  ofEntries tables.opcodes.toList tables.subroutines.toList

/-- The number column of the text. -/
def cell (n : Nat) : String := Text.padLeft 10 ' ' (toString n)

def opcodeLines (value : OpcodeRow → Nat) (rows : List OpcodeRow) : List String :=
  rows.map fun row => s!"{cell (value row)}  {row.opcode}"

def subroutineLine (row : SubroutineRow) : String :=
  s!"{cell row.backend}  0x{Text.hexPadded 16 row.address.toNat}  x{row.count}"

/-- The report as text, with the run time in milliseconds. -/
def render (report : Report) (runTime : Nat) : String :=
  "\n".intercalate <|
    "=== Opcodes by encounter count ===" :: opcodeLines (·.occurrences) report.byFrequency
      ++ "=== Opcodes by generated size ===" :: opcodeLines (·.maxSize) report.bySize
      ++ "=== Opcodes by average emit time (ns) ===" :: opcodeLines (·.average) report.byTime
      ++ "=== Subroutines by backend JIT time (us) ===" :: report.byBackend.map subroutineLine
      ++ [s!"Application run time: {runTime} ms"]

end Report
end Dynarec.Profile
