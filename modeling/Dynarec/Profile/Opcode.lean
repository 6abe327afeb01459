import Std.Data.TreeSet

/-!
What is kept for one kind of instruction: the most recent emission times, how often it was emitted, and the
set of sizes its code came out at. Times are in nanoseconds.
-/
namespace Dynarec.Profile

/-- A kind of instruction: its form and the routine that emits code for it. -/
structure OpcodeKey where
  emitter : String
  form : String
  deriving DecidableEq, Hashable, Repr, Inhabited

def OpcodeKey.render (key : OpcodeKey) : String := s!"{key.form} ({key.emitter})"

/-- The sum of the kept times has more seconds than a word counts. -/
inductive TimeOverflow
  | overflow
  deriving DecidableEq, Repr

def TimeOverflow.message : TimeOverflow → String
  | .overflow => "overflow in iter::sum over durations"

structure OpcodeProfile where
  times : Array Nat := #[]
  occurrences : Nat := 0
  sizes : Std.TreeSet Nat := ∅
  deriving Inhabited

namespace OpcodeProfile

/-- How many emission times are kept. -/
def window : Nat := 512

/-- Adds one emission; the oldest time goes when the window is full. -/
def record (profile : OpcodeProfile) (time size : Nat) : OpcodeProfile :=
  { times := (if profile.times.size = window then profile.times.extract 1 window else profile.times).push time
    occurrences := profile.occurrences + 1
    sizes := profile.sizes.insert size }

def maxSize (profile : OpcodeProfile) : Nat := profile.sizes.max?.getD 0

/-- The mean of the kept times, rounded down. -/
def average (profile : OpcodeProfile) : Except TimeOverflow Nat :=
  let total := profile.times.foldl (· + ·) 0
  if total / 1000000000 < 0x10000000000000000 then .ok (total / profile.times.size) else .error .overflow

theorem size_times_record_le (profile : OpcodeProfile) (time size : Nat)
    (kept : profile.times.size ≤ window) : (profile.record time size).times.size ≤ window := by
  simp only [record, Array.size_push]
  split
  · next full =>
    simp only [Array.size_extract, full, window]
    omega
  · omega

end OpcodeProfile
end Dynarec.Profile
