import Dynarec.Profile.Tables
import Mathlib

/-!
Tables told from the calls that filled them. What is kept for a key or an address is a fold over the calls for it since
the tables were last reset: a window of its latest times, its sizes, and the first of each of its durations.
-/
namespace Dynarec.Profile

/-- A call on the tables. -/
inductive Tracking
  | opcode (key : OpcodeKey) (time size : Nat)
  | subroutine (address : UInt64) (observation : SubroutineTimes)
  | reset
  deriving DecidableEq

namespace Tracking

def emission? (key : OpcodeKey) : Tracking → Option (Nat × Nat)
  | .opcode other time size => if other = key then some (time, size) else none
  | _ => none

def observation? (address : UInt64) : Tracking → Option SubroutineTimes
  | .subroutine other observation => if other = address then some observation else none
  | _ => none

/-- What the calls after the last reset carried that are of one's own. -/
def since {α : Type} (own : Tracking → Option α) (history : List Tracking) : List α :=
  (history.rtakeWhile (· ≠ .reset)).filterMap own

/-- The emissions of a kind of instruction since the last reset, each a time and a size. -/
def emissions (key : OpcodeKey) (history : List Tracking) : List (Nat × Nat) := since (emission? key) history

def observations (address : UInt64) (history : List Tracking) : List SubroutineTimes :=
  since (observation? address) history

theorem since_snoc {α : Type} (own : Tracking → Option α) (history : List Tracking) (last : Tracking) :
    since own (history ++ [last]) = if last = .reset then [] else since own history ++ (own last).toList := by
  unfold since
  rw [List.rtakeWhile_concat]
  by_cases again : last = .reset
  · simp [again]
  · simp only [again, ne_eq, not_false_eq_true, decide_true, if_true, if_false, List.filterMap_append]
    cases carried : own last <;> simp [carried]

end Tracking

namespace Tables

def apply (tables : Tables) : Tracking → Tables
  | .opcode key time size => tables.trackOpcode key time size
  | .subroutine address observation => tables.trackSubroutine address observation
  | .reset => tables.reset

/-- The tables after these calls. -/
def after (history : List Tracking) : Tables := history.foldl apply {}

/-- What a lookup finds is the fold of what the calls of its own carried, if each such call adds to what was found before
it and no other call but a reset changes it. -/
theorem look_after {α β : Type} (own : Tracking → Option α) (look : Tables → Option β) (add : Option β → α → β)
    (empty : look {} = none) (step : ∀ tables tracking, tracking ≠ .reset → look (tables.apply tracking) =
      (own tracking).elim (look tables) fun carried => some (add (look tables) carried)) (history : List Tracking) :
    look (after history) =
      (Tracking.since own history).foldl (fun found carried => some (add found carried)) none := by
  induction history using List.reverseRecOn with
  | nil => exact empty
  | append_singleton history last ih =>
    have here : after (history ++ [last]) = (after history).apply last := List.foldl_concat _ _ _ _
    rw [here, Tracking.since_snoc]
    by_cases again : last = .reset
    · subst again
      exact empty
    · rw [step _ _ again, if_neg again, ih]
      cases own last <;> simp

theorem opcode?_trackOpcode (tables : Tables) (key other : OpcodeKey) (time size : Nat) :
    (tables.trackOpcode key time size).opcode? other =
      if key = other then some (((tables.opcode? other).getD {}).record time size) else tables.opcode? other := by
  unfold opcode? trackOpcode
  rw [Std.HashMap.getElem?_insert, Std.HashMap.getD_eq_getD_getElem?]
  by_cases same : key = other <;> simp [same]

end Tables

namespace OpcodeProfile

/-- The profile of a kind of instruction that was emitted so. -/
def recorded (emissions : List (Nat × Nat)) : OpcodeProfile :=
  emissions.foldl (fun profile emission => profile.record emission.1 emission.2) {}

theorem toList_times_record (profile : OpcodeProfile) (time size : Nat) : (profile.record time size).times.toList =
    (if profile.times.size = window then profile.times.toList.drop 1 else profile.times.toList) ++ [time] := by
  simp only [record, Array.toList_push]
  congr 1
  split
  · next full =>
    rw [Array.toList_extract, List.extract_eq_take_drop, ← full]
    exact List.take_of_length_le (by simp)
  · rfl

/-- What is kept of emissions: the latest times that fit the window, and all else of all of them. -/
structure Keeps (profile : OpcodeProfile) (emissions : List (Nat × Nat)) : Prop where
  times : profile.times.toList = (emissions.map Prod.fst).drop (emissions.length - window)
  occurrences : profile.occurrences = emissions.length
  sizes : ∀ size, size ∈ profile.sizes ↔ size ∈ emissions.map Prod.snd

theorem Keeps.record {profile : OpcodeProfile} {emissions : List (Nat × Nat)} (keeps : profile.Keeps emissions)
    (time size : Nat) : (profile.record time size).Keeps (emissions ++ [(time, size)]) := by
  have room : 0 < window := Nat.succ_pos _
  have held : profile.times.size = emissions.length - (emissions.length - window) := by
    have length := congrArg List.length keeps.times
    simpa only [Array.length_toList, List.length_drop, List.length_map] using length
  -- a full window moves on by one, any other grows
  have moved (times : List Nat) : (if profile.times.size = window then
      (times.drop (emissions.length - window)).drop 1 else times.drop (emissions.length - window)) =
        times.drop (emissions.length + 1 - window) := by
    split
    · rw [List.drop_drop]
      exact congrArg (times.drop ·) (by omega)
    · exact congrArg (times.drop ·) (by omega)
  refine ⟨?_, ?_, fun other => ?_⟩
  · have inside : emissions.length + 1 - window ≤ (emissions.map Prod.fst).length := by
      rw [List.length_map]
      omega
    rw [toList_times_record, keeps.times, moved, List.map_append, List.length_append, List.length_singleton,
      List.drop_append_of_le_length inside, List.map_singleton]
  · rw [List.length_append, ← keeps.occurrences]
    rfl
  · simp only [OpcodeProfile.record, Std.TreeSet.mem_insert, compare_eq_iff_eq, keeps.sizes, List.map_append,
      List.mem_append, List.map_cons, List.map_nil, List.mem_singleton]
    rw [or_comm, eq_comm]

theorem recorded_keeps (emissions : List (Nat × Nat)) : (recorded emissions).Keeps emissions := by
  induction emissions using List.reverseRecOn with
  | nil => exact ⟨rfl, rfl, by simp [recorded]⟩
  | append_singleton emissions last ih =>
    unfold recorded
    rw [List.foldl_concat]
    exact ih.record last.1 last.2

theorem Keeps.maxSize {profile : OpcodeProfile} {emissions : List (Nat × Nat)} (keeps : profile.Keeps emissions) :
    profile.maxSize = (emissions.map Prod.snd).max?.getD 0 := by
  have same : profile.sizes.max? = (emissions.map Prod.snd).max? := by
    cases largest : (emissions.map Prod.snd).max? with
    | none =>
      rw [Std.TreeSet.max?_eq_none_iff, Std.TreeSet.isEmpty_iff_forall_not_mem]
      intro size member
      rw [keeps.sizes, List.max?_eq_none_iff.mp largest] at member
      exact List.not_mem_nil member
    | some size =>
      obtain ⟨member, above⟩ := List.max?_eq_some_iff.mp largest
      rw [Std.TreeSet.max?_eq_some_iff_mem_and_forall]
      refine ⟨(keeps.sizes size).mpr member, fun other inside => ?_⟩
      exact Std.isLE_compare.mpr (above other ((keeps.sizes other).mp inside))
  unfold OpcodeProfile.maxSize
  rw [same]

theorem average_eq (profile : OpcodeProfile) (representable : profile.times.toList.sum < 2 ^ 64 * 10 ^ 9) :
    profile.average = .ok (profile.times.toList.sum / profile.times.toList.length) := by
  have total : profile.times.foldl (· + ·) 0 = profile.times.toList.sum := by
    rw [← Array.foldl_toList, List.sum_eq_foldl]
  unfold average
  simp only [total, Array.length_toList]
  exact if_pos (by omega)

end OpcodeProfile

namespace SubroutineTimes

/-- The record of an address that was observed so. -/
def merged (observations : List SubroutineTimes) : SubroutineTimes :=
  { tier0 := observations.findSome? (·.tier0)
    tier1 := observations.findSome? (·.tier1)
    backend := observations.findSome? (·.backend)
    execution := observations.findSome? (·.execution)
    count := observations.length }

theorem merge_merged (observations : List SubroutineTimes) (last : SubroutineTimes) :
    (merged observations).merge last = merged (observations ++ [last]) := by
  have present (time : SubroutineTimes → Option Nat) : (observations.findSome? time <|> time last) =
      (observations ++ [last]).findSome? time := by
    rw [List.findSome?_append, List.findSome?_singleton]
    cases observations.findSome? time <;> rfl
  simp only [merge, merged, present, List.length_append, List.length_singleton]

/-- What is found for an address with one more observation. -/
def observed (found : Option SubroutineTimes) (observation : SubroutineTimes) : SubroutineTimes :=
  match found with
  | some times => times.merge observation
  | none => { observation with count := 1 }

/-- The first observation, which is not merged, is kept as if it were. -/
theorem observed_merged (observations : List SubroutineTimes) (last : SubroutineTimes) :
    observed (if observations = [] then none else some (merged observations)) last =
      merged (observations ++ [last]) := by
  by_cases first : observations = []
  · subst first
    obtain ⟨tier0, tier1, backend, execution, count⟩ := last
    cases tier0 <;> cases tier1 <;> cases backend <;> cases execution <;> rfl
  · rw [if_neg first]
    exact merge_merged observations last

end SubroutineTimes

namespace Tables

theorem subroutine?_trackSubroutine (tables : Tables) (address other : UInt64) (observation : SubroutineTimes) :
    (tables.trackSubroutine address observation).subroutine? other =
      if address = other then some (SubroutineTimes.observed (tables.subroutine? other) observation)
      else tables.subroutine? other := by
  unfold subroutine? trackSubroutine
  rw [Std.HashMap.getElem?_insert]
  by_cases same : address = other
  · subst same
    simp only [beq_self_eq_true, if_true]
    cases tables.subroutines[address]? <;> rfl
  · simp [same]

theorem opcode?_after (history : List Tracking) (key : OpcodeKey) : (after history).opcode? key =
    if Tracking.emissions key history = [] then none
    else some (OpcodeProfile.recorded (Tracking.emissions key history)) := by
  have folded := look_after (Tracking.emission? key) (·.opcode? key)
    (fun found emission => (found.getD {}).record emission.1 emission.2) Std.HashMap.getElem?_empty ?_ history
  · refine folded.trans ?_
    change (Tracking.emissions key history).foldl _ _ = _
    generalize Tracking.emissions key history = emissions
    induction emissions using List.reverseRecOn with
    | nil => rfl
    | append_singleton emissions last ih =>
      have tracked : emissions ++ [last] ≠ [] := by simp
      rw [List.foldl_concat, ih, if_neg tracked]
      unfold OpcodeProfile.recorded
      rw [List.foldl_concat]
      by_cases first : emissions = []
      · subst first
        rfl
      · rw [if_neg first]
        rfl
  · rintro tables (⟨other, time, size⟩ | _ | _) again
    · change (tables.trackOpcode other time size).opcode? key = _
      rw [opcode?_trackOpcode]
      by_cases same : other = key <;> simp [Tracking.emission?, same]
    · rfl
    · exact absurd rfl again

theorem subroutine?_after (history : List Tracking) (address : UInt64) : (after history).subroutine? address =
    if Tracking.observations address history = [] then none
    else some (SubroutineTimes.merged (Tracking.observations address history)) := by
  have folded := look_after (Tracking.observation? address) (·.subroutine? address)
    SubroutineTimes.observed Std.HashMap.getElem?_empty ?_ history
  · refine folded.trans ?_
    change (Tracking.observations address history).foldl _ _ = _
    generalize Tracking.observations address history = observations
    induction observations using List.reverseRecOn with
    | nil => rfl
    | append_singleton observations last ih =>
      have tracked : observations ++ [last] ≠ [] := by simp
      rw [List.foldl_concat, ih, SubroutineTimes.observed_merged, if_neg tracked]
  · rintro tables (_ | ⟨other, observation⟩ | _) again
    · rfl
    · change (tables.trackSubroutine other observation).subroutine? address = _
      rw [subroutine?_trackSubroutine]
      by_cases same : other = address <;> simp [Tracking.observation?, same]
    · exact absurd rfl again

/-- What is kept for a kind of instruction or an address tells of its own calls since the last reset and of no other, and
there is nothing if there were none. For a kind, these are its latest 512 times, how often it was emitted, and all its
sizes, with the largest of them and the mean of the times; for an address, each duration that was first observed, and how
often it was observed, whatever the observations counted. -/
theorem after_exact (history : List Tracking) :
    (∀ key, let own := Tracking.emissions key history
      let profile := OpcodeProfile.recorded own
      let retained := (own.map Prod.fst).drop (own.length - 512)
      (after history).opcode? key = (if own = [] then none else some profile) ∧
        profile.times.toList = retained ∧ profile.occurrences = own.length ∧
        profile.sizes.toList.Pairwise (· < ·) ∧ (∀ size, size ∈ profile.sizes.toList ↔ size ∈ own.map Prod.snd) ∧
        profile.maxSize = (own.map Prod.snd).max?.getD 0 ∧
        (retained.sum < 2 ^ 64 * 10 ^ 9 → profile.average = .ok (retained.sum / retained.length))) ∧
      ∀ address, let own := Tracking.observations address history
        (after history).subroutine? address = if own = [] then none else some
          { tier0 := own.findSome? (·.tier0)
            tier1 := own.findSome? (·.tier1)
            backend := own.findSome? (·.backend)
            execution := own.findSome? (·.execution)
            count := own.length } := by
  refine ⟨fun key => ?_, fun address => subroutine?_after history address⟩
  intro own profile retained
  have keeps : profile.Keeps own := OpcodeProfile.recorded_keeps own
  have times : profile.times.toList = retained := keeps.times
  refine ⟨opcode?_after history key, times, keeps.occurrences, ?_, fun size => ?_, keeps.maxSize, ?_⟩
  · exact Std.TreeSet.ordered_toList.imp Std.compare_eq_lt.mp
  · rw [Std.TreeSet.mem_toList, keeps.sizes]
  · intro representable
    rw [← times] at representable ⊢
    exact profile.average_eq representable

theorem after_exact_reset : let key : OpcodeKey := ⟨"add", "add r, r, r"⟩
    let observation := fun time count => { tier0 := time, count : SubroutineTimes }
    let tables := after [.opcode key 900 9, .subroutine 4096 (observation (some 1) 1), .reset, .opcode key 4 6,
      .subroutine 4096 (observation none 40), .opcode ⟨"bl", "bl i"⟩ 70 7, .opcode key 7 2,
      .subroutine 4096 (observation (some 8) 3), .subroutine 4096 (observation (some 5) 2)]
    (∃ profile, tables.opcode? key = some profile ∧ profile.times.toList = [4, 7] ∧ profile.maxSize = 6 ∧
      profile.average = .ok 5) ∧
      tables.subroutine? 4096 = some { tier0 := some 8, count := 3 } := by
  intro key observation tables
  obtain ⟨profiles, records⟩ := after_exact [.opcode key 900 9, .subroutine 4096 (observation (some 1) 1), .reset,
    .opcode key 4 6, .subroutine 4096 (observation none 40), .opcode ⟨"bl", "bl i"⟩ 70 7, .opcode key 7 2,
    .subroutine 4096 (observation (some 8) 3), .subroutine 4096 (observation (some 5) 2)]
  obtain ⟨found, times, -, -, -, largest, mean⟩ := profiles key
  exact ⟨⟨_, found, times.trans (by decide), largest,
    (mean (by decide)).trans (by decide)⟩, records 4096⟩

end Tables
end Dynarec.Profile
