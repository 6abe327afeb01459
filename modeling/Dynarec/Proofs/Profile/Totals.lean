import Dynarec.Builder
import Mathlib

/-!
Totals over the profiling tables. Each observation of a subroutine adds one execution to them, and each emission of an
instruction one occurrence.
-/
namespace Dynarec.Profile

section
variable {α β : Type} [BEq α] [LawfulBEq α] [Hashable α] (map : Std.HashMap α β)

theorem toList_perm_of_getElem? {key : α} {value : β} (here : map[key]? = some value) :
    map.toList.Perm ((key, value) :: map.toList.filter fun pair => decide ¬(key == pair.1) = true) := by
  have same : (map.insert key value).Equiv map := by
    refine Std.HashMap.Equiv.of_forall_getElem?_eq fun other => ?_
    rw [Std.HashMap.getElem?_insert]
    split
    · next equal => rw [← eq_of_beq equal, here]
    · rfl
  exact same.toList_perm.symm.trans Std.HashMap.toList_insert_perm

/-- What a key held goes from the total when it is given another value. -/
theorem sum_insert (count : β → Nat) (key : α) (value : β) :
    ((map.insert key value).toList.map fun pair => count pair.2).sum + (map[key]?.map count).getD 0 =
      (map.toList.map fun pair => count pair.2).sum + count value := by
  rw [(Std.HashMap.toList_insert_perm.map fun pair => count pair.2).sum_nat, List.map_cons, List.sum_cons]
  cases here : map[key]? with
  | some former =>
    rw [((toList_perm_of_getElem? map here).map fun pair => count pair.2).sum_nat, List.map_cons, List.sum_cons]
    simp only [Option.map_some, Option.getD_some]
    omega
  | none =>
    -- nothing was held for the key, so taking it out of the list takes nothing out
    have whole : (map.toList.filter fun pair => decide ¬(key == pair.1) = true) = map.toList := by
      refine List.filter_eq_self.mpr fun pair member => ?_
      rw [decide_eq_true_iff]
      intro equal
      have there := Std.HashMap.mem_toList_iff_getElem?_eq_some.mp member
      rw [← eq_of_beq equal, here] at there
      cases there
    rw [whole]
    simp only [Option.map_none, Option.getD_none]
    omega

end

namespace Tables

/-- Executions over all subroutines. -/
def executions (tables : Tables) : Nat := (tables.subroutines.toList.map fun pair => pair.2.count).sum

/-- Occurrences over all kinds of instructions. -/
def occurrences (tables : Tables) : Nat := (tables.opcodes.toList.map fun pair => pair.2.occurrences).sum

theorem occurrences_trackOpcode (tables : Tables) (key : OpcodeKey) (time size : Nat) :
    (tables.trackOpcode key time size).occurrences = tables.occurrences + 1 := by
  have sums := sum_insert tables.opcodes (·.occurrences) key ((tables.opcodes.getD key {}).record time size)
  have recorded : ((tables.opcodes.getD key {}).record time size).occurrences =
      (tables.opcodes[key]?.map (·.occurrences)).getD 0 + 1 := by
    rw [Std.HashMap.getD_eq_getD_getElem?]
    cases tables.opcodes[key]? <;> rfl
  unfold occurrences trackOpcode
  dsimp only at sums ⊢
  omega

theorem executions_trackSubroutine (tables : Tables) (address : UInt64) (observation : SubroutineTimes) :
    (tables.trackSubroutine address observation).executions = tables.executions + 1 := by
  unfold executions trackSubroutine
  dsimp only
  cases here : tables.subroutines[address]? with
  | none =>
    have sums := sum_insert tables.subroutines (·.count) address { observation with count := 1 }
    rw [here] at sums
    exact sums
  | some times =>
    have sums := sum_insert tables.subroutines (·.count) address (times.merge observation)
    rw [here] at sums
    simp only [Option.map_some, Option.getD_some, SubroutineTimes.merge] at sums ⊢
    omega

theorem executions_trackSpans (tables : Tables) (spans : List Span) :
    (tables.trackSpans spans).executions = tables.executions := by
  unfold trackSpans
  induction spans generalizing tables with
  | nil => rfl
  | cons span rest ih => exact ih (tables.trackOpcode span.key 0 span.size)

theorem occurrences_trackSpans (tables : Tables) (spans : List Span) :
    (tables.trackSpans spans).occurrences = tables.occurrences + spans.length := by
  unfold trackSpans
  induction spans generalizing tables with
  | nil => rfl
  | cons span rest ih =>
    rw [List.foldl_cons, ih, occurrences_trackOpcode, List.length_cons]
    omega

theorem getD_trackOpcode (tables : Tables) (key other : OpcodeKey) (time size : Nat) :
    (tables.trackOpcode key time size).opcodes.getD other {} =
      if key = other then (tables.opcodes.getD key {}).record time size else tables.opcodes.getD other {} := by
  unfold trackOpcode
  rw [Std.HashMap.getD_insert]
  simp only [beq_iff_eq]

/-- Tracking spans adds, for each kind of instruction, the number of its spans to its occurrences and their sizes to its
sizes. -/
theorem getD_trackSpans (tables : Tables) (spans : List Span) (key : OpcodeKey) :
    ((tables.trackSpans spans).opcodes.getD key {}).occurrences =
        (tables.opcodes.getD key {}).occurrences + (spans.map Span.key).count key ∧
      ∀ size, size ∈ ((tables.trackSpans spans).opcodes.getD key {}).sizes ↔
        size ∈ (tables.opcodes.getD key {}).sizes ∨ ∃ span ∈ spans, span.key = key ∧ span.size = size := by
  unfold trackSpans
  induction spans generalizing tables with
  | nil => simp
  | cons span rest ih =>
    obtain ⟨counted, sized⟩ := ih (tables.trackOpcode span.key 0 span.size)
    rw [getD_trackOpcode] at counted sized
    rw [List.foldl_cons, List.map_cons, List.count_cons]
    by_cases own : span.key = key
    · subst own
      rw [if_pos rfl] at counted sized
      refine ⟨?_, fun size => ?_⟩
      · simp only [counted, OpcodeProfile.record, beq_self_eq_true, if_true]
        omega
      rw [sized]
      simp only [OpcodeProfile.record, Std.TreeSet.mem_insert, compare_eq_iff_eq, List.mem_cons, exists_eq_or_imp,
        true_and]
      tauto
    · rw [if_neg own] at counted sized
      refine ⟨by rw [counted]; simp [own], fun size => ?_⟩
      rw [sized]
      simp [own]

theorem occurrences_trackSubroutine (tables : Tables) (address : UInt64) (observation : SubroutineTimes) :
    (tables.trackSubroutine address observation).occurrences = tables.occurrences := rfl

end Tables
end Dynarec.Profile
