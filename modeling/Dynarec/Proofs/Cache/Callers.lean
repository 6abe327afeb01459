import Dynarec.Cache

/-!
The caller sets. Taking new code in at an address enters the address with each of the new callees and removes it
from those the code no longer calls; all other callers stay.
-/
namespace Dynarec
namespace Cache

theorem mem_insert (set : Std.TreeSet UInt64) (address caller : UInt64) :
    caller ∈ set.insert address ↔ caller = address ∨ caller ∈ set := by
  rw [Std.TreeSet.mem_insert, Std.LawfulEqCmp.compare_eq_iff_eq, eq_comm]

theorem mem_erase (set : Std.TreeSet UInt64) (address caller : UInt64) :
    caller ∈ set.erase address ↔ ¬caller = address ∧ caller ∈ set := by
  rw [Std.TreeSet.mem_erase, Ne, Std.LawfulEqCmp.compare_eq_iff_eq, eq_comm]

variable (callers : Std.TreeMap UInt64 (Std.TreeSet UInt64)) (address : UInt64)

theorem mem_addCaller (callee other caller : UInt64) :
    caller ∈ (addCaller callers address callee).getD other ∅ ↔
      (caller = address ∧ other = callee) ∨ caller ∈ callers.getD other ∅ := by
  unfold addCaller
  rw [Std.TreeMap.getD_insert]
  by_cases same : callee = other
  · subst same
    rw [if_pos Std.ReflCmp.compare_self, mem_insert]
    simp
  · simp [same, Ne.symm same]

theorem mem_dropCaller (callee other caller : UInt64) :
    caller ∈ (dropCaller callers address callee).getD other ∅ ↔
      ¬(caller = address ∧ other = callee) ∧ caller ∈ callers.getD other ∅ := by
  unfold dropCaller
  by_cases same : callee = other
  · subst same
    have erased := mem_erase (callers.getD callee ∅) address caller
    dsimp only
    split
    · next empty =>
      have missing := (Std.TreeSet.isEmpty_iff_forall_not_mem.mp empty) caller
      rw [erased] at missing
      simpa [Std.TreeMap.getD_erase] using missing
    · simpa [Std.TreeMap.getD_insert] using erased
  · dsimp only
    split
    · simp [Std.TreeMap.getD_erase, same, Ne.symm same]
    · simp [Std.TreeMap.getD_insert, same, Ne.symm same]

theorem mem_foldl_addCaller (callees : List UInt64) (other caller : UInt64) :
    caller ∈ (callees.foldl (addCaller · address ·) callers).getD other ∅ ↔
      (caller = address ∧ other ∈ callees) ∨ caller ∈ callers.getD other ∅ := by
  induction callees generalizing callers with
  | nil => simp
  | cons callee rest ih =>
    rw [List.foldl_cons, ih, mem_addCaller, List.mem_cons]
    grind

theorem mem_foldl_dropCaller (callees : List UInt64) (other caller : UInt64) :
    caller ∈ (callees.foldl (dropCaller · address ·) callers).getD other ∅ ↔
      ¬(caller = address ∧ other ∈ callees) ∧ caller ∈ callers.getD other ∅ := by
  induction callees generalizing callers with
  | nil => simp
  | cons callee rest ih =>
    rw [List.foldl_cons, ih, mem_dropCaller, List.mem_cons]
    grind

theorem mem_relink (new old : List UInt64) (other caller : UInt64) :
    caller ∈ (relink callers address new old).getD other ∅ ↔
      (caller = address ∧ other ∈ new) ∨
        (caller ∈ callers.getD other ∅ ∧ ¬(caller = address ∧ other ∈ old ∧ other ∉ new)) := by
  unfold relink
  rw [mem_foldl_dropCaller, mem_foldl_addCaller, List.mem_filter]
  simp only [Bool.not_eq_true', List.contains_eq_mem, decide_eq_false_iff_not]
  grind

end Cache
end Dynarec
