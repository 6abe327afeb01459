import Dynarec.Proofs.Effect
import Dynarec.Proofs.Emission.Layout
import Dynarec.Proofs.Ir.Expansion

/-!
The function of a graph passes its check: placeholders are gone, locals and labels are the function's own, each
label is placed once, and the last block's code does not fall out.
-/
namespace Dynarec
namespace Ir.Function

/-- An operation that can stand in the function: it is expanded, and names only locals and labels there are. -/
structure Knows (function : Function) (op : Op) : Prop where
  expanded : op.isPlaceholder = false
  locals : ∀ slot ∈ op.locals, slot < function.locals.size
  targets : ∀ label ∈ op.target?, label < function.labels
  places : ∀ label ∈ op.placed?, label < function.labels

/-- The labels the function places, in order. -/
def placements (function : Function) : List Label := function.ops.toList.filterMap Op.placed?

/-- A function that passes its check. -/
structure WellFormed (function : Function) : Prop where
  knows : ∀ op ∈ function.ops.toList, function.Knows op
  once : function.placements.Nodup
  everywhere : ∀ label < function.labels, label ∈ function.placements
  closed : function.ops.back?.any Op.isTerminator = true

theorem checkOp_iff (function : Function) (placed : List Label) (op : Op) (after : List Label) :
    function.checkOp placed op = .ok after ↔
      function.Knows op ∧ (∀ label ∈ op.placed?, label ∉ placed) ∧ after = op.placed?.toList ++ placed := by
  unfold checkOp
  by_cases expanded : op.isPlaceholder = true
  · simp only [expanded, if_true, reduceCtorEq, false_iff]
    intro holds
    exact absurd (expanded.symm.trans holds.1.expanded) (by decide)
  · rw [if_neg expanded]
    cases unknown : op.locals.find? (function.locals.size ≤ ·) with
    | some slot =>
      simp only [reduceCtorEq, false_iff]
      intro holds
      have bound := holds.1.locals slot (List.mem_of_find?_eq_some unknown)
      have high : function.locals.size ≤ slot := by simpa using List.find?_some unknown
      exact absurd bound high.not_gt
    | none =>
      have locals : ∀ slot ∈ op.locals, slot < function.locals.size := by
        simpa using List.find?_eq_none.mp unknown
      have knows : function.Knows op ↔
          (∀ label ∈ op.target?, label < function.labels) ∧ ∀ label ∈ op.placed?, label < function.labels :=
        ⟨fun knows => ⟨knows.targets, knows.places⟩,
          fun ⟨targets, places⟩ => ⟨by simpa using expanded, locals, targets, places⟩⟩
      rw [knows]
      cases op <;> simp [checkLabels, Op.target?, Op.placed?, eq_comm] <;> grind

/-- Operations pass together exactly if each can stand in the function and places a label of its own. -/
theorem checkOps_iff (function : Function) (ops : List Op) (placed after : List Label) :
    ops.foldlM function.checkOp placed = .ok after ↔
      (∀ op ∈ ops, function.Knows op) ∧ (ops.filterMap Op.placed?).Nodup ∧
        (∀ label ∈ ops.filterMap Op.placed?, label ∉ placed) ∧
          after = (ops.filterMap Op.placed?).reverse ++ placed := by
  induction ops generalizing placed with
  | nil => simp [pure, Except.pure, eq_comm]
  | cons op rest ih =>
    have split : (op :: rest).filterMap Op.placed? = op.placed?.toList ++ rest.filterMap Op.placed? := by
      cases mark : op.placed? <;> simp [mark]
    have both : (op :: rest).foldlM function.checkOp placed = .ok after ↔
        ∃ later, function.checkOp placed op = .ok later ∧ rest.foldlM function.checkOp later = .ok after := by
      rw [List.foldlM_cons]
      exact Effect.bind_eq_ok
    rw [both, split]
    simp only [checkOp_iff, ih]
    constructor
    · rintro ⟨later, ⟨knows, own, rfl⟩, others, once, fresh, rfl⟩
      refine ⟨?_, ?_, ?_, ?_⟩
      · exact List.forall_mem_cons.mpr ⟨knows, others⟩
      · refine List.nodup_append.mpr ⟨by cases op.placed? <;> simp, once, ?_⟩
        rintro label first _ second rfl
        exact fresh label second (List.mem_append_left _ first)
      · intro label member
        rcases List.mem_append.mp member with first | second
        · exact own label (by simpa using first)
        · exact fun old => fresh label second (List.mem_append_right _ old)
      · cases op.placed? <;> simp
    · rintro ⟨knows, once, fresh, rfl⟩
      obtain ⟨_, later, apart⟩ := List.nodup_append.mp once
      have both := List.forall_mem_cons.mp knows
      refine ⟨_, ⟨both.1, ?_, rfl⟩, both.2, later, ?_, ?_⟩
      · intro label mark
        exact fresh label (List.mem_append_left _ (by simpa using mark))
      · intro label member known
        rcases List.mem_append.mp known with own | old
        · exact apart label own label member rfl
        · exact fresh label (List.mem_append_right _ member) old
      · cases op.placed? <;> simp

/-- The check passes exactly the well-formed functions. -/
theorem check_iff (function : Function) : function.check = .ok () ↔ function.WellFormed := by
  have walk : ∀ placed, function.ops.toList.foldlM function.checkOp [] = .ok placed ↔
      (∀ op ∈ function.ops.toList, function.Knows op) ∧ function.placements.Nodup ∧
        placed = function.placements.reverse := by
    intro placed
    rw [checkOps_iff]
    simp [placements]
  have reached : (∃ placed, function.ops.toList.foldlM function.checkOp [] = .ok placed ∧
      firstUnplaced placed 0 function.labels = none ∧ function.ops.back?.any Op.isTerminator = true) ↔
        function.WellFormed := by
    simp only [walk, firstUnplaced_eq_none_iff]
    constructor
    · rintro ⟨_, ⟨knows, once, rfl⟩, everywhere, closed⟩
      exact ⟨knows, once, fun label small => by simpa using everywhere label (Nat.zero_le _) (by omega), closed⟩
    · rintro ⟨knows, once, everywhere, closed⟩
      exact ⟨_, ⟨knows, once, rfl⟩, fun label _ small => by simpa using everywhere label (by omega), closed⟩
  rw [← reached]
  unfold check
  constructor
  · intro passed
    obtain ⟨placed, walked, rest⟩ := Effect.bind_eq_ok.mp passed
    refine ⟨placed, walked, ?_⟩
    cases missing : firstUnplaced placed 0 function.labels with
    | some label => simp [missing, throw, throwThe, MonadExceptOf.throw, bind, Except.bind] at rest
    | none =>
      simp only [missing] at rest
      refine ⟨rfl, ?_⟩
      by_contra goesOn
      rw [if_neg goesOn] at rest
      cases rest
  · rintro ⟨placed, walked, missing, closed⟩
    simp [walked, missing, closed, pure, Except.pure, bind, Except.bind]

theorem validate_iff (function : Function) : function.validate = .ok () ↔ function.WellFormed := by
  rw [← check_iff, validate]
  cases function.check with
  | ok _ => simp [Effect.mapError_ok]
  | error flaw => simp [Effect.mapError_error]

/-- A function that does not pass is reported with its name and a reason. -/
theorem validate_error {function : Function} (flawed : ¬ function.WellFormed) :
    ∃ flaw : Flaw, function.validate = .error (.invalidIr function.name flaw.reason) := by
  rw [← check_iff] at flawed
  rw [validate]
  cases checked : function.check with
  | ok _ => exact absurd checked flawed
  | error flaw => exact ⟨flaw, Effect.mapError_error _ flaw⟩

end Ir.Function

namespace Emission
open Ir

theorem Takes.loadArg {emission : Emission} {word : Nat} {registers : List Register} {added : List Op}
    (takes : emission.Takes word registers added) : ∀ op ∈ added, ∃ slot word, op = .loadArg slot word := by
  induction registers generalizing word added with
  | nil =>
    obtain rfl : added = [] := takes
    simp
  | cons register rest ih =>
    obtain ⟨slot, later, _, rfl, others⟩ := takes
    intro op member
    rcases List.mem_cons.mp member with rfl | inside
    · exact ⟨slot, word, rfl⟩
    · exact ih others op inside

theorem Takes.unexpanded {emission : Emission} {word : Nat} {registers : List Register} {loads : List Op}
    (takes : emission.Takes word registers loads) (bindings : List Binding) :
    Expansion.expand bindings loads = loads := by
  refine Expansion.expand_of_plain fun op member => ?_
  obtain ⟨slot, word, rfl⟩ := takes.loadArg op member
  rfl

theorem last_of_blocks {emission : Emission} {blocks : List Guest.Block} {codes : List (List Op)}
    (code : List.Forall₂ emission.BlockShape blocks codes) (nonempty : blocks ≠ []) :
    codes.flatten.getLast?.any Op.isTerminator = true := by
  induction code with
  | nil => exact absurd rfl nonempty
  | @cons block added blocks codes first rest ih =>
    rw [List.flatten_cons, List.getLast?_append]
    by_cases others : blocks = []
    · subst others
      cases rest
      simpa using first.last
    · obtain ⟨op, found, terminator⟩ := (Option.any_eq_true _ _).mp (ih others)
      simpa [found] using terminator

namespace Laid

variable {emission : Emission} {graph : Guest.Graph}

theorem knows (laid : emission.Laid graph) (labels : ∀ label ∈ emission.ops.toList.filterMap Op.placed?,
    label < emission.labels) : ∀ op ∈ emission.finish.function.ops.toList, emission.finish.function.Knows op := by
  intro op member
  have expanded : op ∈ Expansion.expand emission.bindings emission.ops.toList := member
  rcases Expansion.mem_expand expanded with ⟨origin, plain⟩ | ⟨binding, known, rfl | rfl⟩
  · have fit := laid.fits op origin
    exact ⟨plain, fit.1, fit.2, fun label mark => labels label (List.mem_filterMap.mpr ⟨op, origin, mark⟩)⟩
  · exact ⟨rfl, by simpa [Expansion.load, Op.locals, finish] using laid.allotted.slot_lt known,
      by simp [Expansion.load, Op.target?], by simp [Expansion.load, Op.placed?]⟩
  · exact ⟨rfl, by simpa [Expansion.store, Op.locals, finish] using laid.allotted.slot_lt known,
      by simp [Expansion.store, Op.target?], by simp [Expansion.store, Op.placed?]⟩

theorem placements (emission : Emission) :
    emission.finish.function.placements = emission.ops.toList.filterMap Op.placed? :=
  Expansion.placed_expand emission.bindings emission.ops.toList

theorem closed (laid : emission.Laid graph) :
    emission.finish.function.ops.back?.any Op.isTerminator = true ↔ graph.blocks ≠ [] := by
  obtain ⟨loads, codes, takes, split, blocks⟩ := laid.code
  have back : emission.finish.function.ops.back? =
      (Expansion.expand emission.bindings emission.ops.toList).getLast? := by
    rw [← Array.getLast?_toList]
    rfl
  rw [back]
  constructor
  · intro closed none
    obtain rfl : codes = [] := by
      rw [none] at blocks
      exact List.forall₂_nil_left_iff.mp blocks
    obtain ⟨op, last, terminator⟩ := (Option.any_eq_true _ _).mp closed
    rcases Expansion.mem_expand (List.mem_of_getLast? last) with ⟨origin, _⟩ | ⟨binding, _, rfl | rfl⟩
    · rw [split] at origin
      rcases List.mem_append.mp origin with early | late
      · obtain ⟨_, _, rfl⟩ := takes.loadArg op early
        cases terminator
      · obtain rfl : op = .preload := by simpa using late
        cases terminator
    · cases terminator
    · cases terminator
  · intro nonempty
    refine Expansion.last_expand emission.bindings ?_
    have apart : loads ++ Op.preload :: codes.flatten = (loads ++ [.preload]) ++ codes.flatten := by simp
    obtain ⟨op, found, terminator⟩ := (Option.any_eq_true _ _).mp (last_of_blocks blocks nonempty)
    rw [split, apart, List.getLast?_append, found]
    exact congrArg some terminator

/-- The function of a graph passes its check exactly if the graph has blocks and no two of them one address. -/
theorem wellFormed_iff (laid : emission.Laid graph) :
    emission.finish.function.WellFormed ↔ graph.blocks ≠ [] ∧ (graph.blocks.map Guest.Block.address).Nodup := by
  constructor
  · intro formed
    refine ⟨laid.closed.mp formed.closed, ?_⟩
    have once := formed.once
    rw [placements, laid.placed.nodup_iff] at once
    exact List.Nodup.of_map _ (List.Nodup.of_append_left once)
  · rintro ⟨nonempty, distinct⟩
    have placed := laid.placed_range distinct
    refine ⟨laid.knows ?_, ?_, ?_, laid.closed.mpr nonempty⟩
    · intro label member
      exact List.mem_range.mp (placed.mem_iff.mp member)
    · rw [placements, placed.nodup_iff]
      exact List.nodup_range
    · intro label small
      rw [placements, placed.mem_iff]
      exact List.mem_range.mpr small

end Laid

end Emission
end Dynarec
