import Dynarec.Proofs.Emission.Validity

/-!
Where labels stand. A function is well-formed if it has no placeholder, names only locals and labels of its own, places
each of its labels at exactly one position and ends in a jump or a return; a jump then leads to the one position of its
label.
-/
namespace Dynarec
namespace Ir.Function

variable {function : Function} {label : Label} {position : Nat} {op : Op}

theorem placed?_eq_some : op.placed? = some label ↔ op = .place label := by
  cases op <;> simp [Op.placed?]

theorem target?_eq_some : op.target? = some label ↔ op = .jump label ∨ ∃ cond, op = .branchIf cond label := by
  cases op <;> simp [Op.target?]

theorem isTerminator_iff : op.isTerminator = true ↔ (∃ label, op = .jump label) ∨ ∃ next, op = .ret next := by
  cases op <;> simp [Op.isTerminator]

theorem isPlaceholder_eq_false : op.isPlaceholder = false ↔ op ≠ .preload ∧ op ≠ .spill ∧ op ≠ .reload := by
  cases op <;> simp [Op.isPlaceholder]

theorem mem_ops_iff : op ∈ function.ops.toList ↔ ∃ position : Nat, function.ops[position]? = some op := by
  rw [List.mem_iff_getElem?]
  simp only [Array.getElem?_toList]

theorem mem_placements : label ∈ function.placements ↔ ∃ position : Nat, function.ops[position]? = some (.place label) := by
  unfold placements
  simp only [List.mem_filterMap, placed?_eq_some, exists_eq_right, mem_ops_iff]

theorem nodup_placements_iff : function.placements.Nodup ↔ ∀ (label : Label) (first second : Nat),
    function.ops[first]? = some (.place label) → function.ops[second]? = some (.place label) → first = second := by
  unfold placements List.Nodup
  rw [List.pairwise_filterMap, List.pairwise_iff_getElem]
  constructor
  · intro apart label first second here there
    by_contra different
    obtain ⟨firstBound, here⟩ := Array.getElem?_eq_some_iff.mp here
    obtain ⟨secondBound, there⟩ := Array.getElem?_eq_some_iff.mp there
    rcases Nat.lt_or_gt_of_ne different with before | behind
    · refine apart first second firstBound secondBound before label ?_ label ?_ rfl
      · simpa using placed?_eq_some.mpr here
      · simpa using placed?_eq_some.mpr there
    · refine apart second first secondBound firstBound behind label ?_ label ?_ rfl
      · simpa using placed?_eq_some.mpr there
      · simpa using placed?_eq_some.mpr here
  · rintro same first second firstBound secondBound before label here _ there rfl
    have one : function.ops[first]? = some (.place label) := by
      rw [← Array.getElem?_toList, List.getElem?_eq_getElem firstBound, placed?_eq_some.mp here]
    have other : function.ops[second]? = some (.place label) := by
      rw [← Array.getElem?_toList, List.getElem?_eq_getElem secondBound, placed?_eq_some.mp there]
    exact before.ne (same label first second one other)

theorem place_of_placement (placed : function.placement? label = some position) :
    function.ops[position]? = some (.place label) := by
  obtain ⟨bound, holds, _⟩ := Array.findIdx?_eq_some_iff_getElem.mp placed
  rw [Array.getElem?_eq_getElem bound, Option.some.injEq, ← placed?_eq_some]
  simpa using holds

theorem placement_of_place (once : function.placements.Nodup)
    (here : function.ops[position]? = some (.place label)) : function.placement? label = some position := by
  obtain ⟨bound, there⟩ := Array.getElem?_eq_some_iff.mp here
  refine Array.findIdx?_eq_some_iff_getElem.mpr ⟨bound, by simp [there, Op.placed?], ?_⟩
  intro earlier before found
  have place : function.ops[earlier]? = some (.place label) := by
    rw [Array.getElem?_eq_getElem (before.trans bound), Option.some.injEq, ← placed?_eq_some]
    simpa using found
  exact before.ne (nodup_placements_iff.mp once label earlier position place here)

/-- A label of a well-formed function is placed at one position, its placement. -/
theorem WellFormed.placement (wellFormed : function.WellFormed) (known : label < function.labels) :
    ∃ position, function.placement? label = some position ∧ function.ops[position]? = some (.place label) ∧
      ∀ other : Nat, function.ops[other]? = some (.place label) → other = position := by
  obtain ⟨position, here⟩ := mem_placements.mp (wellFormed.everywhere label known)
  exact ⟨position, placement_of_place wellFormed.once here, here,
    fun other there => nodup_placements_iff.mp wellFormed.once label other position there here⟩

theorem back?_any_isTerminator_iff : function.ops.back?.any Op.isTerminator = true ↔
    (∃ label, function.ops.back? = some (.jump label)) ∨ ∃ next, function.ops.back? = some (.ret next) := by
  cases function.ops.back? with
  | none => simp
  | some op => simpa using isTerminator_iff

/-- The check passes a function exactly if it has no placeholder, all locals and labels it names are its own, each of its
labels is placed at exactly one position, and the last operation is a jump or a return. -/
theorem validate_iff_placed : function.validate = .ok () ↔
    (∀ op ∈ function.ops.toList, op ≠ .preload ∧ op ≠ .spill ∧ op ≠ .reload) ∧
      (∀ op ∈ function.ops.toList, ∀ slot ∈ op.locals, slot < function.locals.size) ∧
      (∀ op ∈ function.ops.toList, ∀ label,
        op = .place label ∨ op = .jump label ∨ (∃ cond, op = .branchIf cond label) → label < function.labels) ∧
      (∀ label < function.labels, ∃! position : Nat, function.ops[position]? = some (.place label)) ∧
      ((∃ label, function.ops.back? = some (.jump label)) ∨ ∃ next, function.ops.back? = some (.ret next)) := by
  rw [validate_iff, ← back?_any_isTerminator_iff]
  constructor
  · intro wellFormed
    refine ⟨fun op member => isPlaceholder_eq_false.mp (wellFormed.knows op member).expanded,
      fun op member => (wellFormed.knows op member).locals, ?_, ?_, wellFormed.closed⟩
    · rintro op member label (place | target)
      · exact (wellFormed.knows op member).places label (placed?_eq_some.mpr place)
      · exact (wellFormed.knows op member).targets label (target?_eq_some.mpr target)
    · intro label known
      obtain ⟨position, _, here, only⟩ := wellFormed.placement known
      exact ⟨position, here, only⟩
  · rintro ⟨expanded, locals, labels, once, closed⟩
    refine ⟨fun op member => ⟨isPlaceholder_eq_false.mpr (expanded op member), locals op member, ?_, ?_⟩, ?_, ?_, closed⟩
    · intro label target
      exact labels op member label (.inr (target?_eq_some.mp target))
    · intro label place
      exact labels op member label (.inl (placed?_eq_some.mp place))
    · refine nodup_placements_iff.mpr fun label first second here there => ?_
      have known : label < function.labels := labels _ (mem_ops_iff.mpr ⟨first, here⟩) label (.inl rfl)
      exact (once label known).unique here there
    · intro label known
      exact mem_placements.mpr (once label known).exists

end Ir.Function
end Dynarec
