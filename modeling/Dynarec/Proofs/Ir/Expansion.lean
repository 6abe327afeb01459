import Dynarec.Ir.Expansion

/-!
Expansion as a rewriting segment by segment. A map with one entry for each operation and one for the end cuts the expanded
code into what each operation stands for, and the operations leave no choice of such code and map. Expanded code has
nothing left to expand, and the expansions of two lists stand one behind the other.
-/
namespace Dynarec.Ir.Expansion

variable {bindings : List Binding} {ops code : List Op} {op : Op} {starts : List Nat} {position start : Nat}

/-- What an operation stands for where the registers of a table are kept in locals. -/
inductive StandsFor (bindings : List Binding) : Op → List Op → Prop
  | plain {op : Op} (expanded : op.isPlaceholder = false) : StandsFor bindings op [op]
  | preload : StandsFor bindings .preload
      ((bindings.filter (!·.isParam)).map fun binding => .loadRegister binding.slot binding.register)
  | spill : StandsFor bindings .spill (bindings.map fun binding => .storeRegister binding.register binding.slot)
  | reload : StandsFor bindings .reload (bindings.map fun binding => .loadRegister binding.slot binding.register)

/-- The code is the operations rewritten one by one, and the map tells where the segment of each starts and where the last
one ends. -/
structure Segmented (bindings : List Binding) (ops code : List Op) (starts : List Nat) : Prop where
  length_eq : starts.length = ops.length + 1
  first : starts.head? = some 0
  ordered : starts.Pairwise (· ≤ ·)
  last : starts.getLast? = some code.length
  segment : ∀ (position : Nat) (op : Op), ops[position]? = some op → ∃ start stop,
    starts[position]? = some start ∧ starts[position + 1]? = some stop ∧
      StandsFor bindings op (code.extract start stop)

theorem standsFor_iff : StandsFor bindings op code ↔ code = expandOp bindings op := by
  constructor
  · intro stands
    cases stands with
    | plain expanded =>
      cases op with
      | preload | spill | reload => cases expanded
      | _ => rfl
    | _ => rfl
  · rintro rfl
    cases op with
    | preload => exact .preload
    | spill => exact .spill
    | reload => exact .reload
    | _ => exact .plain rfl

/-! ## Operations of the expansion -/

/-- An operation of the expansion was there before, or moves a register to or from its local. -/
theorem mem_expand (member : op ∈ expand bindings ops) :
    (op ∈ ops ∧ op.isPlaceholder = false) ∨ ∃ binding ∈ bindings, op = load binding ∨ op = store binding := by
  obtain ⟨origin, inside, expanded⟩ := List.mem_flatMap.mp member
  unfold expandOp at expanded
  split at expanded
  · obtain ⟨binding, known, rfl⟩ := List.mem_map.mp expanded
    exact .inr ⟨binding, (List.mem_filter.mp known).1, .inl rfl⟩
  · obtain ⟨binding, known, rfl⟩ := List.mem_map.mp expanded
    exact .inr ⟨binding, known, .inr rfl⟩
  · obtain ⟨binding, known, rfl⟩ := List.mem_map.mp expanded
    exact .inr ⟨binding, known, .inl rfl⟩
  · obtain rfl := List.mem_singleton.mp expanded
    refine .inl ⟨inside, ?_⟩
    cases op <;> simp_all [Op.isPlaceholder]

theorem plain_of_mem_expand (member : op ∈ expand bindings ops) : op.isPlaceholder = false := by
  rcases mem_expand member with ⟨_, plain⟩ | ⟨binding, _, rfl | rfl⟩
  · exact plain
  · rfl
  · rfl

theorem call_mem_expand {dst : Local} {target : UInt64} :
    .call dst target ∈ expand bindings ops ↔ .call dst target ∈ ops := by
  constructor
  · intro member
    rcases mem_expand member with ⟨origin, _⟩ | ⟨binding, _, same | same⟩
    · exact origin
    · cases same
    · cases same
  · exact fun member => List.mem_flatMap.mpr ⟨_, member, List.mem_singleton_self _⟩

theorem placed_expand (bindings : List Binding) (ops : List Op) :
    (expand bindings ops).filterMap Op.placed? = ops.filterMap Op.placed? := by
  induction ops with
  | nil => rfl
  | cons op rest ih =>
    have loads : ∀ some : List Binding, (some.map load).filterMap Op.placed? = [] := by
      intro some
      simp [List.filterMap_eq_nil_iff, load, Op.placed?]
    have stores : (bindings.map store).filterMap Op.placed? = [] := by
      simp [List.filterMap_eq_nil_iff, store, Op.placed?]
    have first : (expandOp bindings op).filterMap Op.placed? = [op].filterMap Op.placed? := by
      cases op <;> simp [expandOp, loads, stores, Op.placed?]
    rw [expand_cons, List.filterMap_append, first, ih, ← List.filterMap_append]
    rfl

theorem last_expand (bindings : List Binding) (ends : ops.getLast?.map Op.isTerminator = some true) :
    (expand bindings ops).getLast?.any Op.isTerminator = true := by
  obtain ⟨op, last, terminator⟩ := Option.map_eq_some_iff.mp ends
  obtain ⟨front, rfl⟩ := List.getLast?_eq_some_iff.mp last
  have alone : expand bindings [op] = [op] := by
    cases op <;> simp_all [expand, expandOp, Op.isTerminator]
  rw [expand_append, alone]
  simpa using terminator

/-! ## Code without placeholders -/

theorem expandOp_of_plain (plain : op.isPlaceholder = false) : expandOp bindings op = [op] :=
  (standsFor_iff.mp (.plain plain)).symm

theorem expand_of_plain (plain : ∀ op ∈ ops, op.isPlaceholder = false) : expand bindings ops = ops := by
  induction ops with
  | nil => rfl
  | cons op rest ih =>
    obtain ⟨first, others⟩ := List.forall_mem_cons.mp plain
    rw [expand_cons, expandOp_of_plain first, ih others, List.singleton_append]

theorem positions_of_plain (plain : ∀ op ∈ ops, op.isPlaceholder = false) :
    positions bindings start ops = List.range' start (ops.length + 1) := by
  induction ops generalizing start with
  | nil => rfl
  | cons op rest ih =>
    obtain ⟨first, others⟩ := List.forall_mem_cons.mp plain
    rw [positions, expandOp_of_plain first, ih others]
    rfl

/-! ## Positions -/

/-- A position is carried over to the length of what the operations before it expand to. -/
theorem getElem?_positions (bindings : List Binding) (start : Nat) (inside : position ≤ ops.length) :
    (positions bindings start ops)[position]? = some (start + (expand bindings (ops.take position)).length) := by
  induction ops generalizing start position with
  | nil =>
    obtain rfl : position = 0 := by simpa using inside
    rfl
  | cons op rest ih =>
    cases position with
    | zero => rfl
    | succ position =>
      have carried := ih (start + (expandOp bindings op).length) (Nat.le_of_succ_le_succ inside)
      simpa [positions, expand, Nat.add_assoc] using carried

theorem le_of_mem_positions {entry : Nat} (member : entry ∈ positions bindings start ops) : start ≤ entry := by
  induction ops generalizing start with
  | nil => exact Nat.le_of_eq (List.mem_singleton.mp member).symm
  | cons op rest ih =>
    rcases List.mem_cons.mp member with rfl | later
    · exact Nat.le_refl _
    · exact Nat.le_trans (Nat.le_add_right _ _) (ih later)

theorem pairwise_positions (bindings : List Binding) (start : Nat) (ops : List Op) :
    (positions bindings start ops).Pairwise (· ≤ ·) := by
  induction ops generalizing start with
  | nil => exact List.pairwise_singleton _ _
  | cons op rest ih =>
    exact .cons (fun entry later => Nat.le_trans (Nat.le_add_right _ _) (le_of_mem_positions later)) (ih _)

theorem map_add_positions (bindings : List Binding) (distance start : Nat) (ops : List Op) :
    (positions bindings start ops).map (distance + ·) = positions bindings (distance + start) ops := by
  induction ops generalizing start with
  | nil => rfl
  | cons op rest ih => rw [positions, List.map_cons, ih, ← Nat.add_assoc, positions]

/-- The end of the first list is where the second one starts. -/
theorem positions_append (bindings : List Binding) (start : Nat) (front back : List Op) :
    positions bindings start (front ++ back) = (positions bindings start front).dropLast ++
      positions bindings (start + (expand bindings front).length) back := by
  induction front generalizing start with
  | nil => rfl
  | cons op rest ih =>
    have others : positions bindings (start + (expandOp bindings op).length) rest ≠ [] :=
      List.ne_nil_of_length_eq_add_one (length_positions _ _ _)
    rw [List.cons_append, positions, ih, positions, List.dropLast_cons_of_ne_nil others, expand_cons,
      List.length_append, Nat.add_assoc, List.cons_append]

/-! ## Segments -/

theorem expand_take_succ (bindings : List Binding) (here : ops[position]? = some op) :
    expand bindings (ops.take (position + 1)) = expand bindings (ops.take position) ++ expandOp bindings op := by
  rw [List.take_add_one, here, expand_append]
  exact congrArg _ (List.append_nil _)

/-- Behind what the operations before it expand to stands what an operation expands to. -/
theorem extract_expand (bindings : List Binding) (here : ops[position]? = some op) :
    (expand bindings ops).extract (expand bindings (ops.take position)).length
      (expand bindings (ops.take (position + 1))).length = expandOp bindings op := by
  have whole : expand bindings ops = expand bindings (ops.take position) ++
      (expandOp bindings op ++ expand bindings (ops.drop (position + 1))) := by
    rw [← List.append_assoc, ← expand_take_succ bindings here, ← expand_append, List.take_append_drop]
  rw [whole, expand_take_succ bindings here, List.length_append]
  simp

theorem segmented (bindings : List Binding) (ops : List Op) :
    Segmented bindings ops (expand bindings ops) (positions bindings 0 ops) where
  length_eq := length_positions bindings 0 ops
  first := by cases ops <;> rfl
  ordered := pairwise_positions bindings 0 ops
  last := by
    rw [List.getLast?_eq_getElem?, length_positions, Nat.add_sub_cancel,
      getElem?_positions bindings 0 (Nat.le_refl _), List.take_length, Nat.zero_add]
  segment position op here := by
    have inside : position < ops.length := (List.getElem?_eq_some_iff.mp here).1
    refine ⟨_, _, getElem?_positions bindings 0 (Nat.le_of_lt inside), getElem?_positions bindings 0 inside, ?_⟩
    rw [Nat.zero_add, Nat.zero_add, extract_expand bindings here]
    exact standsFor_iff.mpr rfl

namespace Segmented

theorem le_length (segmented : Segmented bindings ops code starts) (member : start ∈ starts) : start ≤ code.length := by
  obtain ⟨front, rfl⟩ := List.getLast?_eq_some_iff.mp segmented.last
  rcases List.mem_append.mp member with early | late
  · exact (List.pairwise_append.mp segmented.ordered).2.2 start early _ (List.mem_singleton_self _)
  · exact Nat.le_of_eq (List.mem_singleton.mp late)

/-- Before the segment of an operation stands what the operations before it expand to. -/
theorem take_eq (segmented : Segmented bindings ops code starts) (inside : position ≤ ops.length) :
    starts[position]? = some (expand bindings (ops.take position)).length ∧
      code.take (expand bindings (ops.take position)).length = expand bindings (ops.take position) := by
  induction position with
  | zero =>
    refine ⟨?_, rfl⟩
    rw [← List.head?_eq_getElem?, segmented.first]
    rfl
  | succ position ih =>
    obtain ⟨here, before⟩ := ih (Nat.le_of_succ_le inside)
    have found : ops[position]? = some ops[position] := List.getElem?_eq_getElem inside
    obtain ⟨start, stop, starting, stopping, stands⟩ := segmented.segment position _ found
    obtain rfl : (expand bindings (ops.take position)).length = start := Option.some.inj (here.symm.trans starting)
    have bound : stop ≤ code.length := segmented.le_length (List.mem_of_getElem? stopping)
    have ordered : (expand bindings (ops.take position)).length ≤ stop := by
      obtain ⟨first, here⟩ := List.getElem?_eq_some_iff.mp here
      obtain ⟨second, stopping⟩ := List.getElem?_eq_some_iff.mp stopping
      rw [← here, ← stopping]
      exact List.pairwise_iff_getElem.mp segmented.ordered _ _ first second (Nat.lt_succ_self _)
    have segment := standsFor_iff.mp stands
    have length : (expandOp bindings ops[position]).length = stop - (expand bindings (ops.take position)).length := by
      rw [← segment, List.extract_eq_take_drop, List.length_take, List.length_drop]
      omega
    rw [expand_take_succ bindings found, List.length_append]
    refine ⟨?_, ?_⟩
    · rw [length, Nat.add_sub_cancel' ordered, stopping]
    · rw [List.take_add, before, length, ← List.extract_eq_take_drop, segment]

/-- No other code and no other map segment the operations. -/
theorem unique (segmented : Segmented bindings ops code starts) :
    code = expand bindings ops ∧ starts = positions bindings 0 ops := by
  obtain ⟨ending, whole⟩ := segmented.take_eq (Nat.le_refl _)
  rw [List.take_length] at ending whole
  have length : code.length = (expand bindings ops).length := by
    have last := segmented.last
    rw [List.getLast?_eq_getElem?, segmented.length_eq, Nat.add_sub_cancel, ending] at last
    exact (Option.some.inj last).symm
  refine ⟨?_, List.ext_getElem? fun position => ?_⟩
  · rw [← whole, ← length, List.take_length]
  · by_cases inside : position ≤ ops.length
    · rw [(segmented.take_eq inside).1, getElem?_positions bindings 0 inside, Nat.zero_add]
    · have outside : ops.length + 1 ≤ position := Nat.lt_of_not_le inside
      rw [List.getElem?_eq_none (segmented.length_eq ▸ outside),
        List.getElem?_eq_none (length_positions bindings 0 ops ▸ outside)]

end Segmented

/-- Expansion rewrites segment by segment, and its map is the one that tells the segments. It leaves no placeholder, so
that expanding again, for whatever table, changes nothing; and the expansions of two lists stand one behind the other, with
the map of the second shifted by the length of the first. -/
theorem expand_exact (bindings : List Binding) (ops : List Op) :
    (∀ code starts, Segmented bindings ops code starts ↔
        code = expand bindings ops ∧ starts = positions bindings 0 ops) ∧
      (∀ op ∈ expand bindings ops, op.isPlaceholder = false) ∧
      (∀ again, expand again (expand bindings ops) = expand bindings ops ∧
        positions again 0 (expand bindings ops) = List.range ((expand bindings ops).length + 1)) ∧
      ∀ more, expand bindings (ops ++ more) = expand bindings ops ++ expand bindings more ∧
        positions bindings 0 (ops ++ more) = (positions bindings 0 ops).dropLast ++
          (positions bindings 0 more).map ((expand bindings ops).length + ·) := by
  refine ⟨fun code starts => ⟨Segmented.unique, ?_⟩, fun op => plain_of_mem_expand, fun again => ⟨?_, ?_⟩,
    fun more => ⟨expand_append bindings ops more, ?_⟩⟩
  · rintro ⟨rfl, rfl⟩
    exact segmented bindings ops
  · exact expand_of_plain fun op => plain_of_mem_expand
  · rw [positions_of_plain fun op => plain_of_mem_expand, List.range_eq_range']
  · rw [positions_append, map_add_positions, Nat.add_zero, Nat.zero_add]

/-- Parameters are not loaded up front, so that the first segment and the last one are empty. -/
theorem expand_exact_empty_ends :
    Segmented [⟨.int 0, 0, true⟩, ⟨.int 1, 1, true⟩] [.preload, .spill, .const 2 7, .preload]
        [.storeRegister (.int 0) 0, .storeRegister (.int 1) 1, .const 2 7] [0, 0, 2, 3, 3] ∧
      .const 2 7 ∈ expand [⟨.int 0, 0, true⟩, ⟨.int 1, 1, true⟩] [.preload, .spill, .const 2 7, .preload] ∧
      Op.isPlaceholder (.const 2 7) = false := by
  obtain ⟨segments, plain, _⟩ := expand_exact [⟨.int 0, 0, true⟩, ⟨.int 1, 1, true⟩]
    [.preload, .spill, .const 2 7, .preload]
  exact ⟨(segments _ _).mpr ⟨by decide, by decide⟩, by decide, plain _ (by decide)⟩

end Dynarec.Ir.Expansion
