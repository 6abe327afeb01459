import Dynarec.Ir.Expansion
import Mathlib

/-!
What code knows of locals. It knows those it has written; a label may be reached from elsewhere, so that behind it code
knows only the locals that hold registers.
-/
namespace Dynarec
namespace Ir
namespace Op

/-- The local an operation writes. -/
def dst? : Op → Option Local
  | .loadArg dst _ | .const dst _ | .move dst _ | .unary _ dst _ | .binary _ dst _ _ | .binaryImm _ dst _ _
  | .compare _ dst _ _ | .select dst _ _ _ | .vector _ dst _ _ | .vectorPack dst _ _ | .vectorExtract dst _ _
  | .loadRegister dst _ | .load _ dst _ | .loadVector dst _ | .cas32 dst _ _ _ | .call dst _ => some dst
  | .storeRegister _ _ | .store _ _ _ | .storeVector _ _ | .place _ | .jump _ | .branchIf _ _ | .ret _
  | .preload | .spill | .reload => none

/-- The locals an operation reads. An operation names the local it writes first. -/
def reads (op : Op) : List Local :=
  match op.dst? with
  | some _ => op.locals.tail
  | none => op.locals

/-- Whether control can come to an operation, or go on from it, by a label, or it reads the locals of all registers. -/
def meets : Op → Bool
  | .place _ | .jump _ | .branchIf _ _ | .spill => true
  | _ => false

/-- What is known of locals behind an operation, where `base` is known at every label. -/
def learns (base known : Set Local) (op : Op) : Set Local :=
  if op.placed?.isSome then base else known ∪ {slot | slot ∈ op.dst?}

/-- An operation reads only what is known. -/
@[mk_iff] structure Ready (base known : Set Local) (op : Op) : Prop where
  reads : ∀ slot ∈ op.reads, slot ∈ known
  meets : op.meets = true → base ⊆ known

end Op

/-- Operations read only what is known of locals. -/
def Assigned (base known : Set Local) : List Op → Prop
  | [] => True
  | op :: rest => op.Ready base known ∧ Assigned base (op.learns base known) rest

/-- What is known of locals behind operations. -/
def learned (base known : Set Local) (ops : List Op) : Set Local := ops.foldl (Op.learns base) known

variable {base known more : Set Local} {op : Op} {ops front back : List Op}

theorem Op.Ready.mono (ready : op.Ready base known) (grows : known ⊆ more) : op.Ready base more :=
  ⟨fun slot member => grows (ready.reads slot member), fun meets => (ready.meets meets).trans grows⟩

theorem Op.learns_mono (op : Op) (grows : known ⊆ more) : op.learns base known ⊆ op.learns base more := by
  unfold learns
  split
  · exact subset_rfl
  · exact Set.union_subset_union_left _ grows

theorem Op.base_subset_learns (op : Op) (held : base ⊆ known) : base ⊆ op.learns base known := by
  unfold learns
  split
  · exact subset_rfl
  · exact held.trans Set.subset_union_left

theorem Op.subset_learns (bare : op.placed? = none) : known ⊆ op.learns base known := by
  simp [learns, bare]

theorem Op.Ready.learns_subset (ready : op.Ready base known) :
    op.learns base known ⊆ known ∪ {slot | slot ∈ op.dst?} := by
  cases op with
  | place label => exact (ready.meets rfl).trans Set.subset_union_left
  | _ => exact subset_rfl

theorem Op.meets_of_target {label : Label} (target : label ∈ op.target?) : op.meets = true := by
  cases op <;> first | rfl | cases target

theorem base_subset_learned (held : base ⊆ known) (ops : List Op) : base ⊆ learned base known ops := by
  induction ops generalizing known with
  | nil => exact held
  | cons op rest ih => exact ih (op.base_subset_learns held)

theorem Assigned.mono (assigned : Assigned base known ops) (grows : known ⊆ more) : Assigned base more ops := by
  induction ops generalizing known more with
  | nil => trivial
  | cons op rest ih => exact ⟨assigned.1.mono grows, ih assigned.2 (op.learns_mono grows)⟩

theorem assigned_append : Assigned base known (front ++ back) ↔
    Assigned base known front ∧ Assigned base (learned base known front) back := by
  induction front generalizing known with
  | nil => simp [Assigned, learned]
  | cons op rest ih =>
    rw [List.cons_append, Assigned, ih, Assigned, and_assoc]
    rfl

/-- Where the locals of registers are known, code that needs no more can follow. -/
theorem Assigned.append (assigned : Assigned base known front) (held : base ⊆ known) (next : Assigned base base back) :
    Assigned base known (front ++ back) :=
  assigned_append.mpr ⟨assigned, next.mono (base_subset_learned held front)⟩

/-- Behind a label only the locals of registers are known. -/
theorem Assigned.at_label (assigned : Assigned base known ops) {label : Label}
    (split : ops = front ++ .place label :: back) : Assigned base base (.place label :: back) := by
  rw [split, assigned_append] at assigned
  exact ⟨⟨by simp [Op.reads, Op.dst?, Op.locals], fun _ => subset_rfl⟩, assigned.2.2⟩

theorem assigned_loads (bindings : List Binding) : Assigned base known (bindings.map Expansion.load ++ back) ↔
    Assigned base (known ∪ {slot | slot ∈ bindings.map Binding.slot}) back := by
  induction bindings generalizing known with
  | nil => simp
  | cons binding rest ih =>
    have ready : (Expansion.load binding).Ready base known :=
      ⟨by simp [Expansion.load, Op.reads, Op.dst?, Op.locals], by simp [Expansion.load, Op.meets]⟩
    have learns : (Expansion.load binding).learns base known ∪ {slot | slot ∈ rest.map Binding.slot} =
        known ∪ {slot | slot ∈ (binding :: rest).map Binding.slot} := by
      ext slot
      simp [Expansion.load, Op.learns, Op.placed?, Op.dst?, or_assoc, or_left_comm, eq_comm]
    rw [List.map_cons, List.cons_append, Assigned, ih, learns]
    exact and_iff_right ready

theorem assigned_stores (bindings : List Binding) (held : ∀ binding ∈ bindings, binding.slot ∈ known) :
    Assigned base known (bindings.map Expansion.store ++ back) ↔ Assigned base known back := by
  induction bindings with
  | nil => simp
  | cons binding rest ih =>
    have ready : (Expansion.store binding).Ready base known :=
      ⟨by simpa [Expansion.store, Op.reads, Op.dst?, Op.locals] using held binding (by simp),
        by simp [Expansion.store, Op.meets]⟩
    have learns : (Expansion.store binding).learns base known = known := by
      simp [Expansion.store, Op.learns, Op.placed?, Op.dst?]
    rw [List.map_cons, List.cons_append, Assigned, learns, ih fun other member => held other (by simp [member])]
    exact and_iff_right ready

/-- Expansion keeps code from reading what is not known, where the locals that registers have are `base`. -/
theorem Assigned.expand {bindings : List Binding} (slots : {slot | slot ∈ bindings.map Binding.slot} = base)
    (assigned : Assigned base known ops) (grows : known ⊆ more) :
    Assigned base more (Expansion.expand bindings ops) := by
  induction ops generalizing known more with
  | nil => trivial
  | cons op rest ih =>
    obtain ⟨ready, later⟩ := assigned
    rw [Expansion.expand_cons]
    unfold Expansion.expandOp
    split
    · refine (assigned_loads _).mpr (ih later ?_)
      simpa [Op.learns, Op.placed?, Op.dst?] using grows.trans Set.subset_union_left
    · refine (assigned_stores bindings ?_).mpr (ih later ?_)
      · intro binding member
        refine grows (ready.meets rfl ?_)
        rw [← slots]
        exact List.mem_map_of_mem member
      · simpa [Op.learns, Op.placed?, Op.dst?] using grows
    · refine (assigned_loads bindings).mpr (ih later ?_)
      simpa [Op.learns, Op.placed?, Op.dst?] using grows.trans Set.subset_union_left
    · exact ⟨ready.mono grows, ih later (op.learns_mono grows)⟩

end Ir

end Dynarec
