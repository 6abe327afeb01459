import Dynarec.Proofs.Ir.Placement

/-!
Code that only moves on: it has no jump and no call, and each of its branches leads to a label that stands behind it.
Pieces of such code make such code, and expansion keeps it.
-/
namespace Dynarec
namespace Ir

/-- What keeps an operation from going anywhere but on: it neither jumps nor calls, and branches to a label behind it. -/
def Op.Passes (behind : List Op) : Op → Prop
  | .jump _ | .call _ _ => False
  | .branchIf _ label => .place label ∈ behind
  | _ => True

def Onward : List Op → Prop
  | [] => True
  | op :: behind => op.Passes behind ∧ Onward behind

variable {op : Op} {ops behind front back : List Op} {bindings : List Binding}

theorem Op.Passes.mono {more : List Op} (passes : op.Passes behind) (sub : behind ⊆ more) : op.Passes more := by
  cases op with
  | branchIf cond label => exact sub passes
  | jump label => exact passes
  | call dst target => exact passes
  | _ => trivial

theorem Op.passes_of_plain (straight : op.target? = none) (callless : ∀ dst target, op ≠ .call dst target) :
    op.Passes behind := by
  cases op with
  | jump label => cases straight
  | branchIf cond label => cases straight
  | call dst target => exact absurd rfl (callless dst target)
  | _ => trivial

theorem onward_of_plain (plain : ∀ op ∈ ops, op.target? = none ∧ ∀ dst target, op ≠ .call dst target) :
    Onward ops := by
  induction ops with
  | nil => trivial
  | cons op rest ih =>
    obtain ⟨first, others⟩ := List.forall_mem_cons.mp plain
    exact ⟨Op.passes_of_plain first.1 first.2, ih others⟩

theorem Onward.append (early : Onward front) (late : Onward back) : Onward (front ++ back) := by
  induction front with
  | nil => exact late
  | cons op rest ih => exact ⟨early.1.mono (List.subset_append_left rest back), ih early.2⟩

theorem Onward.expand (onward : Onward ops) : Onward (Expansion.expand bindings ops) := by
  induction ops with
  | nil => trivial
  | cons op rest ih =>
    rw [Expansion.expand_cons]
    cases op with
    | preload | reload | spill =>
      refine .append (onward_of_plain fun op member => ?_) (ih onward.2)
      obtain ⟨binding, _, rfl⟩ := List.mem_map.mp member
      simp [Expansion.load, Expansion.store, Op.target?]
    | branchIf cond label =>
      refine ⟨List.mem_flatMap.mpr ⟨.place label, onward.1, ?_⟩, ih onward.2⟩
      simp [Expansion.expandOp]
    | _ => exact ⟨onward.1, ih onward.2⟩

theorem Onward.passes (onward : Onward ops) {position : Nat} (here : ops[position]? = some op) :
    op.Passes (ops.drop (position + 1)) := by
  induction ops generalizing position with
  | nil => simp at here
  | cons first rest ih =>
    cases position with
    | zero =>
      obtain rfl : first = op := by simpa using here
      exact onward.1
    | succ position => exact ih onward.2 (by simpa using here)

/-- Nothing in such a function leads back. -/
structure Function.Advances (function : Function) : Prop where
  jumpless : ∀ label, .jump label ∉ function.ops.toList
  callless : ∀ dst target, .call dst target ∉ function.ops.toList
  ahead : ∀ (position : Nat) cond label, function.ops[position]? = some (.branchIf cond label) →
    ∃ later, position < later ∧ function.ops[later]? = some (.place label)

theorem Onward.advances {function : Function} (onward : Onward function.ops.toList) : function.Advances := by
  have passes : ∀ (op : Op) (position : Nat), function.ops[position]? = some op →
      op.Passes (function.ops.toList.drop (position + 1)) := by
    intro op position here
    exact onward.passes (by rwa [Array.getElem?_toList])
  refine ⟨fun label member => ?_, fun dst target member => ?_, fun position cond label here => ?_⟩
  · obtain ⟨position, here⟩ := Function.mem_ops_iff.mp member
    exact passes _ position here
  · obtain ⟨position, here⟩ := Function.mem_ops_iff.mp member
    exact passes _ position here
  · obtain ⟨distance, there⟩ := List.mem_iff_getElem?.mp (passes _ position here)
    rw [List.getElem?_drop, Array.getElem?_toList] at there
    exact ⟨position + 1 + distance, by omega, there⟩

end Ir
end Dynarec
