import Dynarec.Proofs.Emission.Validity
import Dynarec.Proofs.Ir.Assignment

/-!
Locals are written before they are read. The prologue writes the local of every register in use; from there on these
are known wherever control can come, and each piece of code writes whatever other locals it reads.
-/
namespace Dynarec
namespace Emission
open Ir

/-- The locals that hold registers. -/
def slots (emission : Emission) : Set Local := {slot | slot ∈ emission.bindings.map Binding.slot}

variable {emission : Emission}

theorem Binds.mem_slots {register : Register} {slot : Local} (bound : emission.Binds register slot) :
    slot ∈ emission.slots := by
  obtain ⟨binding, member, _, rfl⟩ := bound
  exact List.mem_map_of_mem member

theorem Continues.assigned {target : UInt64} {added : List Op} (goes : emission.Continues target added) :
    Assigned emission.slots emission.slots added := by
  rcases goes with ⟨label, _, rfl⟩ | ⟨_, next, _, rfl⟩
  · simp [Assigned, Op.ready_iff, Op.reads, Op.dst?, Op.locals]
  · simp [Assigned, Op.ready_iff, Op.reads, Op.dst?, Op.locals, Op.meets, Op.learns, Op.placed?]

theorem ContinuesIf.assigned {cond : Local} {target : UInt64} {added : List Op}
    (goes : emission.ContinuesIf cond target added) (known : cond ∈ emission.slots) :
    Assigned emission.slots emission.slots added := by
  rcases goes with ⟨label, _, rfl⟩ | ⟨_, nought, untaken, next, skip, _, _, _, rfl⟩
  · simp [Assigned, Op.ready_iff, Op.reads, Op.dst?, Op.locals, known]
  · simp [Assigned, Op.ready_iff, Op.reads, Op.dst?, Op.locals, Op.meets, Op.learns, Op.placed?, known]
    exact ⟨fun _ member => .inr (.inr member), fun _ member => .inr (.inr (.inr member))⟩

theorem CallsInPlace.assigned {target back : UInt64} {added : List Op}
    (calls : emission.CallsInPlace target back added) : Assigned emission.slots emission.slots added := by
  obtain ⟨next, expected, returned, resume, rest, _, _, _, _, _, goes, rfl⟩ := calls
  refine Assigned.append ?_ subset_rfl goes.assigned
  simp [Assigned, Op.ready_iff, Op.reads, Op.dst?, Op.locals, Op.meets, Op.learns, Op.placed?]
  exact fun _ member => .inr (.inr (.inr member))

theorem CodeOf.assigned {instruction : Guest.Instruction} {added : List Op}
    (code : emission.CodeOf instruction added) : Assigned emission.slots emission.slots added := by
  unfold CodeOf at code
  cases form : instruction.form <;> simp only [form] at code
  case b =>
    obtain ⟨_, _, goes⟩ := code
    exact goes.assigned
  case bEq | cbnz =>
    obtain ⟨_, _, _, bound, goes⟩ := code
    exact goes.assigned bound.mem_slots
  case bl =>
    obtain ⟨slot, _, rest, _, bound, rfl, goes⟩ := code
    have behind : Assigned emission.slots emission.slots rest := by
      split at goes
      · exact goes.assigned
      · exact goes.assigned
    refine ⟨?_, behind.mono (Op.subset_learns rfl)⟩
    simp [Op.ready_iff, Op.reads, Op.dst?, Op.locals, Op.meets]
  case bloat =>
    obtain ⟨slot, bound, rfl⟩ := code
    induction (instruction.operand 0).toNat with
    | zero => trivial
    | succ count ih =>
      refine ⟨?_, Assigned.mono ih (Op.subset_learns rfl)⟩
      simpa [Op.ready_iff, Op.reads, Op.dst?, Op.locals, Op.meets] using bound.mem_slots
  case nop =>
    rw [code]
    trivial
  case movz =>
    obtain ⟨dst, _, rfl⟩ := code
    simp [Assigned, Op.ready_iff, Op.reads, Op.dst?, Op.locals, Op.meets]
  case ret =>
    obtain ⟨next, bound, rfl⟩ := code
    simp [Assigned, Op.ready_iff, Op.reads, Op.dst?, Op.locals, Op.meets, Op.learns, Op.placed?, bound.mem_slots]
  case cmpImm =>
    obtain ⟨lhs, rhs, dst, left, _, _, rfl⟩ := code
    simp [Assigned, Op.ready_iff, Op.reads, Op.dst?, Op.locals, Op.meets, Op.learns, Op.placed?, left.mem_slots]
  case umovLo =>
    obtain ⟨src, scratch, dst, source, _, _, rfl⟩ := code
    simp [Assigned, Op.ready_iff, Op.reads, Op.dst?, Op.locals, Op.meets, Op.learns, Op.placed?, source.mem_slots]
  case cas =>
    obtain ⟨address, expected, desired, dst, place, old, new, _, rfl⟩ := code
    simp [Assigned, Op.ready_iff, Op.reads, Op.dst?, Op.locals, Op.meets, place.mem_slots, old.mem_slots, new.mem_slots]
  case add | sub | insPair | eorV =>
    obtain ⟨lhs, rhs, dst, left, right, _, rfl⟩ := code
    simp [Assigned, Op.ready_iff, Op.reads, Op.dst?, Op.locals, Op.meets, left.mem_slots, right.mem_slots]
  case addImm | subImm | ldr | str =>
    obtain ⟨first, second, left, right, rfl⟩ := code
    simp [Assigned, Op.ready_iff, Op.reads, Op.dst?, Op.locals, Op.meets, left.mem_slots, right.mem_slots]

theorem assigned_body {instructions : List Guest.Instruction} {bodies : List (List Op)}
    (body : List.Forall₂ emission.CodeOf instructions bodies) :
    Assigned emission.slots emission.slots bodies.flatten := by
  induction body with
  | nil => trivial
  | cons code _ ih => exact code.assigned.append subset_rfl ih

theorem BlockShape.assigned {block : Guest.Block} {added : List Op} (shape : emission.BlockShape block added) :
    Assigned emission.slots emission.slots added := by
  obtain ⟨label, bodies, rest, _, body, rfl, way⟩ := shape
  have onward : Assigned emission.slots emission.slots rest := by
    split at way
    · rw [way]
      trivial
    · exact way.assigned
  refine ⟨⟨by simp [Op.reads, Op.dst?, Op.locals], fun _ => subset_rfl⟩, ?_⟩
  exact (assigned_body body).append subset_rfl onward

theorem assigned_blocks {blocks : List Guest.Block} {codes : List (List Op)}
    (shapes : List.Forall₂ emission.BlockShape blocks codes) :
    Assigned emission.slots emission.slots codes.flatten := by
  induction shapes with
  | nil => trivial
  | cons shape _ ih => exact shape.assigned.append subset_rfl ih

/-- The parameters' locals are written from the arguments. -/
theorem Takes.assigned {word : Nat} {registers : List Register} {added : List Op}
    (takes : emission.Takes word registers added) (sound : emission.Allotted) (base known : Set Local) :
    Assigned base known added ∧ known ⊆ learned base known added ∧
      ∀ binding ∈ emission.bindings, binding.register ∈ registers → binding.slot ∈ learned base known added := by
  induction registers generalizing word added known with
  | nil =>
    obtain rfl : added = [] := takes
    exact ⟨trivial, subset_rfl, by simp⟩
  | cons register rest ih =>
    obtain ⟨slot, later, ⟨own, here, holds, same⟩, rfl, others⟩ := takes
    have ready : (Op.loadArg slot word).Ready base known := ⟨by simp [Op.reads, Op.dst?, Op.locals], by simp [Op.meets]⟩
    obtain ⟨assigned, grows, taken⟩ := ih others ((Op.loadArg slot word).learns base known)
    refine ⟨⟨ready, assigned⟩, (Op.subset_learns rfl).trans grows, ?_⟩
    intro binding member given
    rcases List.mem_cons.mp given with first | more
    · obtain rfl := sound.unique member here (.inr (first.trans holds.symm))
      refine grows ?_
      simp [Op.learns, Op.placed?, Op.dst?, same]
    · exact taken binding member more

/-- The function of a graph reads no local before it is written. -/
theorem Laid.assigned {graph : Guest.Graph} (laid : emission.Laid graph) :
    Assigned emission.slots ∅ emission.finish.function.ops.toList := by
  obtain ⟨loads, codes, takes, split, blocks⟩ := laid.code
  have expanded : emission.finish.function.ops.toList =
      loads ++ ((emission.bindings.filter (!·.isParam)).map Expansion.load ++
        Expansion.expand emission.bindings codes.flatten) := by
    change Expansion.expand emission.bindings emission.ops.toList = _
    rw [split, Expansion.expand_append, takes.unexpanded]
    rfl
  obtain ⟨assigned, _, taken⟩ := takes.assigned laid.allotted emission.slots ∅
  rw [expanded, assigned_append, assigned_loads]
  refine ⟨assigned, (assigned_blocks blocks).expand rfl ?_⟩
  intro slot member
  obtain ⟨binding, known, rfl⟩ := List.mem_map.mp member
  cases isParam : binding.isParam with
  | true => exact .inl (taken binding known (laid.given binding known isParam))
  | false => exact .inr (List.mem_map_of_mem (List.mem_filter.mpr ⟨known, by simp [isParam]⟩))

end Emission
end Dynarec
