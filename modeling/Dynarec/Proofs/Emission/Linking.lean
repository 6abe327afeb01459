import Dynarec.Proofs.Emission.Callees
import Dynarec.Proofs.Emission.Validity

/-!
The targets of the calls that are made in place.
-/
namespace Dynarec
namespace Emission
open Ir

/-- Calls in place are to addresses that can be called so. -/
def CallsLinkable (emission : Emission) (op : Op) : Prop :=
  ∀ dst target, op = .call dst target → emission.linkable target = true

/-- The way on neither calls nor loads a register by itself. -/
theorem Continues.plain {emission : Emission} {target : UInt64} {added : List Op}
    (goes : emission.Continues target added) :
    ∀ op ∈ added, (∀ dst callee, op ≠ .call dst callee) ∧ ∀ slot register, op ≠ .loadRegister slot register := by
  rcases goes with ⟨label, _, rfl⟩ | ⟨_, next, _, rfl⟩ <;> simp

/-- The code of an instruction calls in place what the instruction calls, if that can be called so. -/
theorem CodeOf.calls {emission : Emission} {instruction : Guest.Instruction} {added : List Op}
    (code : emission.CodeOf instruction added) {dst : Local} {target : UInt64} (member : .call dst target ∈ added) :
    instruction.callee? = some target ∧ emission.tier = .tier1 ∧ emission.linkable target = true := by
  unfold CodeOf at code
  cases form : instruction.form <;> simp only [form] at code
  case b =>
    obtain ⟨_, _, goes⟩ := code
    exact absurd rfl ((goes.plain _ member).1 dst target)
  case bEq => obtain ⟨_, _, _, _, ⟨_, _, rfl⟩ | ⟨_, _, _, _, _, _, _, _, rfl⟩⟩ := code <;> simp at member
  case cbnz => obtain ⟨_, _, _, _, ⟨_, _, rfl⟩ | ⟨_, _, _, _, _, _, _, _, rfl⟩⟩ := code <;> simp at member
  case bl =>
    obtain ⟨link, own, rest, named, _, rfl, goes⟩ := code
    have called : instruction.callee? = some own := by simp [Guest.Instruction.callee?, form, Guest.Form.flow, named]
    have inside : .call dst target ∈ rest := by simpa using member
    split at goes
    · next linkable =>
      obtain ⟨_, _, _, _, behind, _, _, _, _, _, goes, rfl⟩ := goes
      rcases List.mem_append.mp inside with first | last
      · obtain rfl : target = own := by simpa using (by simpa using first : _ ∧ target = own).2
        exact ⟨called, linkable⟩
      · exact absurd rfl ((goes.plain _ last).1 dst target)
    · exact absurd rfl ((goes.plain _ inside).1 dst target)
  all_goals grind

/-- All calls in place are calls of the graph. -/
theorem Laid.calls {emission : Emission} {graph : Guest.Graph} (laid : emission.Laid graph) {dst : Local}
    {target : UInt64} (member : .call dst target ∈ emission.finish.function.ops.toList) :
    target ∈ graph.callees ∧ emission.tier = .tier1 ∧ emission.linkable target = true := by
  have emitted : ∀ op ∈ emission.ops.toList, op = .call dst target →
      target ∈ graph.callees ∧ emission.tier = .tier1 ∧ emission.linkable target = true := by
    refine laid.forall_ops ?_ (by simp) (by simp) ?_ ?_
    · intro added takes op inside
      obtain ⟨_, _, rfl⟩ := takes.loadArg op inside
      simp
    · rintro instruction inside added code _ own rfl
      obtain ⟨called, linked⟩ := code.calls own
      obtain ⟨block, held, inBlock⟩ := List.mem_flatMap.mp inside
      exact ⟨List.mem_flatMap.mpr ⟨block, held, List.mem_filterMap.mpr ⟨instruction, inBlock, called⟩⟩, linked⟩
    · rintro goal added goes _ inside rfl
      exact absurd rfl ((goes.plain _ inside).1 dst target)
  exact emitted _ (Expansion.call_mem_expand.mp member) rfl

theorem Laid.callsLinkable {emission : Emission} {graph : Guest.Graph} (laid : emission.Laid graph) :
    ∀ op ∈ emission.finish.function.ops.toList, emission.CallsLinkable op := by
  rintro _ member dst target rfl
  exact (laid.calls member).2.2

end Emission
end Dynarec
