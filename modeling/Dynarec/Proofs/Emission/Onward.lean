import Dynarec.Proofs.Builder
import Dynarec.Proofs.Ir.Onward

/-!
Tier-0 code only moves on. Blocks have labels at that tier too, but no address is continued at by a label, so that all
that branches is what skips a way out, to the label behind it.
-/
namespace Dynarec
namespace Emission
open Ir

variable {emission : Emission} {graph : Guest.Graph} {added : List Op}

theorem jumpTarget?_tier0 (tier : emission.tier = .tier0) (target : UInt64) : emission.jumpTarget? target = none := by
  unfold jumpTarget?
  rw [tier]

theorem Continues.onward {target : UInt64} (tier : emission.tier = .tier0) (goes : emission.Continues target added) :
    Onward added := by
  obtain ⟨label, found, _⟩ | ⟨_, next, _, rfl⟩ := goes
  · rw [jumpTarget?_tier0 tier] at found
    cases found
  · simp [Onward, Op.Passes]

theorem ContinuesIf.onward {cond : Local} {target : UInt64} (tier : emission.tier = .tier0)
    (goes : emission.ContinuesIf cond target added) : Onward added := by
  obtain ⟨label, found, _⟩ | ⟨_, nought, untaken, next, skip, _, _, _, rfl⟩ := goes
  · rw [jumpTarget?_tier0 tier] at found
    cases found
  · simp [Onward, Op.Passes]

theorem CodeOf.onward {instruction : Guest.Instruction} (tier : emission.tier = .tier0)
    (code : emission.CodeOf instruction added) : Onward added := by
  unfold CodeOf at code
  cases form : instruction.form <;> simp only [form] at code
  case b =>
    obtain ⟨target, _, goes⟩ := code
    exact goes.onward tier
  case bEq =>
    obtain ⟨flag, target, _, _, goes⟩ := code
    exact goes.onward tier
  case cbnz =>
    obtain ⟨value, target, _, _, goes⟩ := code
    exact goes.onward tier
  case bl =>
    obtain ⟨link, target, rest, _, _, rfl, goes⟩ := code
    have early : ¬ (emission.tier = .tier1 ∧ emission.linkable target = true) := by simp [tier]
    rw [if_neg early] at goes
    exact ⟨trivial, goes.onward tier⟩
  case bloat =>
    obtain ⟨slot, _, rfl⟩ := code
    refine onward_of_plain fun op member => ?_
    obtain rfl := (List.mem_replicate.mp member).2
    simp [Op.target?]
  -- the other forms transfer no control
  all_goals
    refine onward_of_plain fun op member => ?_
    grind [Op.target?]

namespace Laid

theorem onward (laid : emission.Laid graph) (tier : emission.tier = .tier0) : Onward emission.ops.toList := by
  refine laid.of_pieces trivial (fun _ _ => Onward.append) (fun added takes => ?_) ⟨trivial, trivial⟩
    (fun _ => ⟨trivial, trivial⟩) (fun _ _ _ code => code.onward tier) fun _ _ goes => goes.onward tier
  refine onward_of_plain fun op member => ?_
  obtain ⟨_, _, rfl⟩ := takes.loadArg op member
  simp [Op.target?]

theorem advances (laid : emission.Laid graph) (tier : emission.tier = .tier0) :
    emission.finish.function.Advances := (laid.onward tier).expand.advances

end Laid
end Emission
end Dynarec
