import Dynarec.Proofs.Interpreter.Safety
import Dynarec.Proofs.Ir.Onward

/-!
Runs of code that only moves on. Every step leads to a later position, so that such a run takes no more steps than the
code has operations, whatever it is given. It comes to a return, unless a read stops it that passes the top of memory.
-/
namespace Dynarec
namespace Interpreter
open Ir

/-- How a run ended: at a return, with the word of its local, or at a read that passed the top of memory. -/
inductive Ended (cache : Cache) (function : Function) (args : List UInt64) (start : Context) :
    Outcome (UInt64 × Context) → Prop
  | ret {last : Frame} {slot : Local} {word : UInt64} {after : Context} :
      Visits cache function args (.start function) start last after →
        function.ops[last.position]? = some (.ret slot) → last.word slot = .ok word →
          Ended cache function args start (.ok (word, after))
  | overflow {last : Frame} {op : Op} {context : Context} :
      Visits cache function args (.start function) start last context →
        function.ops[last.position]? = some op → op.loads = true →
          (∀ call, step call function args last context = .error .overflow) →
            Ended cache function args start (.error .overflow)

variable {function : Function} {args : List UInt64} {frame : Frame} {context : Context} {op : Op} {label : Label}

/-- Reads make no call. -/
theorem step_loads (here : function.ops[frame.position]? = some op) (loads : op.loads = true)
    (call callToo : UInt64 → Context → Outcome (UInt64 × Context)) :
    step call function args frame context = step callToo function args frame context := by
  unfold step
  rw [here]
  cases op with
  | load width dst address => rfl
  | loadVector dst address => rfl
  | _ => cases loads

theorem jumpsTo?_eq_some (jumps : jumpsTo? frame op = some label) :
    op = .jump label ∨ ∃ cond, op = .branchIf cond label := by
  cases op with
  | jump own => exact .inl (by simpa [jumpsTo?] using jumps)
  | branchIf cond own =>
    simp only [jumpsTo?] at jumps
    split at jumps
    · cases jumps
    · exact .inr ⟨cond, by simpa using jumps⟩
  | _ => cases jumps

/-- A branch of such code leads on. -/
theorem lt_of_jumpsTo? (wellFormed : function.WellFormed) (advances : function.Advances) {position target : Nat}
    (here : function.ops[position]? = some op) (jumps : jumpsTo? frame op = some label)
    (placed : function.placement? label = some target) : position < target := by
  have member : op ∈ function.ops.toList := Function.mem_ops_iff.mpr ⟨position, here⟩
  rcases jumpsTo?_eq_some jumps with rfl | ⟨cond, rfl⟩
  · exact absurd member (advances.jumpless label)
  · obtain ⟨later, behind, there⟩ := advances.ahead position cond label here
    obtain ⟨only, found, _, unique⟩ := wellFormed.placement ((wellFormed.knows _ member).targets label rfl)
    obtain rfl : target = only := Option.some.inj (placed.symm.trans found)
    rwa [← unique later there]

/-- From wherever it has got, such code ends within as many steps as there are operations from there on. -/
theorem exec_ended {cache : Cache} {start : Context} (wellFormed : function.WellFormed) (fits : function.SlotsFit)
    (advances : function.Advances) (fuel : Nat) (standing : Standing function frame)
    (visits : Visits cache function args (.start function) start frame context)
    (enough : function.ops.size ≤ frame.position + fuel) :
    Ended cache function args start (exec cache fuel (.compiled function args frame) context) := by
  -- on the bound, which goes down by one while the position goes up by one at least
  induction fuel generalizing frame context with
  | zero =>
    have inside := standing.inside
    omega
  | succ fuel ih =>
    have here := Array.getElem?_eq_getElem standing.inside
    have member := Function.mem_ops_iff.mpr ⟨frame.position, here⟩
    have carried := carried_step (link cache (exec cache fuel)) args context wellFormed fits standing here
    rw [exec]
    cases stepped : step (link cache (exec cache fuel)) function args frame context with
    | ok reached =>
      rw [stepped] at carried
      cases carried with
      | @behind next _ straight goesOn size position =>
        refine ih (standing.step wellFormed fits stepped) (visits.step stepped) ?_
        dsimp only at position
        omega
      | @jump label target jumps placed =>
        refine ih (standing.step wellFormed fits stepped) (visits.step stepped) ?_
        have onward := lt_of_jumpsTo? wellFormed advances here jumps placed
        dsimp only
        omega
      | @ret slot word returns held =>
        rw [returns] at here
        exact .ret visits here held
    | error halt =>
      rw [stepped] at carried
      cases carried with
      | overflow loads =>
        exact .overflow visits here loads fun call => (step_loads here loads call _).trans stepped
      | @called dst target _ calls _ => exact absurd (calls ▸ member) (advances.callless dst target)

end Interpreter
end Dynarec
