import Dynarec.Proofs.Compilation.Builder
import Dynarec.Proofs.Emission.Linking

/-!
Caches with an entry out of sight. Code that makes no call to the entry in place runs from the one cache as it does from
the other.
-/
namespace Dynarec

/-- The cache without what is published at an address. -/
def Cache.hide (hidden : UInt64) (cache : Cache) : Cache := { cache with slots := cache.slots.erase hidden }

/-- Code that has no call of an address in place. -/
def Code.Shuns (address : UInt64) : Code → Prop
  | .compiled function => ∀ dst, .call dst address ∉ function.ops.toList
  | .thunk .. => True
  | .probe .. => False

def Activation.Shuns (address : UInt64) : Activation → Prop
  | .compiled function .. => ∀ dst, .call dst address ∉ function.ops.toList
  | .thunk .. => True
  | .probe .. => False

variable {cache : Cache} {hidden : UInt64}

theorem Cache.get?_hide_self : (cache.hide hidden).get? hidden = none := by
  simp [hide, get?, handle?, slot?]

theorem Cache.get?_hide_other {address : UInt64} (apart : address ≠ hidden) :
    (cache.hide hidden).get? address = cache.get? address := by
  have same : (cache.hide hidden).slot? address = cache.slot? address := by
    simp [hide, slot?, Std.TreeMap.getElem?_erase, Ne.symm apart]
  unfold get? handle?
  rw [same]
  rfl

theorem Code.Shuns.activate {subroutine : Subroutine} (shuns : subroutine.code.Shuns hidden) (regs : RegisterFile) :
    (subroutine.activate regs).Shuns hidden := by
  unfold Subroutine.activate
  cases code : subroutine.code <;> rwa [code] at shuns

/-- What is built calls in place what it links to. -/
theorem Builder.Codes.shuns {subroutine : Subroutine} {graph : Guest.Graph} {emission : Emission}
    (codes : Builder.Codes subroutine graph emission) (unlinked : subroutine.linksTo hidden = false) :
    subroutine.code.Shuns hidden := by
  rw [codes.code]
  intro dst member
  have linked := (codes.linked hidden).mpr (codes.laid.calls member)
  cases unlinked.symm.trans linked

namespace Interpreter

/-- An operation comes to the same with calls that come to the same for its target, if it is a call. -/
theorem perform_congr {call callToo : UInt64 → Context → Outcome (UInt64 × Context)} {op : Ir.Op}
    (same : ∀ dst target, op = .call dst target → call target = callToo target) (function : Ir.Function)
    (args : List UInt64) (frame : Frame) (context : Context) :
    perform call function args frame context op = perform callToo function args frame context op := by
  cases op
  case call dst target =>
    change (call target context >>= _) = (callToo target context >>= _)
    rw [same dst target rfl]
  all_goals rfl

theorem step_congr {call callToo : UInt64 → Context → Outcome (UInt64 × Context)} {function : Ir.Function}
    (same : ∀ dst target, .call dst target ∈ function.ops.toList → call target = callToo target)
    (args : List UInt64) (frame : Frame) (context : Context) :
    step call function args frame context = step callToo function args frame context := by
  unfold step
  cases there : function.ops[frame.position]? with
  | none => rfl
  | some op =>
    refine perform_congr (fun dst target own => same dst target ?_) function args _ context
    rw [← own, Array.mem_toList_iff]
    exact Array.mem_of_getElem? there

/-- Code runs alike where only entries are hidden that no code calls in place. -/
theorem exec_hide (shuns : ∀ address subroutine, address ≠ hidden → cache.get? address = some subroutine →
    subroutine.code.Shuns hidden) (fuel : Nat) {activation : Activation} (own : activation.Shuns hidden)
    (context : Context) : exec cache fuel activation context = exec (cache.hide hidden) fuel activation context := by
  -- on the bound, which goes down by one both for the next step and for the calls that this one makes
  induction fuel generalizing activation context with
  | zero => rfl
  | succ fuel ih =>
    have links : ∀ target, target ≠ hidden →
        link cache (exec cache fuel) target = link (cache.hide hidden) (exec (cache.hide hidden) fuel) target := by
      intro target apart
      funext context
      unfold link
      rw [Cache.get?_hide_other apart]
      split
      · rfl
      · cases found : cache.get? target with
        | none => rfl
        | some subroutine =>
          dsimp only
          rw [ih ((shuns target subroutine apart found).activate context.regs)]
    cases activation with
    | thunk layout function => rfl
    | probe probe args => exact own.elim
    | compiled function args frame =>
      have same : ∀ dst target, .call dst target ∈ function.ops.toList →
          link cache (exec cache fuel) target = link (cache.hide hidden) (exec (cache.hide hidden) fuel) target := by
        intro dst target member
        refine links target ?_
        rintro rfl
        exact own dst member
      have goesOn : ∀ frame context, exec cache fuel (.compiled function args frame) context =
          exec (cache.hide hidden) fuel (.compiled function args frame) context := fun _ => ih own
      rw [exec, exec, step_congr same]
      split
      · exact goesOn _ _
      · rfl
      · rfl

end Interpreter
end Dynarec
