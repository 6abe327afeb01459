import Dynarec.Interpreter

/-!
Code that a run comes to, at any depth of calls in place.
-/
namespace Dynarec
namespace Interpreter

/-- Code that a run comes to, by its own steps or by a call in place, with the context it runs in. -/
inductive Comes (cache : Cache) (first : Activation) (start : Context) : Activation → Context → Prop
  | start : Comes cache first start first start
  | step {fuel : Nat} {function : Ir.Function} {args : List UInt64} {frame next : Frame} {context after : Context} :
      Comes cache first start (.compiled function args frame) context →
        step (link cache (exec cache fuel)) function args frame context = .ok (.next next after) →
          Comes cache first start (.compiled function args next) after
  | enter {function : Ir.Function} {args : List UInt64} {frame : Frame} {context : Context} {dst : Ir.Local}
      {target : UInt64} {callee : Subroutine} :
      Comes cache first start (.compiled function args frame) context →
        function.ops[frame.position]? = some (.call dst target) → context.depth < maxLinkDepth →
          cache.get? target = some callee →
            Comes cache first start (callee.activate context.regs) { context with depth := context.depth + 1 }

/-- Where code stands behind its first steps, as long as it goes on. -/
def walk (cache : Cache) (fuel : Nat) : Nat → Activation → Context →
    Option (Ir.Function × List UInt64 × Frame × Context)
  | 0, .compiled function args frame, context => some (function, args, frame, context)
  | steps + 1, .compiled function args frame, context =>
    match step (link cache (exec cache fuel)) function args frame context with
    | .ok (.next next after) => walk cache fuel steps (.compiled function args next) after
    | _ => none
  | _, _, _ => none

theorem Comes.walk {cache : Cache} {fuel steps : Nat} {first activation : Activation} {start context after : Context}
    {function : Ir.Function} {args : List UInt64} {frame : Frame} (comes : Comes cache first start activation context)
    (stands : walk cache fuel steps activation context = some (function, args, frame, after)) :
    Comes cache first start (.compiled function args frame) after := by
  induction steps generalizing activation context with
  | zero =>
    cases activation with
    | compiled =>
      cases stands
      exact comes
    | thunk => cases stands
    | probe => cases stands
  | succ steps ih =>
    cases activation with
    | compiled =>
      rw [Interpreter.walk] at stands
      split at stands
      · next stepped => exact ih (comes.step stepped) stands
      · cases stands
    | thunk => cases stands
    | probe => cases stands

/-- A run of published code comes to published code. -/
theorem Comes.published {cache : Cache} {address : UInt64} {subroutine : Subroutine}
    (published : cache.get? address = some subroutine) {regs : RegisterFile} {start context : Context}
    {activation : Activation} (comes : Comes cache (subroutine.activate regs) start activation context)
    {function : Ir.Function} {args : List UInt64} {frame : Frame} (code : activation = .compiled function args frame) :
    ∃ other resident, cache.get? other = some resident ∧ resident.code = .compiled function := by
  have activated : ∀ (other : UInt64) (resident : Subroutine) (regs : RegisterFile) (args : List UInt64) (frame : Frame),
      cache.get? other = some resident → resident.activate regs = .compiled function args frame →
        ∃ other resident, cache.get? other = some resident ∧ resident.code = .compiled function := by
    intro other resident regs args frame there active
    refine ⟨other, resident, there, ?_⟩
    unfold Subroutine.activate at active
    cases compiled : resident.code with
    | compiled own =>
      rw [compiled] at active
      cases active
      rfl
    | thunk => simp [compiled] at active
    | probe => simp [compiled] at active
  induction comes generalizing args frame with
  | start => exact activated address subroutine regs args frame published code
  | step _ _ ih =>
    cases code
    exact ih rfl
  | @enter _ _ _ context _ target callee _ _ _ there _ => exact activated target callee context.regs args frame there code

end Interpreter
end Dynarec
