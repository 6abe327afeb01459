import Dynarec.Interpreter

/-!
Longer runs. What code comes to within its bound it comes to within every larger one, to the same registers and
the same log.
-/
namespace Dynarec

/-- The longer run is the same, unless the shorter came to its bound. -/
def Outcome.Within {α : Type} (short long : Outcome α) : Prop := short ≠ .error .outOfFuel → long = short

namespace Outcome

theorem Within.refl {α : Type} (outcome : Outcome α) : Within outcome outcome := fun _ => rfl

theorem Within.bounded {α : Type} (long : Outcome α) : Within (.error .outOfFuel) long := fun unbounded =>
  absurd rfl unbounded

theorem Within.bind {α β : Type} {short long : Outcome α} {next nextToo : α → Outcome β} (within : Within short long)
    (follows : ∀ value, Within (next value) (nextToo value)) : Within (short >>= next) (long >>= nextToo) := by
  intro unbounded
  cases short with
  | error halt =>
    have apart : halt ≠ .outOfFuel := fun same => unbounded (congrArg Except.error same)
    rw [within fun bound => apart (Except.error.inj bound)]
    rfl
  | ok value =>
    rw [within (by simp)]
    exact follows value unbounded

/-- All runs with a large enough bound come to a result. -/
structure Settles {α : Type} (run : Nat → Outcome α) (result : Outcome α) : Prop where
  bounded : result ≠ .error .outOfFuel
  settled : ∃ bound, ∀ fuel, bound ≤ fuel → run fuel = result

theorem Settles.const {α : Type} {result : Outcome α} (bounded : result ≠ .error .outOfFuel) :
    Settles (fun _ => result) result := ⟨bounded, 0, fun _ _ => rfl⟩

theorem Settles.of_within {α : Type} {run : Nat → Outcome α} (longer : ∀ {fuel more : Nat}, fuel ≤ more →
    Within (run fuel) (run more)) {bound : Nat} (bounded : run bound ≠ .error .outOfFuel) :
    Settles run (run bound) := ⟨bounded, bound, fun _ atLeast => longer atLeast bounded⟩

theorem Settles.within {α : Type} {run runToo : Nat → Outcome α} {result : Outcome α} (settles : Settles run result)
    (within : ∀ fuel, Within (run fuel) (runToo fuel)) : Settles runToo result := by
  obtain ⟨bounded, bound, settled⟩ := settles
  refine ⟨bounded, bound, fun fuel atLeast => ?_⟩
  rw [within fuel (by rwa [settled fuel atLeast]), settled fuel atLeast]

theorem Settles.succ {α : Type} {run : Nat → Outcome α} {result : Outcome α}
    (settles : Settles (fun fuel => run (fuel + 1)) result) : Settles run result := by
  obtain ⟨bounded, bound, settled⟩ := settles
  refine ⟨bounded, bound + 1, fun fuel atLeast => ?_⟩
  obtain ⟨rest, rfl⟩ : ∃ rest, fuel = rest + 1 := ⟨fuel - 1, by omega⟩
  exact settled rest (by omega)

theorem Settles.bind {α β : Type} {first : Nat → Outcome α} {value : α} {next : Nat → α → Outcome β}
    {result : Outcome β} (settles : Settles first (.ok value)) (follows : Settles (fun fuel => next fuel value) result) :
    Settles (fun fuel => first fuel >>= next fuel) result := by
  obtain ⟨_, bound, settled⟩ := settles
  obtain ⟨bounded, later, settledToo⟩ := follows
  refine ⟨bounded, max bound later, fun fuel atLeast => ?_⟩
  rw [settled fuel (by omega)]
  exact settledToo fuel (by omega)

theorem Settles.error {α β : Type} {first : Nat → Outcome α} {halt : Halt} (settles : Settles first (.error halt))
    (next : Nat → α → Outcome β) : Settles (fun fuel => first fuel >>= next fuel) (.error halt) := by
  obtain ⟨bounded, bound, settled⟩ := settles
  refine ⟨fun same => bounded (congrArg Except.error (Except.error.inj same)), bound, fun fuel atLeast => ?_⟩
  rw [settled fuel atLeast]
  rfl

end Outcome

namespace Interpreter
open Outcome

/-- What calls pass on. -/
def CallsWithin (call callToo : UInt64 → Context → Outcome (UInt64 × Context)) : Prop :=
  ∀ target context, Within (call target context) (callToo target context)

theorem step_within {call callToo : UInt64 → Context → Outcome (UInt64 × Context)} (calls : CallsWithin call callToo)
    (function : Ir.Function) (args : List UInt64) (frame : Frame) (context : Context) :
    Within (step call function args frame context) (step callToo function args frame context) := by
  unfold step
  split
  · exact .refl _
  · next op _ =>
    -- the only operation that makes a call
    cases op with
    | call dst target => exact (calls target context).bind fun _ => .refl _
    | _ => exact .refl _

theorem link_within {cache : Cache} {run runToo : Activation → Context → Outcome (UInt64 × Context)}
    (runs : ∀ activation context, Within (run activation context) (runToo activation context)) :
    CallsWithin (link cache run) (link cache runToo) := by
  intro target context
  unfold link
  split
  · exact .refl _
  · split
    · exact .refl _
    · exact (runs _ _).bind fun _ => .refl _

theorem exec_within (cache : Cache) {fuel more : Nat} (atLeast : fuel ≤ more) (activation : Activation)
    (context : Context) : Within (exec cache fuel activation context) (exec cache more activation context) := by
  induction fuel generalizing more activation context with
  | zero => exact .bounded _
  | succ fuel ih =>
    obtain ⟨more, rfl⟩ : ∃ rest, more = rest + 1 := ⟨more - 1, by omega⟩
    have calls : CallsWithin (link cache (exec cache fuel)) (link cache (exec cache more)) :=
      link_within fun activation context => ih (by omega) activation context
    cases activation with
    | compiled function args frame =>
      intro unbounded
      have steps := step_within calls function args frame context
      rw [exec] at unbounded ⊢
      rw [exec]
      cases first : step (link cache (exec cache fuel)) function args frame context with
      | error halt =>
        rw [first] at unbounded steps
        have apart : halt ≠ .outOfFuel := fun same => unbounded (congrArg Except.error same)
        rw [steps fun bound => apart (Except.error.inj bound)]
      | ok reached =>
        rw [first] at unbounded steps
        rw [steps (by simp)]
        cases reached with
        | next frame context => exact ih (by omega) _ _ unbounded
        | done next context => rfl
    | thunk layout function => exact .refl _
    | probe probe args =>
      cases probe with
      | call target => exact calls target context
      | _ => exact .refl _

end Interpreter
end Dynarec
