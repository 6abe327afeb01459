import Dynarec.Proofs.Semantics.Blocks

/-!
Runs that come to an end because the steps do. Each block is a step at least, so what is left of the steps bounds
the blocks that are still to be run, and the calls in place that are still to be made.
-/
namespace Dynarec
namespace Semantics
open Outcome Interpreter

/-- What a bound lets a run do: more with a larger one, nothing but what the steps do, and all of it where fewer than
a number of steps are left. -/
structure Runs (code : Code) (count : Nat) (run : Nat → UInt64 → Context → Outcome (UInt64 × Context)) : Prop where
  longer : ∀ {fuel more : Nat}, fuel ≤ more → CallsWithin (run fuel) (run more)
  follows : ∀ fuel address context, Follows code (enterAt address context) (run fuel address context)
  settles : ∀ fewer < count, ∀ address context, EndsIn code fewer (enterAt address context) →
    ∃ result, Settles (run · address context) result

variable {code : Code} {links : UInt64 → Bool} {count : Nat}
  {call : Nat → UInt64 → Context → Outcome (UInt64 × Context)}

theorem Runs.mono (runs : Runs code count call) {fewer : Nat} (atMost : fewer ≤ count) : Runs code fewer call :=
  ⟨runs.longer, runs.follows, fun left less => runs.settles left (by omega)⟩

theorem Follows.endsIn (plain : code.Plain) {start : State} {next : UInt64} {context : Context}
    (follows : Follows code start (.ok (next, context))) (ends : EndsIn code count start) :
    ∃ left ≤ count, EndsIn code left (enterAt next context) := by
  cases follows with
  | arrives steps alike =>
    obtain ⟨left, split, later⟩ := ends.rest plain steps alike
    exact ⟨left, by omega, later⟩

theorem depart_settles (runs : Runs code count call) (last : Guest.Instruction) (next : UInt64)
    (context : Context) {left : Nat} (fewer : left < count) (ends : EndsIn code left (enterAt next context)) :
    ∃ result, Settles (fun fuel => depart links (call fuel) last next context) result := by
  unfold depart
  split
  · exact ⟨_, .const (by simp)⟩
  · split
    · obtain ⟨result, settles⟩ := runs.settles left fewer next context ends
      cases result with
      | error halt => exact ⟨_, settles.error fun _ _ => _⟩
      | ok arrival => exact ⟨_, settles.bind (.const (by simp [pure, Except.pure]))⟩
    · exact ⟨_, .const (by simp)⟩
  · exact ⟨_, .const (by simp)⟩

theorem follow_settles {tier : Tier} {run : Nat → UInt64 → Context → Outcome (UInt64 × Context)}
    (arrival : Exit × Context)
    (settles : ∃ result, Settles (run · (Exit.place arrival).1 (Exit.place arrival).2) result) :
    ∃ result, Settles (fun fuel => follow tier (run fuel) arrival) result := by
  obtain ⟨exit, context⟩ := arrival
  cases exit with
  | away next => exact ⟨_, .const (by simp)⟩
  | onward next =>
    change ∃ result, Settles (fun fuel => if tier = .tier0 then .ok (next, context) else run fuel next context) result
    split
    · exact ⟨_, .const (by simp)⟩
    · exact settles

/-- The block is run, and what is left of the steps is fewer than before. -/
theorem runBlock_settles (plain : code.Plain) (runs : Runs code count call) {block : Guest.Block}
    (found : code.program.block block.address = .ok block) (context : Context)
    (ends : EndsIn code count (enterAt block.address context)) :
    ∃ result, Settles (fun fuel => runBlock links (call fuel) block context) result ∧
      ∀ arrival, result = .ok arrival → ∃ left < count,
        EndsIn code left (enterAt (Exit.place arrival).1 (Exit.place arrival).2) := by
  have steps := steps_block plain found context
  have entered : (⟨block.address, context.regs, context.world⟩ : State) = enterAt block.address context := rfl
  unfold runBlock
  rw [entered]
  cases ran : executeAll? block.instructions (enterAt block.address context) with
  | none => exact ⟨_, .const (by simp), by simp⟩
  | some last =>
    rw [ran] at steps
    obtain ⟨taken, steps⟩ := steps
    let here : Context := { context with regs := last.regs, world := last.world }
    obtain ⟨left, split, later⟩ := ends.rest plain steps (.refl last)
    have goesOn : EndsIn code left (enterAt last.address here) := later
    dsimp only
    cases block.instructions.getLast? with
    | none =>
      refine ⟨_, .const (by simp), ?_⟩
      rintro _ ⟨⟩
      exact ⟨left, by omega, later⟩
    | some instruction =>
      obtain ⟨result, settles⟩ : ∃ result,
          Settles (fun fuel => depart links (call fuel) instruction last.address here) result :=
        depart_settles runs instruction last.address here (by omega) goesOn
      refine ⟨result, settles, ?_⟩
      rintro arrival rfl
      obtain ⟨_, bound, settled⟩ := settles
      have follows : Follows code (enterAt last.address here)
          ((depart links (call bound) instruction last.address here).map Exit.place) :=
        depart_follows (fun target context => runs.follows bound target context) instruction last.address here
      rw [settled bound le_rfl] at follows
      obtain ⟨rest, atMost, ahead⟩ := Follows.endsIn plain follows goesOn
      exact ⟨rest, by omega, ahead⟩

/-- A graph's run comes to an end where the steps do. -/
theorem runGraph_settles (plain : code.Plain) (runs : Runs code count call) {graph : Guest.Graph}
    (own : ∀ block ∈ graph.blocks, code.program.block block.address = .ok block) (tier : Tier) (address : UInt64)
    (context : Context) (ends : EndsIn code count (enterAt address context)) :
    ∃ result, Settles (fun fuel => runGraph graph tier links (call fuel) fuel address context) result := by
  induction count using Nat.strong_induction_on generalizing address context with
  | _ count ih =>
    let run := fun fuel => runGraph graph tier links (call fuel) fuel address context
    suffices behind : ∃ result, Settles (fun fuel => run (fuel + 1)) result by
      obtain ⟨result, settles⟩ := behind
      exact ⟨result, settles.succ⟩
    simp only [run, runGraph]
    cases found : graph.blocks.find? (·.address == address) with
    | none => exact ⟨_, .const (by simp)⟩
    | some block =>
      have member := List.mem_of_find?_eq_some found
      have here : block.address = address := by simpa using List.find?_some found
      subst here
      obtain ⟨result, settles, goesOn⟩ : ∃ result,
          Settles (fun fuel => runBlock links (call fuel) block context) result ∧ _ :=
        runBlock_settles plain runs (own block member) context ends
      have settlesNow : Settles (fun fuel => runBlock links (call (fuel + 1)) block context) result :=
        settles.within fun fuel => runBlock_within (runs.longer (Nat.le_succ fuel)) block context
      cases result with
      | error halt => exact ⟨_, settlesNow.error fun _ _ => _⟩
      | ok arrival =>
        obtain ⟨left, fewer, ahead⟩ := goesOn arrival rfl
        obtain ⟨last, later⟩ := ih left fewer (runs.mono (by omega)) _ _ ahead
        have laterNow := later.within fun fuel => runGraph_within (runs.longer (Nat.le_succ fuel)) graph tier le_rfl
          (Exit.place arrival).1 (Exit.place arrival).2
        obtain ⟨result, whole⟩ : ∃ result, Settles (fun fuel =>
            follow tier (runGraph graph tier links (call (fuel + 1)) fuel) arrival) result :=
          follow_settles arrival ⟨last, laterNow⟩
        exact ⟨result, settlesNow.bind whole⟩

end Semantics
end Dynarec
