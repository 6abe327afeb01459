import Dynarec.Proofs.Compilation.Builder
import Dynarec.Proofs.Semantics.Endings

/-!
Faithful caches. Where all code in a cache is a host function or what has been built of a graph of the program, code
runs as the guest machine does from its address on, however its graph ends and whatever it calls in place.
-/
namespace Dynarec
open Semantics Outcome Interpreter

/-- Code for an address: the host function there, or code of a graph of the program. -/
inductive Subroutine.Renders (code : Semantics.Code) (address : UInt64) (subroutine : Subroutine) : Prop
  | thunk {layout : Calling.Layout} {function : Calling.HostFunction} : code.host address = some (layout, function) →
      subroutine.code = .thunk layout function → Renders code address subroutine
  | graph {graph : Guest.Graph} {emission : Emission} : Builder.Codes subroutine graph emission → graph.Sound →
      code.program.IsGraph address graph → Renders code address subroutine

namespace Cache

def Faithful (code : Semantics.Code) (cache : Cache) : Prop :=
  ∀ address subroutine, cache.get? address = some subroutine → subroutine.Renders code address

variable {code : Semantics.Code} {cache : Cache}

theorem link_follows {run : Activation → Context → Outcome (UInt64 × Context)}
    (runs : ∀ address subroutine, cache.get? address = some subroutine → ∀ context,
      Follows code (enterAt address context) (run (subroutine.activate context.regs) context))
    (plain : code.Plain) (target : UInt64) (context : Context) :
    Follows code (enterAt target context) (link cache run target context) := by
  unfold link
  split
  · exact .arrives (.refl _) ⟨rfl, .refl _, World.alike_note _ _⟩
  · cases found : cache.get? target with
    | none => exact .refl target context
    | some subroutine =>
      let inside : Context := { context with depth := context.depth + 1 }
      have called : Follows code (enterAt target context) ((run (subroutine.activate context.regs) inside).map id) := by
        rw [Except.map_id]
        exact runs target subroutine found inside
      exact called.bind plain fun _ => .arrives (.refl _) (.refl _)

/-- A thunk is one step of the guest machine. -/
theorem exec_thunk (cache : Cache) (plain : code.Plain) {address : UInt64} {layout : Calling.Layout}
    {function : Calling.HostFunction} (host : code.host address = some (layout, function)) (fuel : Nat)
    (context : Context) :
    ∃ next left, exec cache (fuel + 1) (.thunk layout function) context = .ok (next, left) ∧
      Steps code 1 (enterAt address context) (enterAt next left) := by
  have here : code.host (enterAt address context).address = some (layout, function) := host
  obtain ⟨result, world, applied, _, moves⟩ := step?_host plain here
  have same : function.apply (layout.read function.signature.params context.regs) context.world = .ok (result, world) :=
    applied
  refine ⟨_, { context with regs := _, world }, ?_, .step moves (.refl _)⟩
  rw [exec]
  unfold Calling.HostFunction.enter
  rw [same]
  rfl

theorem Faithful.invoke_follows (faithful : cache.Faithful code) (plain : code.Plain) (fuel : Nat) (address : UInt64)
    (subroutine : Subroutine) (found : cache.get? address = some subroutine) (context : Context) :
    Follows code (enterAt address context) (invoke cache fuel subroutine context) := by
  induction fuel generalizing address subroutine context with
  | zero => exact .bounded
  | succ fuel ih =>
    cases faithful address subroutine found with
    | @thunk layout function host holds =>
      obtain ⟨next, left, ran, steps⟩ := exec_thunk cache plain host fuel context
      unfold invoke Subroutine.activate
      rw [holds]
      dsimp only
      rw [ran]
      exact .arrives steps (.refl _)
    | @graph graph emission codes sound isGraph =>
      have below := codes.below_runGraph sound isGraph.entry cache (Nat.le_refl (fuel + 1)) context
      by_cases bounded : invoke cache (fuel + 1) subroutine context = .error .outOfFuel
      · rw [bounded]
        exact .bounded
      · have calls := link_follows ih plain
        exact (runGraph_follows plain calls isGraph.blocks _ _ _ _).congr (below bounded).symm

/-- No code comes to a result without a step. -/
theorem Faithful.invoke_advances (faithful : cache.Faithful code) (plain : code.Plain) (fuel : Nat) (address : UInt64)
    (subroutine : Subroutine) (found : cache.get? address = some subroutine) (context : Context) :
    Advances code (enterAt address context) (invoke cache fuel subroutine context) := by
  cases fuel with
  | zero => exact .error _ _
  | succ fuel =>
    cases faithful address subroutine found with
    | @thunk layout function host holds =>
      obtain ⟨next, left, ran, steps⟩ := exec_thunk cache plain host fuel context
      unfold invoke Subroutine.activate
      rw [holds]
      dsimp only
      rw [ran]
      exact .after steps (.refl next left)
    | @graph graph emission codes sound isGraph =>
      have below := codes.below_runGraph sound isGraph.entry cache (Nat.le_refl (fuel + 1)) context
      by_cases bounded : invoke cache (fuel + 1) subroutine context = .error .outOfFuel
      · rw [bounded]
        exact .error _ _
      · have calls := link_follows (faithful.invoke_follows plain fuel) plain
        exact (runGraph_advances plain calls isGraph.blocks isGraph.contains _ _ _).congr (below bounded).symm

theorem Faithful.invoke_settles (faithful : cache.Faithful code) (plain : code.Plain) {count : Nat} {address : UInt64}
    {subroutine : Subroutine} (found : cache.get? address = some subroutine) {context : Context}
    (ends : EndsIn code count (enterAt address context)) :
    ∃ result, Settles (invoke cache · subroutine context) result := by
  induction count using Nat.strong_induction_on generalizing address subroutine context with
  | _ count ih =>
    have longer : ∀ {fuel more : Nat}, fuel ≤ more →
        Within (invoke cache fuel subroutine context) (invoke cache more subroutine context) := fun atLeast =>
      exec_within cache atLeast _ _
    cases faithful address subroutine found with
    | @thunk layout function host holds =>
      obtain ⟨next, left, ran, _⟩ := exec_thunk cache plain host 0 context
      have bounded : invoke cache 1 subroutine context ≠ .error .outOfFuel := by
        unfold invoke Subroutine.activate
        rw [holds]
        dsimp only
        rw [ran]
        simp
      exact ⟨_, Settles.of_within longer bounded⟩
    | @graph graph emission codes sound isGraph =>
      have runs : Runs code count fun fuel => link cache (exec cache fuel) := by
        refine ⟨fun atLeast => link_within fun activation context => exec_within cache atLeast activation context,
          fun fuel => link_follows (faithful.invoke_follows plain fuel) plain, ?_⟩
        intro fewer less target context ends
        unfold link
        split
        · exact ⟨_, .const (by simp)⟩
        · cases there : cache.get? target with
          | none => exact ⟨_, .const (by simp)⟩
          | some callee =>
            have inside : EndsIn code fewer (enterAt target { context with depth := context.depth + 1 }) := ends
            obtain ⟨result, settles⟩ := ih fewer less there inside
            cases result with
            | error halt => exact ⟨_, settles.error fun _ _ => _⟩
            | ok arrival => exact ⟨_, settles.bind (.const (by simp [pure, Except.pure]))⟩
      obtain ⟨result, bounded, bound, settled⟩ : ∃ result, Settles (fun fuel => runGraph graph emission.tier
          subroutine.linksTo (link cache (exec cache fuel)) fuel address context) result :=
        runGraph_settles plain runs isGraph.blocks emission.tier address context ends
      obtain ⟨more, below⟩ := codes.above_runGraph sound isGraph.entry cache bound bound context
      rw [settled bound le_rfl] at below
      exact ⟨_, Settles.of_within longer (mt (below bounded).bounded.mpr bounded)⟩

end Cache
end Dynarec
