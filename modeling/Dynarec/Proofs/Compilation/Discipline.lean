import Dynarec.Proofs.Builder
import Dynarec.Proofs.Emission.Assignment
import Dynarec.Proofs.Emission.Typing
import Dynarec.Proofs.Interpreter.Definite
import Dynarec.Proofs.Interpreter.Flags

/-!
What is built is typed and reads nothing undefined, whatever the graph, the tier and the registers that are live.
-/
namespace Dynarec
open Ir Interpreter

namespace Builder

variable {builder : Builder} {linkable : UInt64 → Bool} {address : UInt64} {graph : Guest.Graph} {tier : Tier}
  {name : String} {build : Build}

/-- A built function is typed; it comes to the same whatever its locals hold at first and whatever arguments follow its
own; its locals for words hold words throughout; and flags that are 0 or 1 at its start are so wherever it gets, in the
code it calls, and behind it. -/
theorem build_disciplined (made : builder.build linkable address graph tier name = .ok build) :
    ∃ function, build.subroutine.code = .compiled function ∧ function.WellTyped ∧ Determined function ∧
      function.Narrow (Frame.start function).locals ∧
      (∀ (cache : Cache) (args : List UInt64) (first frame : Frame) (start context : Context),
        function.Narrow first.locals → Visits cache function args first start frame context →
          function.Narrow frame.locals) ∧
      ∀ (cache : Cache) (start : Context), start.regs.Clean →
        (∀ activation context, Comes cache (build.subroutine.activate start.regs) start activation context →
          context.regs.Clean) ∧
        ∀ fuel next after, invoke cache fuel build.subroutine start = .ok (next, after) → after.regs.Clean := by
  obtain ⟨_, emission, builds, _, _⟩ := builds_of_build made
  have typed : emission.finish.function.WellTyped := ⟨builds.laid.typed, builds.words⟩
  refine ⟨_, builds.code, typed, determined_of_assigned typed builds.laid.assigned, narrow_start _, ?_, ?_⟩
  · intro cache args first frame start context narrow visits
    exact visits.narrow typed.ops narrow
  · intro cache start clean
    exact ⟨fun _ _ comes => comes.clean clean, fun fuel _ _ ran => clean_exec fuel _ clean ran⟩

/-- A comparison, a vector made of words and taken apart again, a call and a loop. -/
def mixed : Guest.Graph where
  blocks := [⟨0x1000, [⟨.cmpImm, 0x1000, [1, 5], none, 4⟩, ⟨.insPair, 0x1004, [0, 1, 2], none, 4⟩,
    ⟨.umovLo, 0x1008, [3, 0], none, 4⟩, ⟨.bl, 0x100c, [], some 0x4000, 4⟩]⟩,
    ⟨0x1010, [⟨.bEq, 0x1010, [], some 0x1000, 4⟩]⟩]

theorem build_disciplined_mixed : ∃ build function,
    ({ liveIn := fun _ => ⟨0x2, 0x1⟩ } : Builder).build (fun _ => true) 0x1000 mixed .tier1 "Sub" = .ok build ∧
      build.subroutine.code = .compiled function ∧ function.WellTyped ∧ Determined function ∧
        ∀ args frame context, Visits {} function args (.start function) {} frame context →
          function.Narrow frame.locals := by
  have accepts : ({ liveIn := fun _ => ⟨0x2, 0x1⟩ } : Builder).Accepts mixed := ⟨by decide, by decide, by decide, by decide⟩
  obtain ⟨build, _, made, _⟩ := Builder.build_ok _ (fun _ => true) 0x1000 .tier1 "Sub" accepts
  obtain ⟨function, code, typed, determined, narrow, kept, _⟩ := build_disciplined made
  exact ⟨build, function, made, code, typed, determined, fun args frame context =>
    kept {} args _ frame {} context narrow⟩

end Builder
end Dynarec
