import Dynarec.Proofs.Builder
import Dynarec.Proofs.Engine.Resolution

/-!
Which graphs are built. A graph is, exactly if its live-in masks name registers only, its direct transfers have
targets, and it has blocks at distinct addresses. Any other graph has one error, and leaves no trace in the cache or in
the profile.
-/
namespace Dynarec
open Effect

namespace Engine

/-- A failed build is noted among the functions that were translated, if it came that far, and nowhere else. -/
theorem of_run_build_error {engine after : Engine} {address : UInt64} {graph : Guest.Graph} {tier : Tier}
    {failure : Failure} (failed : (Engine.build address graph tier).run engine = (.error failure, after)) :
    ∃ cause, failure = .error (.translate address cause) ∧
      engine.builder.build engine.cache.holdsTier1 address graph tier (Subroutine.nameOf address) = .error cause ∧
        ∃ handed, after = { engine with handed } := by
  obtain ⟨handed, ran⟩ := engine.run_build_eq address graph tier
  rw [ran] at failed
  cases made : engine.builder.build engine.cache.holdsTier1 address graph tier (Subroutine.nameOf address) with
  | error cause =>
    rw [made] at failed
    cases failed
    exact ⟨cause, rfl, rfl, handed, rfl⟩
  | ok build =>
    rw [made] at failed
    cases failed

end Engine

namespace Builder

/-- Which graphs are built, which error the others have, and that a failed build is seen neither in the cache nor in
the profile. -/
theorem build_verdict (builder : Builder) (linkable : UInt64 → Bool) (address : UInt64) (graph : Guest.Graph)
    (tier : Tier) (name : String) :
    ((∃ build, builder.build linkable address graph tier name = .ok build) ↔ builder.Accepts graph) ∧
      (∀ error, builder.build linkable address graph tier name = .error error → builder.Refuses graph name error) ∧
        ∀ (engine after : Engine) (failure : Failure),
          (Engine.build address graph tier).run engine = (.error failure, after) →
            (∃ cause, failure = .error (.translate address cause) ∧
              engine.builder.Refuses graph (Subroutine.nameOf address) cause) ∧
                after.cache = engine.cache ∧ after.tables = engine.tables := by
  have refused : ∀ (builder : Builder) (linkable : UInt64 → Bool) (name : String) (error : TranslationError),
      builder.build linkable address graph tier name = .error error → builder.Refuses graph name error := by
    intro builder linkable name error failed
    have rejects : ¬ builder.Accepts graph := by
      intro accepts
      obtain ⟨build, _, made, _⟩ := builder.build_ok linkable address tier name accepts
      cases failed.symm.trans made
    obtain ⟨other, same, refuses⟩ := builder.build_error linkable address tier name rejects
    obtain rfl : error = other := Except.error.inj (failed.symm.trans same)
    exact refuses
  refine ⟨⟨?_, ?_⟩, refused builder linkable name, ?_⟩
  · rintro ⟨build, made⟩
    exact (builds_of_build made).1
  · intro accepts
    obtain ⟨build, _, made, _⟩ := builder.build_ok linkable address tier name accepts
    exact ⟨build, made⟩
  · intro engine after failure failed
    obtain ⟨cause, rfl, unbuilt, handed, rfl⟩ := Engine.of_run_build_error failed
    exact ⟨⟨cause, rfl, refused _ _ _ _ unbuilt⟩, rfl, rfl⟩

/-- An empty block is built, and so is a transfer of control in the middle of one. -/
theorem build_verdict_odd : ∃ build, ({} : Builder).build (fun _ => true) 0x1000
    ⟨[⟨0x1000, []⟩, ⟨0x2000, [⟨.b, 0x2000, [], some 0x1000, 4⟩, ⟨.nop, 0x2004, [], none, 4⟩]⟩]⟩ .tier1 "Sub" =
      .ok build :=
  (build_verdict _ _ _ _ _ _).1.mpr ⟨by decide, by decide, by decide, by decide⟩

end Builder
end Dynarec
