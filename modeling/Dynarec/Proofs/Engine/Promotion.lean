import Dynarec.Proofs.Builder
import Dynarec.Proofs.Engine.Evolution

/-!
What comes of finding code: tier-0 code where there is none, and tier-1 code in place of code that is due. With a
threshold of one an address has tier-1 code from its second dispatch on.
-/
namespace Dynarec
open Effect

theorem Config.normalized_threshold_pos (config : Config) : 0 < config.normalized.threshold := by
  unfold Config.normalized
  by_cases zero : config.threshold = 0
  · simp [zero]
  · simpa [zero] using Nat.pos_of_ne_zero zero

/-- Tier-0 code that has just been built is not due yet. -/
theorem Builder.undue_build {builder : Builder} {linkable : UInt64 → Bool} {address : UInt64} {graph : Guest.Graph}
    {name : String} {build : Build} (positive : 0 < builder.threshold)
    (built : builder.build linkable address graph .tier0 name = .ok build) :
    build.subroutine.checkPromotion.1 = false := by
  unfold Subroutine.checkPromotion
  rw [(fresh_build built).promotion, threshold_build built]
  simpa [Promotion.check, Promotion.start, Stage.of] using positive.ne'

namespace Entries

variable {program : Guest.Program} {builder : Builder} {entries next : Entries} {address : UInt64} {count : Nat}

theorem resolve_first (absent : entries address = none) (positive : 0 < builder.threshold) {block : Guest.Block}
    {build : Build} (found : program.block address = .ok block)
    (built : builder.build entries.holdsTier1 address (.single block) .tier0 (Subroutine.nameOf address) = .ok build) :
    entries.resolve program builder address =
      (.ok build.subroutine.checkPromotion.2, entries.put address build.subroutine.checkPromotion.2, 0) := by
  have made : entries.buildTier0 program builder address = .ok build.subroutine := by
    refine Effect.bind_eq_ok.mpr ⟨block, found, ?_⟩
    exact Effect.bind_eq_ok.mpr ⟨build, built, rfl⟩
  have undue := Builder.undue_build positive built
  unfold resolve locate
  rw [absent]
  dsimp only
  rw [made]
  dsimp only
  rw [undue, if_neg Bool.false_ne_true]

/-- The code that is found for an address is there. -/
theorem resolve_published {subroutine : Subroutine}
    (resolved : entries.resolve program builder address = (.ok subroutine, next, count)) :
    next address = some subroutine := by
  unfold resolve at resolved
  cases found : entries.locate program builder address with
  | error cause =>
    rw [found] at resolved
    cases resolved
  | ok located =>
    rw [found] at resolved
    dsimp only at resolved
    cases due : located.checkPromotion.1 with
    | false =>
      rw [due, if_neg Bool.false_ne_true] at resolved
      cases resolved
      exact entries.put_self _ _
    | true =>
      rw [due, if_pos rfl] at resolved
      cases made : (entries.put address located.checkPromotion.2).buildTier1 program builder address with
      | error cause =>
        rw [made] at resolved
        cases resolved
      | ok rebuilt =>
        rw [made] at resolved
        cases resolved
        simp [notify, Subroutine.notified]

/-- Code that is due is built anew. -/
theorem resolve_due {subroutine : Subroutine} (published : entries address = some subroutine)
    (due : subroutine.checkPromotion.1 = true) {graph : Guest.Graph} {build : Build}
    (found : program.graph (entries.put address subroutine.checkPromotion.2).contains address = .ok graph)
    (built : builder.build (entries.put address subroutine.checkPromotion.2).holdsTier1 address graph .tier1
      (Subroutine.nameOf address) = .ok build) :
    entries.resolve program builder address =
      (.ok build.subroutine, (entries.put address build.subroutine).notify address, 1) := by
  have made : (entries.put address subroutine.checkPromotion.2).buildTier1 program builder address =
      .ok build.subroutine := by
    refine bind_eq_ok.mpr ⟨graph, found, ?_⟩
    exact bind_eq_ok.mpr ⟨build, built, rfl⟩
  unfold resolve locate
  rw [published]
  dsimp only
  rw [due, if_pos rfl, made]
  dsimp only
  rw [put_put]

end Entries

namespace Engine

variable {config : Config} {program : Guest.Program} {liveIn : Guest.Graph → LiveIn} {builds : List UInt64} {engine : Engine}
  {entries next : Entries} {address : UInt64}

/-- An engine that does not trace finds code as its entries tell, and its history goes on. -/
theorem History.resolves (history : History config program liveIn builds engine) (shown : engine.cache.Shows entries)
    (untraced : config.trace = false) {subroutine : Subroutine} {count : Nat}
    (resolved : entries.resolve program (Engine.start config program liveIn {}).builder address =
      (.ok subroutine, next, count)) :
    ∃ after, History config program liveIn (List.replicate count address ++ builds) after ∧ after.cache.Shows next := by
  obtain ⟨_, _, _, setup, _⟩ := history.evolution
  have single : engine.rivals = none := congrArg (·.2.2.2) setup
  have sameConfig : engine.config = config.normalized := congrArg (·.1) setup
  have heard : (notify address).run engine = (.ok (), engine) :=
    run_notify_untraced (by rw [sameConfig]; simpa [Config.normalized] using untraced) address
  obtain ⟨result, _, _, found, told, leads, finds⟩ := Session.dispatch_resolves shown single heard 0 {}
  rw [program_of_setup setup, builder_of_setup setup] at told
  cases resolved.symm.trans told
  obtain ⟨_, sameCache, sameBuilds⟩ := (finds.executes 0).keeps
  cases ran : (Session.dispatch (Session.rivals 0) 0 address).run ⟨engine, {}⟩ with
  | mk result session =>
    obtain ⟨after, left⟩ := session
    rw [ran] at sameCache sameBuilds
    have difference : after.stats.tier1Compiles - engine.stats.tier1Compiles = count := by
      have counted := leads.builds
      dsimp only at sameBuilds
      omega
    have dispatched := history.dispatch ran
    rw [difference] at dispatched
    exact ⟨after, dispatched, by rw [sameCache]; exact leads.shown⟩

/-- With a threshold of one the second dispatch of an address builds its graph, which links to the tier-1 code that was
there before. -/
theorem History.promotes (history : History config program liveIn builds engine) (shown : engine.cache.Shows entries)
    (untraced : config.trace = false) (eager : config.threshold = 1) (absent : entries address = none)
    {block : Guest.Block} {graph : Guest.Graph} (foundBlock : program.block address = .ok block)
    (foundGraph : ∀ known, program.graph known address = .ok graph)
    (first : (Engine.start config program liveIn {}).builder.Accepts (.single block))
    (second : (Engine.start config program liveIn {}).builder.Accepts graph) :
    ∃ after build linkable, History config program liveIn (address :: builds) after ∧
      after.cache.Shows ((entries.put address build.subroutine).notify address) ∧
        (Engine.start config program liveIn {}).builder.build linkable address graph .tier1
          (Subroutine.nameOf address) = .ok build ∧
            ∀ other, other ≠ address → linkable other = entries.holdsTier1 other := by
  obtain ⟨early, _, builtEarly, _⟩ := Builder.build_ok _ entries.holdsTier1 address .tier0 (Subroutine.nameOf address)
    first
  obtain ⟨middle, historyThen, shownThen⟩ := history.resolves shown untraced
    (Entries.resolve_first absent config.normalized_threshold_pos foundBlock builtEarly)
  let checked := early.subroutine.checkPromotion.2
  have due : checked.checkPromotion.1 = true := by
    have threshold : early.subroutine.threshold = 1 := by
      rw [Builder.threshold_build builtEarly]
      change config.normalized.threshold = 1
      simp [Config.normalized, eager]
    have promotion := (Builder.fresh_build builtEarly).promotion
    simp [checked, Subroutine.checkPromotion, threshold, promotion, Promotion.check, Promotion.start, Stage.of]
  have present : (entries.put address checked) address = some checked := entries.put_self _ _
  obtain ⟨build, _, built, _⟩ := Builder.build_ok _
    ((entries.put address checked).put address checked.checkPromotion.2).holdsTier1 address .tier1
    (Subroutine.nameOf address) second
  obtain ⟨after, historyNow, shownNow⟩ := historyThen.resolves shownThen untraced
    (Entries.resolve_due present due (foundGraph _) built)
  rw [Entries.put_put] at shownNow
  refine ⟨after, build, _, historyNow, shownNow, built, ?_⟩
  intro other apart
  unfold Entries.holdsTier1
  rw [Entries.put_put, entries.put_other apart]

end Engine
end Dynarec
