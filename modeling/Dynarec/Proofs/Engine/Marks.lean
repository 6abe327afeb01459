import Dynarec.Proofs.Engine.Promotion
import Dynarec.Proofs.Guest.Exploration
import Dynarec.Proofs.Subroutine.Promotion

/-!
Marks are exact. Guest code of tier 1 is marked for a rebuild just when it calls tier-1 guest code at another
address that it could call in place but does not.
-/
namespace Dynarec
namespace Entries

def guestTier1 (entries : Entries) (address : UInt64) : Prop :=
  ∃ subroutine, entries address = some subroutine ∧ subroutine.isHost = false ∧ subroutine.tier = .tier1

/-- Code at an address that calls tier-1 guest code elsewhere, and not in place. -/
def Behind (entries : Entries) (address : UInt64) (subroutine : Subroutine) : Prop :=
  ∃ callee ∈ subroutine.callees, callee ≠ address ∧ entries.guestTier1 callee ∧ subroutine.linksTo callee = false

/-- What a subroutine at an address is like when marks are exact. -/
structure Settled (entries : Entries) (address : UInt64) (subroutine : Subroutine) : Prop where
  host : subroutine.isHost = true → subroutine.promotion.stage = .tier1
  staged : subroutine.tier = .tier1 → subroutine.promotion.stage ≠ .tier0
  marked : subroutine.isHost = false → subroutine.tier = .tier1 →
    (subroutine.promotion.stage = .pending ↔ entries.Behind address subroutine)

def Exact (entries : Entries) : Prop :=
  ∀ address subroutine, entries address = some subroutine → entries.Settled address subroutine

theorem Settled.congr {entries next : Entries} {address : UInt64} {subroutine : Subroutine}
    (same : ∀ other, next.guestTier1 other ↔ entries.guestTier1 other)
    (settled : entries.Settled address subroutine) : next.Settled address subroutine := by
  refine ⟨settled.host, settled.staged, ?_⟩
  intro guest tier
  rw [settled.marked guest tier]
  unfold Behind
  simp only [same]

theorem guestTier1_put {entries : Entries} {address : UInt64} {subroutine : Subroutine}
    (same : (subroutine.isHost = false ∧ subroutine.tier = .tier1) ↔ entries.guestTier1 address) (other : UInt64) :
    (entries.put address subroutine).guestTier1 other ↔ entries.guestTier1 other := by
  by_cases here : other = address
  · subst here
    rw [← same]
    unfold guestTier1
    simp
  · unfold guestTier1
    rw [entries.put_other here]

/-- Code that comes to an address and is as settled there as what it replaces keeps marks exact. -/
theorem Exact.put {entries : Entries} (exact_ : entries.Exact) {address : UInt64} {subroutine : Subroutine}
    (same : (subroutine.isHost = false ∧ subroutine.tier = .tier1) ↔ entries.guestTier1 address)
    (settled : entries.Settled address subroutine) : (entries.put address subroutine).Exact := by
  intro other found there
  refine Settled.congr (guestTier1_put same) ?_
  by_cases here : other = address
  · subst here
    rw [put_self] at there
    cases there
    exact settled
  · rw [entries.put_other here] at there
    exact exact_ other found there

variable {program : Guest.Program} {builder : Builder} {entries : Entries} {address : UInt64}

theorem Exact.first (exact_ : entries.Exact) (absent : entries address = none) {subroutine : Subroutine}
    (made : entries.buildTier0 program builder address = .ok subroutine) : (entries.put address subroutine).Exact := by
  obtain ⟨_, build, _, rfl, built⟩ := of_buildTier0 made
  obtain ⟨tier, guest, promotion⟩ := Builder.fresh_build built
  refine exact_.put ?_ ⟨?_, ?_, ?_⟩
  · simp [guestTier1, absent, tier]
  · simp [guest]
  · simp [tier]
  · simp [tier]

theorem Exact.check (exact_ : entries.Exact) {subroutine : Subroutine} (published : entries address = some subroutine) :
    (entries.put address subroutine.checkPromotion.2).Exact := by
  have settled := exact_ address subroutine published
  by_cases staged : subroutine.promotion.stage = .tier0
  · have low : subroutine.tier ≠ .tier1 := fun tier => settled.staged tier staged
    have guest : subroutine.isHost = false := by
      by_contra host
      have tier1 := settled.host (by simpa using host)
      rw [staged] at tier1
      cases tier1
    refine exact_.put ?_ ⟨?_, ?_, ?_⟩
    · simp [guestTier1, published, low]
    · intro host
      exact absurd (guest.symm.trans host) (by simp)
    · exact fun tier => absurd tier low
    · exact fun _ tier => absurd tier low
  · rw [Subroutine.checkPromotion_of_stage staged, entries.put_published published]
    exact exact_

theorem Exact.host (exact_ : entries.Exact) (guestless : ∀ old, entries address = some old → old.isHost = true)
    {function : Calling.HostFunction} {thunk : Subroutine} (made : Subroutine.thunk address function = .ok thunk) :
    (entries.put address thunk).Exact := by
  obtain ⟨layout, _, rfl⟩ := thunk_host made
  refine exact_.put ?_ ⟨fun _ => rfl, ?_, ?_⟩
  · have other : ¬entries.guestTier1 address := by
      rintro ⟨old, there, guest, _⟩
      have host := guestless old there
      rw [guest] at host
      cases host
    simp [other, Subroutine.host]
  · simp [Subroutine.host, Promotion.start, Stage.of]
  · simp [Subroutine.host]

theorem guestTier1_notify (entries : Entries) (address other : UInt64) :
    (entries.notify address).guestTier1 other ↔ entries.guestTier1 other := by
  unfold guestTier1 notify
  cases entries other with
  | none => simp
  | some subroutine => simp

/-- Guest code is pending after a notice if it was before or has just been marked. -/
theorem pending_notified {subroutine : Subroutine} (guest : subroutine.isHost = false) (address caller : UInt64) :
    (subroutine.notified address caller).promotion.stage = .pending ↔ subroutine.promotion.stage = .pending ∨
      (address ∈ subroutine.callees ∧ caller ≠ address ∧ subroutine.linksTo address = false) := by
  unfold Subroutine.notified
  split
  · next notices => simp [notices, Subroutine.markForRejit, guest, Promotion.mark]
  · next ignores => simp [ignores]

theorem stage_notified (address caller : UInt64) (subroutine : Subroutine) :
    (subroutine.notified address caller).promotion.stage = subroutine.promotion.stage ∨
      (subroutine.notified address caller).promotion.stage = .pending := by
  unfold Subroutine.notified Subroutine.markForRejit
  split
  · split
    · exact .inl rfl
    · exact .inr rfl
  · exact .inl rfl

/-- A build links to all that it could, and its notice marks all callers that do not link to it. -/
theorem Exact.rebuild (exact_ : entries.Exact) {subroutine : Subroutine}
    (made : entries.buildTier1 program builder address = .ok subroutine) :
    ((entries.put address subroutine).notify address).Exact := by
  obtain ⟨graph, build, _, rfl, built⟩ := of_buildTier1 made
  obtain ⟨tier, guest, promotion⟩ := Builder.fresh_build built
  have here : ((entries.put address build.subroutine).notify address).guestTier1 address := by
    rw [guestTier1_notify]
    exact ⟨build.subroutine, entries.put_self _ _, guest, tier⟩
  have elsewhere : ∀ other, other ≠ address →
      (((entries.put address build.subroutine).notify address).guestTier1 other ↔ entries.guestTier1 other) := by
    intro other apart
    rw [guestTier1_notify]
    unfold guestTier1
    rw [entries.put_other apart]
  intro other found there
  obtain ⟨former, before, rfl⟩ := Option.map_eq_some_iff.mp there
  by_cases same : other = address
  · subst same
    rw [entries.put_self] at before
    cases before
    have unnoticed : build.subroutine.notified other other = build.subroutine := by simp [Subroutine.notified]
    rw [unnoticed]
    refine ⟨by simp [guest], by simp [promotion, Promotion.start, Stage.of], fun _ _ => ?_⟩
    constructor
    · simp [promotion, Promotion.start, Stage.of]
    · rintro ⟨callee, calls, apart, held, unlinked⟩
      obtain ⟨target, there, _, tier1⟩ := (elsewhere callee apart).mp held
      have linked : build.subroutine.linksTo callee = true := by
        rw [Builder.linksTo_build built, ← Builder.mem_callees_build built]
        exact ⟨calls, rfl, (entries.holdsTier1_iff callee).mpr ⟨target, there, tier1⟩⟩
      rw [linked] at unlinked
      cases unlinked
  · rw [entries.put_other same] at before
    have settled := exact_ other former before
    refine ⟨?_, ?_, ?_⟩
    · intro host
      have hostBefore : former.isHost = true := by simpa using host
      have unmarked : former.markForRejit = former := if_pos hostBefore
      have unnoticed : former.notified address other = former := by
        unfold Subroutine.notified
        rw [unmarked, ite_self]
      rw [unnoticed]
      exact settled.host hostBefore
    · intro tier1
      rcases stage_notified address other former with same | marked
      · rw [same]
        exact settled.staged (by simpa using tier1)
      · simp [marked]
    · intro guestNow tierNow
      have guestBefore : former.isHost = false := by simpa using guestNow
      have tierBefore : former.tier = .tier1 := by simpa using tierNow
      rw [pending_notified guestBefore, settled.marked guestBefore tierBefore]
      constructor
      · rintro (⟨callee, calls, apart, held, unlinked⟩ | ⟨calls, _, unlinked⟩)
        · refine ⟨callee, by simpa using calls, apart, ?_, by simpa using unlinked⟩
          by_cases new : callee = address
          · rw [new]
            exact here
          · exact (elsewhere callee new).mpr held
        · exact ⟨address, by simpa using calls, Ne.symm same, here, by simpa using unlinked⟩
      · rintro ⟨callee, calls, apart, held, unlinked⟩
        simp only [Subroutine.callees_notified, Subroutine.linksTo_notified] at calls unlinked
        by_cases new : callee = address
        · subst new
          exact .inr ⟨calls, same, unlinked⟩
        · exact .inl ⟨callee, calls, apart, (elsewhere callee new).mp held, unlinked⟩

theorem Evolution.exact {builds : List UInt64} {entries : Entries}
    (evolution : Evolution program builder builds entries) : entries.Exact := by
  induction evolution with
  | start => exact fun _ _ there => nomatch there
  | move address _ moves ih =>
    cases moves with
    | first absent made => exact ih.first absent made
    | check published => exact ih.check published
    | rebuild _ _ made => exact ih.rebuild made
  | host _ guestless made ih => exact ih.host guestless made

end Entries

namespace Engine

variable {config : Config} {program : Guest.Program} {liveIn : Guest.Graph → LiveIn} {builds : List UInt64} {engine : Engine}

/-- Between dispatches tier-1 guest code waits for a rebuild just when it calls tier-1 guest code at another address
that it does not call in place. -/
theorem History.pending_iff (history : History config program liveIn builds engine) {address : UInt64}
    {subroutine : Subroutine} (resident : engine.cache.get? address = some subroutine)
    (guest : subroutine.isHost = false) (tier1 : subroutine.tier = .tier1) :
    subroutine.promotion.stage = .pending ↔ ∃ callee ∈ subroutine.callees, callee ≠ address ∧
      (∃ other, engine.cache.get? callee = some other ∧ other.isHost = false ∧ other.tier = .tier1) ∧
        subroutine.linksTo callee = false := by
  obtain ⟨entries, shown, evolution, _⟩ := history.evolution
  rw [shown.entries] at resident
  simp only [shown.entries]
  exact (evolution.exact address subroutine resident).marked guest tier1

/-- Code that was built before what it calls, and is told of it. -/
theorem history_calling : ∃ engine caller callee linkable linkableToo,
    History { threshold := 1 } .calling (fun _ => {}) [0x2000, 0x1000] engine ∧
      engine.cache.get? 0x1000 = some ((caller : Build).subroutine.notified 0x2000 0x1000) ∧
        engine.cache.get? 0x2000 = some (callee : Build).subroutine ∧ linkable 0x2000 = false ∧
          (Engine.start { threshold := 1 } .calling (fun _ => {}) {}).builder.build linkable 0x1000
            (.single ⟨0x1000, [⟨.bl, 0x1000, [], some 0x2000, 4⟩]⟩) .tier1 (Subroutine.nameOf 0x1000) = .ok caller ∧
              (Engine.start { threshold := 1 } .calling (fun _ => {}) {}).builder.build linkableToo 0x2000
                (.single ⟨0x2000, [⟨.ret, 0x2000, [], none, 4⟩]⟩) .tier1 (Subroutine.nameOf 0x2000) = .ok callee := by
  let builder := (Engine.start { threshold := 1 } .calling (fun _ => {}) {}).builder
  have calls : builder.Accepts (.single ⟨0x1000, [⟨.bl, 0x1000, [], some 0x2000, 4⟩]⟩) :=
    ⟨by decide, by decide, by decide, by decide⟩
  have returns : builder.Accepts (.single ⟨0x2000, [⟨.ret, 0x2000, [], none, 4⟩]⟩) :=
    ⟨by decide, by decide, by decide, by decide⟩
  obtain ⟨middle, caller, linkable, historyThen, shownThen, built, links⟩ := (History.start {}).promotes
    Cache.shows_empty rfl rfl rfl Guest.Program.block_calling.1 (fun known => (Guest.Program.graph_calling known).1)
    calls calls
  have absent : ((Entries.put (fun _ => none) 0x1000 caller.subroutine).notify 0x1000) 0x2000 = none := by
    simp [Entries.notify, Entries.put_other]
  obtain ⟨engine, callee, linkableToo, history, shown, builtToo, _⟩ := historyThen.promotes shownThen rfl rfl absent
    Guest.Program.block_calling.2 (fun known => (Guest.Program.graph_calling known).2) returns returns
  refine ⟨engine, caller, callee, linkable, linkableToo, history, ?_, ?_, links 0x2000 (by decide), built, builtToo⟩
  · rw [shown.entries]
    simp [Entries.notify, Entries.put_other, Subroutine.notified]
  · rw [shown.entries]
    simp [Entries.notify, Subroutine.notified]

theorem pending_iff_calling : ∃ engine subroutine, History { threshold := 1 } .calling (fun _ => {}) [0x2000, 0x1000] engine ∧
    engine.cache.get? 0x1000 = some subroutine ∧ subroutine.promotion.stage = .pending := by
  obtain ⟨engine, caller, callee, linkable, linkableToo, history, here, there, unlinked, built, builtToo⟩ :=
    history_calling
  obtain ⟨tier, guest, _⟩ := Builder.fresh_build built
  obtain ⟨tierToo, guestToo, _⟩ := Builder.fresh_build builtToo
  have pending := history.pending_iff here (by simpa using guest) (by simpa using tier)
  refine ⟨engine, _, history, here, pending.mpr ⟨0x2000, ?_, by decide, ⟨_, there, guestToo, tierToo⟩, ?_⟩⟩
  · rw [Subroutine.callees_notified, Builder.mem_callees_build built]
    decide
  · rw [Subroutine.linksTo_notified, Bool.eq_false_iff]
    intro links
    rw [Builder.linksTo_build built, unlinked] at links
    exact absurd links.2.2 (by decide)

end Engine
end Dynarec
