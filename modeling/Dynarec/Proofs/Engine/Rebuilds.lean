import Dynarec.Proofs.Engine.Marks
import Mathlib.Algebra.BigOperators.Group.Finset.Basic
import Mathlib.Data.Set.Card

/-!
Rebuilds come to an end. A rebuild of tier-1 code is owed to a callee that has become tier-1 code since the build
before, and tier-1 code stays tier-1 code, so every callee is owed one rebuild at most.
-/
namespace Dynarec
namespace Guest.Program

/-- Code that control can come to from `caller` calls `callee`. -/
def Calls (program : Program) (caller callee : UInt64) : Prop :=
  ∃ address block, program.Reaches caller address ∧ program.block address = .ok block ∧ callee ∈ block.callees

/-- Other addresses that are called. -/
def otherCallees (program : Program) (caller : UInt64) : Set UInt64 :=
  {callee | callee ≠ caller ∧ program.Calls caller callee}

theorem finite_scripted (program : Program) : {address | program.contains address = true}.Finite := by
  refine (List.finite_toSet program.table.keys).subset ?_
  intro address scripted
  exact Std.TreeMap.mem_keys.mpr (Std.TreeMap.contains_iff_mem.mp scripted)

theorem finite_otherCallees (program : Program) (caller : UInt64) : (program.otherCallees caller).Finite := by
  let targets := program.table.keys.filterMap fun place => (program.at? place).bind Instruction.callee?
  refine (List.finite_toSet targets).subset ?_
  rintro callee ⟨_, address, block, _, found, calls⟩
  obtain ⟨instruction, member, named⟩ := List.mem_filterMap.mp calls
  rw [(run_of_block found).2.1] at member
  obtain ⟨place, there⟩ := at?_of_mem_run member
  refine List.mem_filterMap.mpr ⟨place, ?_, by simp [there, named]⟩
  rw [Std.TreeMap.mem_keys, Std.TreeMap.mem_iff_isSome_getElem?]
  exact Option.isSome_of_eq_some there

end Guest.Program

namespace Entries

variable {program : Guest.Program} {builder : Builder} {builds : List UInt64} {entries next : Entries}
  {address : UInt64}

/-- Guest code is that of scripted blocks and calls no more than they do. -/
def Sourced (program : Guest.Program) (entries : Entries) : Prop :=
  ∀ address subroutine, entries address = some subroutine → subroutine.isHost = false →
    program.contains address = true ∧ ∀ callee ∈ subroutine.callees, program.Calls address callee

/-- What code keeps while it is not built anew. -/
structure Kin (former subroutine : Subroutine) : Prop where
  isHost : subroutine.isHost = former.isHost
  tier : subroutine.tier = former.tier
  code : subroutine.code = former.code
  params : subroutine.params = former.params
  callees : subroutine.callees = former.callees
  linksTo : subroutine.linksTo = former.linksTo

theorem Kin.refl (subroutine : Subroutine) : Kin subroutine subroutine := ⟨rfl, rfl, rfl, rfl, rfl, rfl⟩

theorem kin_notified (subroutine : Subroutine) (address caller : UInt64) :
    Kin subroutine (subroutine.notified address caller) := ⟨by simp, by simp, by simp, by simp, by simp, by simp⟩

theorem kin_checkPromotion (subroutine : Subroutine) : Kin subroutine subroutine.checkPromotion.2 :=
  ⟨rfl, rfl, rfl, rfl, rfl, rfl⟩

/-- What a move leaves of the code at the addresses, but for an address at which code is built. -/
theorem Move.kin {count : Nat} (move : Move program builder address entries count next) {other : UInt64}
    {subroutine : Subroutine} (there : next other = some subroutine) :
    (∃ former, entries other = some former ∧ Kin former subroutine) ∨
      (other = address ∧ ((count = 0 ∧ entries address = none ∧
          entries.buildTier0 program builder address = .ok subroutine) ∨
        (count = 1 ∧ entries.buildTier1 program builder address = .ok subroutine))) := by
  cases move with
  | @first new absent made =>
    by_cases here : other = address
    · subst here
      rw [put_self] at there
      cases there
      exact .inr ⟨rfl, .inl ⟨rfl, absent, made⟩⟩
    · rw [entries.put_other here] at there
      exact .inl ⟨subroutine, there, .refl _⟩
  | @check former published =>
    by_cases here : other = address
    · subst here
      rw [put_self] at there
      cases there
      exact .inl ⟨former, published, kin_checkPromotion former⟩
    · rw [entries.put_other here] at there
      exact .inl ⟨subroutine, there, .refl _⟩
  | @rebuild old new published _ made =>
    obtain ⟨former, before, rfl⟩ := Option.map_eq_some_iff.mp there
    by_cases here : other = address
    · subst here
      rw [put_self] at before
      cases before
      have unnoticed : new.notified other other = new := by simp [Subroutine.notified]
      rw [unnoticed]
      exact .inr ⟨rfl, .inr ⟨rfl, made⟩⟩
    · rw [entries.put_other here] at before
      exact .inl ⟨former, before, kin_notified former address other⟩

theorem called_of_graph {graph : Guest.Graph} (isGraph : program.IsGraph address graph) {callee : UInt64}
    (calls : callee ∈ graph.callees) : program.Calls address callee := by
  obtain ⟨block, member, inside⟩ := List.mem_flatMap.mp calls
  exact ⟨block.address, block, isGraph.reached block member, isGraph.blocks block member, inside⟩

theorem sourced_build {graph : Guest.Graph} (isGraph : program.IsGraph address graph) {linkable : UInt64 → Bool}
    {tier : Tier} {name : String} {build : Build}
    (built : builder.build linkable address graph tier name = .ok build) :
    program.contains address = true ∧ ∀ callee ∈ build.subroutine.callees, program.Calls address callee := by
  obtain ⟨block, _, found⟩ := isGraph.first
  refine ⟨Guest.Program.contains_of_block found, fun callee calls => ?_⟩
  rw [Builder.mem_callees_build built] at calls
  exact called_of_graph isGraph calls

theorem Evolution.sourced (evolution : Evolution program builder builds entries) : entries.Sourced program := by
  induction evolution with
  | start => exact fun _ _ there => nomatch there
  | move address _ move ih =>
    intro other subroutine there guest
    rcases move.kin there with ⟨former, before, kin⟩ | ⟨rfl, ⟨_, _, made⟩ | ⟨_, made⟩⟩
    · rw [kin.isHost] at guest
      rw [kin.callees]
      exact ih other former before guest
    · obtain ⟨block, build, found, rfl, built⟩ := of_buildTier0 made
      exact sourced_build (Guest.Program.isGraph_single found) built
    · obtain ⟨graph, build, found, rfl, built⟩ := of_buildTier1 made
      exact sourced_build (Guest.Program.isGraph_graph found) built
  | @host builds entries address function thunk _ _ made ih =>
    intro other subroutine there guest
    by_cases here : other = address
    · subst here
      rw [put_self] at there
      cases there
      obtain ⟨layout, _, rfl⟩ := thunk_host made
      cases guest
    · rw [entries.put_other here] at there
      exact ih other subroutine there guest

/-- Code is never taken away. -/
theorem Move.stays {count : Nat} (move : Move program builder address entries count next) {other : UInt64}
    {former : Subroutine} (there : entries other = some former) : ∃ subroutine, next other = some subroutine := by
  have putStays : ∀ subroutine, ∃ found, entries.put address subroutine other = some found := by
    intro subroutine
    by_cases here : other = address
    · subst here
      exact ⟨subroutine, entries.put_self _ _⟩
    · exact ⟨former, by rwa [entries.put_other here]⟩
  cases move with
  | first => exact putStays _
  | check => exact putStays _
  | @rebuild _ new =>
    obtain ⟨found, published⟩ := putStays new
    exact ⟨found.notified address other, by simp [notify, published]⟩

/-- Tier-1 code stays tier-1 code. -/
theorem Move.holdsTier1 {count : Nat} (move : Move program builder address entries count next) {other : UInt64}
    (held : entries.holdsTier1 other = true) : next.holdsTier1 other = true := by
  rw [holdsTier1_iff] at held ⊢
  obtain ⟨former, there, tier⟩ := held
  obtain ⟨subroutine, now⟩ := move.stays there
  refine ⟨subroutine, now, ?_⟩
  rcases move.kin now with ⟨before, found, kin⟩ | ⟨rfl, ⟨_, absent, _⟩ | ⟨_, made⟩⟩
  · obtain rfl : before = former := Option.some.inj (found.symm.trans there)
    rw [kin.tier]
    exact tier
  · rw [absent] at there
    cases there
  · obtain ⟨_, build, _, rfl, built⟩ := of_buildTier1 made
    exact (Builder.fresh_build built).sameTier

/-- The builds of an address are paid for: one by itself, the others by callees that have become tier-1 code. -/
def Charged (program : Guest.Program) (builds : List UInt64) (entries : Entries) (address : UInt64) : Prop :=
  builds.count address = 0 ∨ ∃ subroutine, entries address = some subroutine ∧ subroutine.isHost = false ∧
    subroutine.tier = .tier1 ∧ ∃ paid ⊆ program.otherCallees address,
      (∀ callee ∈ paid, entries.holdsTier1 callee = true) ∧
        (∀ callee ∈ subroutine.callees, callee ≠ address → (subroutine.linksTo callee = true ↔ callee ∈ paid)) ∧
          builds.count address ≤ 1 + paid.ncard

/-- An address stays charged where its code is not built anew. -/
theorem Charged.keep (charged : Charged program builds entries address) {more : List UInt64}
    (same : more.count address = builds.count address)
    (kin : ∀ former, entries address = some former → ∃ subroutine, next address = some subroutine ∧ Kin former subroutine)
    (held : ∀ callee, entries.holdsTier1 callee = true → next.holdsTier1 callee = true) :
    Charged program more next address := by
  rcases charged with none | ⟨former, there, guest, tier, paid, inside, tiers, links, count⟩
  · exact .inl (same.trans none)
  · obtain ⟨subroutine, now, isHost, sameTier, _, _, callees, linksTo⟩ := kin former there
    refine .inr ⟨subroutine, now, isHost.trans guest, sameTier.trans tier, paid, inside,
      fun callee member => held callee (tiers callee member), ?_, by rwa [same]⟩
    rw [callees, linksTo]
    exact links

/-- A rebuild is paid for by a callee that has made the code wait for it. -/
theorem Charged.rebuild (charged : Charged program builds entries address) (exact_ : entries.Exact)
    (sourced : entries.Sourced program) {old subroutine : Subroutine} (published : entries address = some old)
    (pending : old.promotion.stage = .pending) (made : entries.buildTier1 program builder address = .ok subroutine)
    (move : Move program builder address entries 1 next) (now : next address = some subroutine) :
    Charged program (address :: builds) next address := by
  obtain ⟨graph, build, found, rfl, built⟩ := of_buildTier1 made
  obtain ⟨tier, guest, _⟩ := Builder.fresh_build built
  have calls := (sourced_build (Guest.Program.isGraph_graph found) built).2
  let paid := {callee ∈ program.otherCallees address | entries.holdsTier1 callee = true}
  refine .inr ⟨build.subroutine, now, guest, tier, paid, fun _ member => member.1,
    fun callee member => move.holdsTier1 member.2, ?_, ?_⟩
  · intro callee member apart
    rw [Builder.linksTo_build built, ← Builder.mem_callees_build built]
    exact ⟨fun ⟨_, _, held⟩ => ⟨⟨apart, calls callee member⟩, held⟩, fun ⟨_, held⟩ => ⟨member, rfl, held⟩⟩
  · rw [List.count_cons_self]
    rcases charged with none | ⟨former, there, guest, tier, before, inside, tiers, links, count⟩
    · omega
    · obtain rfl : former = old := Option.some.inj (there.symm.trans published)
      obtain ⟨callee, member, apart, held, unlinked⟩ := ((exact_ address former there).marked guest tier).mp pending
      have unpaid : callee ∉ before := by
        rw [← links callee member apart, unlinked]
        simp
      have more : insert callee before ⊆ paid := by
        rintro other (rfl | already)
        · obtain ⟨target, there, _, tier1⟩ := held
          exact ⟨⟨apart, (sourced address former published guest).2 other member⟩,
          (entries.holdsTier1_iff other).mpr ⟨target, there, tier1⟩⟩
        · exact ⟨inside already, tiers other already⟩
      have finite : paid.Finite := (program.finite_otherCallees address).subset fun _ member => member.1
      have larger := Set.ncard_le_ncard more finite
      rw [Set.ncard_insert_of_notMem unpaid ((program.finite_otherCallees address).subset inside)] at larger
      omega

theorem Charged.move {count : Nat} {other : UInt64} (charged : Charged program builds entries other)
    (move : Move program builder address entries count next) (apart : other ≠ address ∨ count = 0) :
    Charged program (List.replicate count address ++ builds) next other := by
  refine charged.keep ?_ ?_ fun callee => move.holdsTier1
  · rw [List.count_append, List.count_replicate]
    rcases apart with apart | rfl
    · simp [Ne.symm apart]
    · simp
  · intro former there
    obtain ⟨subroutine, now⟩ := move.stays there
    refine ⟨subroutine, now, ?_⟩
    rcases move.kin now with ⟨before, found, kin⟩ | ⟨here, ⟨_, absent, _⟩ | ⟨once, _⟩⟩
    · rw [there] at found
      cases found
      exact kin
    · rw [← here, there] at absent
      cases absent
    · rcases apart with apart | none
      · exact absurd here apart
      · rw [once] at none
        cases none

theorem Evolution.charged (evolution : Evolution program builder builds entries) (address : UInt64) :
    Charged program builds entries address := by
  induction evolution with
  | start => exact .inl rfl
  | @move builds entries next count place before move ih =>
    cases move with
    | first absent made => exact ih.move (.first absent made) (.inr rfl)
    | check published =>
      have move : Move program builder place entries 0 _ := .check published
      exact ih.move move (.inr rfl)
    | @rebuild old new published pending made =>
      have move : Move program builder place entries 1 _ := .rebuild published pending made
      by_cases here : address = place
      · subst here
        refine ih.rebuild before.exact before.sourced published pending made move ?_
        simp [notify, Subroutine.notified]
      · exact ih.move move (.inl here)
  | @host builds entries place function thunk _ guestless made ih =>
    obtain ⟨layout, _, rfl⟩ := thunk_host made
    by_cases here : address = place
    · subst here
      rcases ih with none | ⟨former, there, guest, _⟩
      · exact .inl none
      · rw [guestless former there] at guest
        cases guest
    · refine ih.keep rfl ?_ ?_
      · intro former there
        exact ⟨former, by rwa [entries.put_other here], .refl _⟩
      · intro callee held
        rw [holdsTier1_iff] at held ⊢
        by_cases new : callee = place
        · subst new
          exact ⟨_, entries.put_self _ _, rfl⟩
        · rwa [entries.put_other new]

/-- The addresses with guest code. -/
def guests (entries : Entries) : Set UInt64 :=
  {address | ∃ subroutine, entries address = some subroutine ∧ subroutine.isHost = false}

/-- The calls of guest code to other addresses. -/
def guestCalls (program : Guest.Program) (entries : Entries) : Set (UInt64 × UInt64) :=
  {call | call.1 ∈ entries.guests ∧ call.2 ∈ program.otherCallees call.1}

theorem Charged.count_le (charged : Charged program builds entries address) :
    builds.count address ≤ 1 + (program.otherCallees address).ncard := by
  rcases charged with none | ⟨_, _, _, _, paid, inside, _, _, count⟩
  · omega
  · have fewer := Set.ncard_le_ncard inside (program.finite_otherCallees address)
    omega

theorem Charged.guest (charged : Charged program builds entries address) (built : address ∈ builds) :
    address ∈ entries.guests := by
  rcases charged with none | ⟨subroutine, there, guest, _⟩
  · exact absurd built (List.count_eq_zero.mp none)
  · exact ⟨subroutine, there, guest⟩

theorem Evolution.finite_guests (evolution : Evolution program builder builds entries) : entries.guests.Finite := by
  refine program.finite_scripted.subset ?_
  rintro address ⟨subroutine, there, guest⟩
  exact (evolution.sourced address subroutine there guest).1

theorem Evolution.finite_guestCalls (evolution : Evolution program builder builds entries) :
    (entries.guestCalls program).Finite := by
  refine (evolution.finite_guests.biUnion fun caller _ =>
    (program.finite_otherCallees caller).image (Prod.mk caller)).subset ?_
  rintro ⟨caller, callee⟩ ⟨guest, calls⟩
  exact Set.mem_biUnion guest ⟨callee, calls, rfl⟩

/-- Calls of some of the guest code are calls of all of it. -/
theorem Evolution.sum_otherCallees_le (evolution : Evolution program builder builds entries)
    (addresses : Finset UInt64) (guests : ∀ address ∈ addresses, address ∈ entries.guests) :
    ∑ address ∈ addresses, (program.otherCallees address).ncard ≤ (entries.guestCalls program).ncard := by
  let targets := fun address => (program.finite_otherCallees address).toFinset
  have counts : ∀ address, (program.otherCallees address).ncard = (targets address).card := fun address =>
    Set.ncard_eq_toFinset_card _ (program.finite_otherCallees address)
  have total : (entries.guestCalls program).ncard = evolution.finite_guestCalls.toFinset.card :=
    Set.ncard_eq_toFinset_card _ evolution.finite_guestCalls
  simp only [counts, total]
  rw [← Finset.card_sigma]
  refine Finset.card_le_card_of_injOn (fun call => (call.1, call.2)) ?_ ?_
  · rintro ⟨caller, callee⟩ member
    obtain ⟨here, calls⟩ := Finset.mem_sigma.mp member
    have called : callee ∈ program.otherCallees caller := (Set.Finite.mem_toFinset _).mp calls
    exact (Set.Finite.mem_toFinset _).mpr ⟨guests caller here, called⟩
  · rintro ⟨caller, callee⟩ _ ⟨other, target⟩ _ same
    cases same
    rfl

theorem Evolution.length_le (evolution : Evolution program builder builds entries) :
    builds.length ≤ entries.guests.ncard + (entries.guestCalls program).ncard := by
  have guests : ∀ address ∈ builds.toFinset, address ∈ entries.guests := fun address member =>
    (evolution.charged address).guest (List.mem_toFinset.mp member)
  have each : ∀ address ∈ builds.toFinset, builds.count address ≤ 1 + (program.otherCallees address).ncard :=
    fun address _ => (evolution.charged address).count_le
  have few : builds.toFinset.card ≤ entries.guests.ncard := by
    rw [← Set.ncard_coe_finset]
    exact Set.ncard_le_ncard guests evolution.finite_guests
  calc builds.length
      = ∑ address ∈ builds.toFinset, builds.count address := (List.sum_toFinset_count_eq_length builds).symm
    _ ≤ ∑ address ∈ builds.toFinset, (1 + (program.otherCallees address).ncard) := Finset.sum_le_sum each
    _ = builds.toFinset.card + ∑ address ∈ builds.toFinset, (program.otherCallees address).ncard := by
      rw [Finset.sum_add_distrib, Finset.card_eq_sum_ones]
    _ ≤ entries.guests.ncard + (entries.guestCalls program).ncard :=
      Nat.add_le_add few (evolution.sum_otherCallees_le builds.toFinset guests)

end Entries

namespace Engine

variable {config : Config} {program : Guest.Program} {liveIn : Guest.Graph → LiveIn} {builds : List UInt64} {engine : Engine}

/-- Tier-1 builds come to an end: an address is built once and once more for every other address called from what it
can come to. -/
theorem History.builds_le (history : History config program liveIn builds engine) :
    (∀ address, builds.count address ≤ 1 + (program.otherCallees address).ncard) ∧
      engine.stats.tier1Compiles = builds.length ∧
        engine.stats.tier1Compiles ≤ (Entries.guests engine.cache.get?).ncard +
          (Entries.guestCalls program engine.cache.get?).ncard := by
  obtain ⟨entries, shown, evolution, _, counted⟩ := history.evolution
  have same : engine.cache.get? = entries := funext shown.entries
  rw [same, counted]
  exact ⟨fun address => (evolution.charged address).count_le, rfl, evolution.length_le⟩

theorem builds_le_calling : ∃ engine, History { threshold := 1 } .calling (fun _ => {}) [0x2000, 0x1000] engine ∧
    engine.stats.tier1Compiles = 2 ∧ 2 ≤ (Entries.guests engine.cache.get?).ncard +
      (Entries.guestCalls .calling engine.cache.get?).ncard := by
  obtain ⟨engine, _, _, _, _, history, _⟩ := history_calling
  obtain ⟨_, counted, bounded⟩ := history.builds_le
  exact ⟨engine, history, counted, by rwa [counted] at bounded⟩

end Engine
end Dynarec
