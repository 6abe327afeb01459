import Dynarec.Calling.Samples
import Dynarec.Proofs.Emission.Linking
import Dynarec.Proofs.Engine.Rebuilds
import Dynarec.Proofs.Interpreter.Comes

/-!
The life of entries, whatever runs and is registered. An address starts with tier-0 code of its block; tier-1 code stays
tier-1 code; host code stays as it is until other host code is registered; and code calls in place only where there is
tier-1 code.
-/
namespace Dynarec

namespace Entries
open Ir

/-- Host code asks for nothing and calls nothing, and built code calls in place only where there is tier-1 code. -/
structure Sane (entries : Entries) : Prop where
  hosts : ∀ address subroutine, entries address = some subroutine → subroutine.isHost = true →
    subroutine.promotion.stage = .tier1
  leaves : ∀ address subroutine, entries address = some subroutine → subroutine.isHost = true → subroutine.callees = []
  calls : ∀ address subroutine function, entries address = some subroutine → subroutine.code = .compiled function →
    ∀ dst target, .call dst target ∈ function.ops.toList → entries.holdsTier1 target = true

theorem sane_empty : Sane fun _ => none :=
  ⟨fun _ _ there => (nomatch there), fun _ _ there => (nomatch there), fun _ _ _ there => (nomatch there)⟩

variable {program : Guest.Program} {builder : Builder} {entries next : Entries} {address : UInt64} {count : Nat}

theorem holdsTier1_put {subroutine : Subroutine} (tier : subroutine.tier = .tier1) {other : UInt64}
    (held : entries.holdsTier1 other = true) : (entries.put address subroutine).holdsTier1 other = true := by
  rw [holdsTier1_iff] at held ⊢
  by_cases here : other = address
  · subst here
    exact ⟨subroutine, entries.put_self _ _, tier⟩
  · rwa [entries.put_other here]

theorem notified_host {subroutine : Subroutine} (host : subroutine.isHost = true) (address caller : UInt64) :
    subroutine.notified address caller = subroutine := by
  have unmarked : subroutine.markForRejit = subroutine := if_pos host
  unfold Subroutine.notified
  rw [unmarked, ite_self]

/-- A move leaves host code as it is. -/
theorem Move.host (move : Move program builder address entries count next) (sane : entries.Sane) {other : UInt64}
    {subroutine : Subroutine} (there : entries other = some subroutine) (host : subroutine.isHost = true) :
    next other = some subroutine := by
  have stage := sane.hosts other subroutine there host
  cases move with
  | first absent _ =>
    have apart : other ≠ address := by
      rintro rfl
      cases there.symm.trans absent
    rwa [entries.put_other apart]
  | @check former published =>
    by_cases here : other = address
    · subst here
      obtain rfl : former = subroutine := Option.some.inj (published.symm.trans there)
      rw [entries.put_self, Subroutine.checkPromotion_of_stage (by simp [stage])]
    · rwa [entries.put_other here]
  | @rebuild old new published pending _ =>
    have apart : other ≠ address := by
      rintro rfl
      obtain rfl : old = subroutine := Option.some.inj (published.symm.trans there)
      cases pending.symm.trans stage
    unfold notify
    rw [entries.put_other apart, there, Option.map_some, notified_host host]

theorem calls_build {linkable : UInt64 → Bool} {graph : Guest.Graph} {tier : Tier} {name : String} {build : Build}
    (made : builder.build linkable address graph tier name = .ok build) {function : Function}
    (code : build.subroutine.code = .compiled function) {dst : Local} {target : UInt64}
    (member : .call dst target ∈ function.ops.toList) : linkable target = true := by
  obtain ⟨_, emission, builds, _, rfl⟩ := Builder.builds_of_build made
  obtain rfl : emission.finish.function = function := Code.compiled.inj (builds.code.symm.trans code)
  exact builds.laid.callsLinkable _ member dst target rfl

/-- A move brings no host code. -/
theorem Move.host_before (move : Move program builder address entries count next) (sane : entries.Sane) {other : UInt64}
    {subroutine : Subroutine} (there : next other = some subroutine) (host : subroutine.isHost = true) :
    entries other = some subroutine := by
  rcases move.kin there with ⟨former, before, kin⟩ | ⟨_, ⟨_, _, made⟩ | ⟨_, made⟩⟩
  · have hostBefore : former.isHost = true := kin.isHost ▸ host
    obtain rfl : subroutine = former := Option.some.inj (there.symm.trans (move.host sane before hostBefore))
    exact before
  · obtain ⟨_, build, _, rfl, built⟩ := of_buildTier0 made
    cases (Builder.fresh_build built).guest.symm.trans host
  · obtain ⟨_, build, _, rfl, built⟩ := of_buildTier1 made
    cases (Builder.fresh_build built).guest.symm.trans host

theorem Move.sane (move : Move program builder address entries count next) (sane : entries.Sane) : next.Sane := by
  refine ⟨?_, ?_, ?_⟩
  · intro other subroutine there host
    exact sane.hosts other subroutine (move.host_before sane there host) host
  · intro other subroutine there host
    exact sane.leaves other subroutine (move.host_before sane there host) host
  · intro other subroutine function there code dst target member
    refine move.holdsTier1 ?_
    rcases move.kin there with ⟨former, before, kin⟩ | ⟨_, ⟨_, _, made⟩ | ⟨_, made⟩⟩
    · exact sane.calls other former function before (kin.code ▸ code) dst target member
    · obtain ⟨_, build, _, rfl, built⟩ := of_buildTier0 made
      exact calls_build built code member
    · obtain ⟨_, build, _, rfl, built⟩ := of_buildTier1 made
      exact calls_build built code member

theorem Sane.host (sane : entries.Sane) {function : Calling.HostFunction} {thunk : Subroutine}
    (made : Subroutine.thunk address function = .ok thunk) : (entries.put address thunk).Sane := by
  obtain ⟨layout, _, rfl⟩ := thunk_host made
  refine ⟨?_, ?_, ?_⟩
  · intro other subroutine there host
    by_cases here : other = address
    · subst here
      rw [put_self] at there
      cases there
      rfl
    · rw [entries.put_other here] at there
      exact sane.hosts other subroutine there host
  · intro other subroutine there host
    by_cases here : other = address
    · subst here
      rw [put_self] at there
      cases there
      rfl
    · rw [entries.put_other here] at there
      exact sane.leaves other subroutine there host
  · intro other subroutine compiled there code dst target member
    by_cases here : other = address
    · subst here
      rw [put_self] at there
      cases there
      cases code
    · rw [entries.put_other here] at there
      exact holdsTier1_put rfl (sane.calls other subroutine compiled there code dst target member)

theorem Moves.sane (moves : Moves program builder address entries count next) (sane : entries.Sane) : next.Sane := by
  induction moves with
  | none => exact sane
  | move _ move ih => exact move.sane ih

theorem Moves.host (moves : Moves program builder address entries count next) (sane : entries.Sane) {other : UInt64}
    {subroutine : Subroutine} (there : entries other = some subroutine) (host : subroutine.isHost = true) :
    next other = some subroutine := by
  induction moves with
  | none => exact there
  | move moves move ih => exact move.host (moves.sane sane) ih host

theorem Moves.holdsTier1 (moves : Moves program builder address entries count next) {other : UInt64}
    (held : entries.holdsTier1 other = true) : next.holdsTier1 other = true := by
  induction moves with
  | none => exact held
  | move _ move ih => exact move.holdsTier1 ih

end Entries

namespace Engine
open Effect

/-- What can happen to an engine, with the addresses at which host functions are registered by it. -/
inductive Happens (engine : Engine) : List UInt64 → Engine → Prop
  | dispatch {limit fuel : Nat} {address : UInt64} {cpu left : Cpu} {result : Except Failure UInt64} {after : Engine} :
      (Session.dispatch (Session.rivals limit) fuel address).run ⟨engine, cpu⟩ = (result, ⟨after, left⟩) →
        Happens engine [] after
  | host {address : UInt64} {function : Calling.HostFunction} {after : Engine} :
      engine.registerHost address function = .ok after → Happens engine [address] after
  | outside {after : Engine} : after.setup = engine.setup → after.cache = engine.cache → Happens engine [] after

/-- Whatever has happened to an engine, with all addresses at which host functions were registered since. -/
inductive Course (first : Engine) : List UInt64 → Engine → Prop
  | start : Course first [] first
  | next {registered more : List UInt64} {engine after : Engine} : Course first registered engine →
      Happens engine more after → Course first (more ++ registered) after

/-- A run of guest code is a part of a course. -/
theorem Course.execute {first engine : Engine} {registered : List UInt64} (course : Course first registered engine)
    (fuel : Nat) (address : UInt64) (cpu : Cpu) :
    Course first registered ((Session.execute fuel address).run ⟨engine, cpu⟩).2.engine :=
  Session.loop_keeps (Course first registered) (fun course ran => course.next (.dispatch ran)) isRunning fuel address
    course cpu

variable {engine after later : Engine} {entries : Entries} {registered more : List UInt64}

/-- Entries take part in what happens by moves, or by a registration. -/
theorem Happens.shows (happens : Happens engine more after) (shown : engine.cache.Shows entries)
    (single : engine.rivals = none) :
    ∃ next, after.cache.Shows next ∧ after.setup = engine.setup ∧
      ((∃ address count, Entries.Moves engine.program engine.builder address entries count next) ∨
        ∃ address function thunk, more = [address] ∧ Subroutine.thunk address function = .ok thunk ∧
          next = entries.put address thunk) := by
  cases happens with
  | @dispatch limit fuel address cpu left result _ ran =>
    obtain ⟨_, _, _, same, setup, next, count, shownNow, _, moves⟩ :=
      Session.dispatch_entries shown single limit fuel address cpu
    rw [ran] at same
    cases same
    refine ⟨next, shownNow, setup, .inl ⟨address, count, ?_⟩⟩
    rcases moves with same | resolved
    · cases same
      exact .none
    · exact Entries.moves_resolve resolved
  | @host address function _ made =>
    obtain ⟨thunk, made, shownNow, setup, _⟩ := registerHost_entries shown made
    exact ⟨_, shownNow, setup, .inr ⟨address, function, thunk, rfl, made, rfl⟩⟩
  | outside setup cache => exact ⟨entries, by rwa [cache], setup, .inl ⟨0, 0, .none⟩⟩

/-- What stays of the entries of an engine in all that happens to it. -/
structure Lasts (entries : Entries) (registered : List UInt64) (later : Entries) : Prop where
  tier1 : ∀ address, entries.holdsTier1 address = true → later.holdsTier1 address = true
  hosts : ∀ address subroutine, entries address = some subroutine → subroutine.isHost = true →
    address ∉ registered → later address = some subroutine

theorem Course.lasts (course : Course engine registered later) (shown : engine.cache.Shows entries)
    (single : engine.rivals = none) (sane : entries.Sane) :
    ∃ next, later.cache.Shows next ∧ later.setup = engine.setup ∧ next.Sane ∧ Lasts entries registered next := by
  induction course with
  | start => exact ⟨entries, shown, rfl, sane, fun _ held => held, fun _ _ there _ _ => there⟩
  | @next registered more between after _ happens ih =>
    obtain ⟨middle, shownThen, setup, saneThen, lasts⟩ := ih
    obtain ⟨next, shownNow, setupNow, change⟩ := happens.shows shownThen ((congrArg (·.2.2.2) setup).trans single)
    refine ⟨next, shownNow, setupNow.trans setup, ?_⟩
    rcases change with ⟨address, count, moves⟩ | ⟨address, function, thunk, rfl, made, rfl⟩
    · refine ⟨moves.sane saneThen, fun other held => moves.holdsTier1 (lasts.tier1 other held), ?_⟩
      intro other subroutine there host unregistered
      have before := lasts.hosts other subroutine there host fun inside =>
        unregistered (List.mem_append_right _ inside)
      exact moves.host saneThen before host
    · have tier : thunk.tier = .tier1 := by
        obtain ⟨layout, _, rfl⟩ := Entries.thunk_host made
        rfl
      refine ⟨saneThen.host made, fun other held => Entries.holdsTier1_put tier (lasts.tier1 other held), ?_⟩
      intro other subroutine there host unregistered
      obtain ⟨apart, old⟩ := not_or.mp (mt List.mem_cons.mpr unregistered)
      rw [middle.put_other apart]
      exact lasts.hosts other subroutine there host old

/-- How the entries of an engine come, change and stay. -/
structure Orderly (engine : Engine) : Prop where
  /-- An address without an entry gets tier-0 code of its block, which is run and stays. -/
  first : ∀ {limit : Nat} {address : UInt64} {cpu : Cpu} {told : Engine} {block : Guest.Block} {build : Build},
    engine.cache.get? address = none → (notify address).run engine = (.ok (), told) →
      engine.program.block address = .ok block →
        engine.builder.build engine.cache.holdsTier1 address (.single block) .tier0 (Subroutine.nameOf address) =
          .ok build →
            ∃ subroutine found, Session.Finds (Session.rivals limit) cpu.mode address engine subroutine found ∧
              subroutine.tier = .tier0 ∧ subroutine.code = build.subroutine.code ∧
                ∀ fuel outcome, (Session.dispatch (Session.rivals limit) fuel address).run ⟨engine, cpu⟩ = outcome →
                  Session.Executes fuel address subroutine found cpu outcome ∧
                    outcome.2.engine.cache.get? address = some subroutine
  tier1 : ∀ {more : List UInt64} {later : Engine}, Course engine more later → ∀ address,
    engine.cache.holdsTier1 address = true → later.cache.holdsTier1 address = true
  hosts : ∀ {more : List UInt64} {later : Engine}, Course engine more later → ∀ address subroutine,
    engine.cache.get? address = some subroutine → subroutine.isHost = true → address ∉ more →
      later.cache.get? address = some subroutine
  /-- Whatever a dispatch runs, calls in place are made where there is tier-1 code. -/
  calls : ∀ {limit : Nat} {mode : Mode} {address : UInt64} {subroutine : Subroutine} {found : Engine},
    Session.Finds (Session.rivals limit) mode address engine subroutine found →
      found.cache.get? address = some subroutine ∧
        ∀ {regs : RegisterFile} {start context : Context} {function : Ir.Function} {args : List UInt64} {frame : Frame}
          {dst : Ir.Local} {target : UInt64},
          Interpreter.Comes found.cache (subroutine.activate regs) start (.compiled function args frame) context →
            function.ops[frame.position]? = some (.call dst target) →
              ∃ callee, found.cache.get? target = some callee ∧ callee.tier = .tier1

/-- What a dispatch has found is there, and the entries have come there by moves. -/
theorem finds_published {engine found : Engine} {entries : Entries} (shown : engine.cache.Shows entries)
    (single : engine.rivals = none) {limit : Nat} {mode : Mode} {address : UInt64} {subroutine : Subroutine}
    (finds : Session.Finds (Session.rivals limit) mode address engine subroutine found) :
    ∃ next count, Entries.Moves engine.program engine.builder address entries count next ∧ found.cache.Shows next ∧
      next address = some subroutine := by
  obtain ⟨told, times, heard, resolved⟩ := finds
  obtain ⟨setup, cache, _⟩ := engine.run_notify address
  rw [heard] at setup cache
  rw [← cache] at shown
  have same : told.rivals = engine.rivals := congrArg (·.2.2.2) setup
  have quiet := Session.rivals_quiet (same.trans single) limit address
  obtain ⟨result, next, builds, after, told?, leads, ran⟩ := Engine.run_resolve shown quiet mode
  rw [program_of_setup setup, builder_of_setup setup] at told?
  cases result with
  | error cause => cases resolved.symm.trans ran
  | ok located =>
    obtain ⟨_, ran⟩ := ran
    cases resolved.symm.trans ran
    exact ⟨next, builds, Entries.moves_resolve (by rw [told?]), leads.shown, Entries.resolve_published told?⟩

/-- Every engine's entries are orderly, whatever has happened to it since its start. -/
theorem Course.orderly {config : Config} {program : Guest.Program} {liveIn : Guest.Graph → LiveIn} {world : World}
    {registered : List UInt64} {engine : Engine}
    (course : Course (Engine.start config program liveIn world) registered engine) : engine.Orderly := by
  obtain ⟨entries, shown, setup, sane, _⟩ := course.lasts Cache.shows_empty rfl Entries.sane_empty
  have single : engine.rivals = none := congrArg (·.2.2.2) setup
  refine ⟨?_, ?_, ?_, ?_⟩
  · intro limit address cpu told block build absent heard found built
    rw [shown.entries] at absent
    have holds : engine.cache.holdsTier1 = entries.holdsTier1 := funext shown.holdsTier1
    rw [holds] at built
    have positive : 0 < engine.builder.threshold := by
      rw [builder_of_setup setup]
      exact config.normalized_threshold_pos
    have resolved := Entries.resolve_first absent positive found built
    obtain ⟨result, next, builds, after, same, leads, finds⟩ :=
      Session.dispatch_resolves shown single heard limit cpu
    rw [resolved] at same
    cases same
    refine ⟨_, after, finds, (Builder.fresh_build built).sameTier, rfl, ?_⟩
    rintro fuel outcome rfl
    have executes := finds.executes fuel
    refine ⟨executes, ?_⟩
    rw [executes.keeps.2.1, leads.shown.entries]
    exact entries.put_self _ _
  · intro more later onward address held
    obtain ⟨next, shownThen, _, _, lasts⟩ := onward.lasts shown single sane
    rw [shownThen.holdsTier1]
    exact lasts.tier1 address (by rwa [← shown.holdsTier1])
  · intro more later onward address subroutine there host unregistered
    obtain ⟨next, shownThen, _, _, lasts⟩ := onward.lasts shown single sane
    rw [shownThen.entries]
    exact lasts.hosts address subroutine (by rwa [← shown.entries]) host unregistered
  · intro limit mode address subroutine found finds
    obtain ⟨next, count, moves, shownThen, there⟩ := finds_published shown single finds
    have published : found.cache.get? address = some subroutine := by rwa [shownThen.entries]
    refine ⟨published, ?_⟩
    intro regs start context function args frame dst target comes calls
    obtain ⟨other, resident, here, code⟩ := comes.published published rfl
    rw [shownThen.entries] at here
    have held := (moves.sane sane).calls other resident function here code dst target
      (Array.mem_toList_iff.mpr (Array.mem_of_getElem? calls))
    rw [Entries.holdsTier1_iff] at held
    simpa only [shownThen.entries] using held

/-- An engine behind a run of guest code on a new thread. -/
def behind (engine : Engine) (address : UInt64) : Engine := ((Session.execute 50 address).run ⟨engine, {}⟩).2.engine

theorem Course.behind {first : Engine} (course : Course first registered engine) (addresses : List UInt64) :
    Course first registered (addresses.foldl Engine.behind engine) := by
  induction addresses generalizing engine with
  | nil => exact course
  | cons address rest ih => exact ih (course.execute 50 address {})

/-- The operation that the code of an address comes to in so many steps. -/
def operation? (engine : Engine) (fuel steps : Nat) (address : UInt64) : Option Ir.Op :=
  let resolved := (resolve (Session.rivals 0) .aarch64 address).run engine
  resolved.1.toOption.bind fun located =>
    (Interpreter.walk resolved.2.cache fuel steps (located.1.activate {}) {}).bind fun stood =>
      stood.1.ops[stood.2.2.1.position]?

theorem finds_operation (untraced : engine.config.trace = false) {fuel steps : Nat} {address : UInt64} {op : Ir.Op}
    (stands : engine.operation? fuel steps address = some op) :
    ∃ subroutine found function args frame context,
      Session.Finds (Session.rivals 0) .aarch64 address engine subroutine found ∧
        Interpreter.Comes found.cache (subroutine.activate {}) {} (.compiled function args frame) context ∧
          function.ops[frame.position]? = some op := by
  unfold operation? at stands
  cases ran : (resolve (Session.rivals 0) .aarch64 address).run engine with
  | mk result found =>
    rw [ran] at stands
    obtain ⟨⟨subroutine, times⟩, located, walked⟩ := Option.bind_eq_some_iff.mp stands
    obtain ⟨⟨function, args, frame, context⟩, stood, held⟩ := Option.bind_eq_some_iff.mp walked
    obtain rfl : result = .ok (subroutine, times) := by
      cases result with
      | error => cases located
      | ok value => exact congrArg Except.ok (Option.some.inj located)
    exact ⟨subroutine, found, function, args, frame, context,
      ⟨engine, times, run_notify_untraced untraced address, ran⟩, Interpreter.Comes.start.walk stood, held⟩

def rover : Engine := Engine.start { threshold := 1 } .roaming (fun _ => {}) {}

def hosted : Engine := (rover.registerHost 0x5000 Calling.Samples.noop).toOption.getD rover

/-- The call at `0x1000` has been linked. -/
def linked : Engine := [0x2000, 0x2000, 0x1000, 0x1000].foldl behind hosted

/-- Code that was never run, code of both tiers, a host function and a call in place. -/
theorem orderly_linked : Course rover [0x5000] linked ∧
    (∃ subroutine found, Session.Finds (Session.rivals 0) .aarch64 0x4000 linked subroutine found ∧
      subroutine.tier = .tier0) ∧
    (∃ later, Course linked [0x6000] later ∧ linked.cache.holdsTier1 0x1000 = true ∧
      later.cache.holdsTier1 0x1000 = true ∧ ∃ thunk, linked.cache.get? 0x5000 = some thunk ∧ thunk.isHost = true ∧
        later.cache.get? 0x5000 = some thunk) ∧
    ∃ subroutine found function args frame context callee,
      Session.Finds (Session.rivals 0) .aarch64 0x1000 linked subroutine found ∧
        Interpreter.Comes found.cache (subroutine.activate {}) {} (.compiled function args frame) context ∧
          function.ops[frame.position]? = some (.call 1 0x2000) ∧
            found.cache.get? 0x2000 = some callee ∧ callee.tier = .tier1 := by
  have made : rover.registerHost 0x5000 Calling.Samples.noop = .ok hosted := rfl
  have course : Course rover [0x5000] linked :=
    (Course.start.next (.host made)).behind [0x2000, 0x2000, 0x1000, 0x1000]
  have orderly := course.orderly
  have untraced : linked.config.trace = false := by decide +kernel
  refine ⟨course, ?_, ?_, ?_⟩
  · have absent : linked.cache.get? 0x4000 = none := by
      rw [← Option.isNone_iff_eq_none]
      decide +kernel
    have block : linked.program.block 0x4000 = .ok ⟨0x4000, [⟨.ret, 0x4000, [], none, 4⟩]⟩ := by decide +kernel
    have accepts : linked.builder.Accepts (.single ⟨0x4000, [⟨.ret, 0x4000, [], none, 4⟩]⟩) :=
      ⟨by decide +kernel, by decide, by decide, by decide⟩
    obtain ⟨build, _, built, _⟩ := Builder.build_ok _ linked.cache.holdsTier1 0x4000 .tier0 (Subroutine.nameOf 0x4000)
      accepts
    obtain ⟨subroutine, found, finds, tier, _⟩ :=
      @Orderly.first linked orderly 0 0x4000 {} linked _ build absent (run_notify_untraced untraced 0x4000) block built
    exact ⟨subroutine, found, finds, tier⟩
  · have held : linked.cache.holdsTier1 0x1000 = true := by decide +kernel
    have hosts : (linked.cache.get? 0x5000).any (·.isHost) = true := by decide +kernel
    obtain ⟨later, registered⟩ : ∃ later, (linked.behind 0x1000).registerHost 0x6000 Calling.Samples.noop = .ok later :=
      ⟨_, rfl⟩
    have ran : Course linked [] (linked.behind 0x1000) := Course.start.execute 50 0x1000 {}
    have onward : Course linked [0x6000] later := ran.next (.host registered)
    obtain ⟨thunk, there, host⟩ := (Option.any_eq_true _ _).mp hosts
    exact ⟨later, onward, held, orderly.tier1 onward 0x1000 held, thunk, there, host,
      orderly.hosts onward 0x5000 thunk there host (by decide)⟩
  · have stands : linked.operation? 50 4 0x1000 = some (.call 1 0x2000) := by decide +kernel
    obtain ⟨subroutine, found, function, args, frame, context, finds, comes, calls⟩ := finds_operation untraced stands
    obtain ⟨callee, there, tier⟩ := (orderly.calls finds).2 comes calls
    exact ⟨subroutine, found, function, args, frame, context, callee, finds, comes, calls, there, tier⟩

end Engine
end Dynarec
