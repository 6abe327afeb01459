import Dynarec.Proofs.Engine.Dispatch

/-!
All that can happen to an engine's entries from its start on. An engine's history is made of dispatches, of host
functions that are registered where no guest code is, and of changes from outside to what it runs on; its entries
evolve by a few moves, each at one address. The tier-1 builds are kept, each under its address.
-/
namespace Dynarec
namespace Entries
open Effect

variable (program : Guest.Program) (builder : Builder)

/-- Code comes to an address, is checked for promotion or is built anew; with the number of tier-1 builds. -/
inductive Move (address : UInt64) (entries : Entries) : Nat → Entries → Prop
  | first {subroutine : Subroutine} : entries address = none →
      entries.buildTier0 program builder address = .ok subroutine →
        Move address entries 0 (entries.put address subroutine)
  | check {subroutine : Subroutine} : entries address = some subroutine →
      Move address entries 0 (entries.put address subroutine.checkPromotion.2)
  | rebuild {old subroutine : Subroutine} : entries address = some old → old.promotion.stage = .pending →
      entries.buildTier1 program builder address = .ok subroutine →
        Move address entries 1 ((entries.put address subroutine).notify address)

inductive Evolution : List UInt64 → Entries → Prop
  | start : Evolution [] fun _ => none
  | move {builds : List UInt64} {entries next : Entries} {count : Nat} (address : UInt64) : Evolution builds entries →
      Move program builder address entries count next → Evolution (List.replicate count address ++ builds) next
  | host {builds : List UInt64} {entries : Entries} {address : UInt64} {function : Calling.HostFunction}
      {thunk : Subroutine} : Evolution builds entries →
      (∀ old, entries address = some old → old.isHost = true) → Subroutine.thunk address function = .ok thunk →
        Evolution builds (entries.put address thunk)

variable {program : Guest.Program} {builder : Builder}

/-- A thunk is host code of tier 1, and nothing is asked of it. -/
theorem thunk_host {address : UInt64} {function : Calling.HostFunction} {thunk : Subroutine}
    (made : Subroutine.thunk address function = .ok thunk) : ∃ layout,
      Calling.Layout.ofClasses function.signature.classes = .ok layout ∧ thunk =
        Subroutine.host address function.name (layout.registers ++ [.link]) (.thunk layout function) := by
  obtain ⟨layout, placed, whole⟩ := of_bind made
  cases whole
  exact ⟨layout, placed, rfl⟩

theorem checkPromotion_due {subroutine : Subroutine} (due : subroutine.checkPromotion.1 = true) :
    subroutine.checkPromotion.2.promotion.stage = .pending := Promotion.stage_check_eq_pending_of_due due

/-- Moves at one address, one after another. -/
inductive Moves (program : Guest.Program) (builder : Builder) (address : UInt64) (entries : Entries) :
    Nat → Entries → Prop
  | none : Moves program builder address entries 0 entries
  | move {before after : Nat} {between next : Entries} : Moves program builder address entries before between →
      Move program builder address between after next → Moves program builder address entries (after + before) next

/-- Finding code is a move or two or three, or nothing where there is none. -/
theorem moves_resolve {entries next : Entries} {address : UInt64} {count : Nat}
    (resolved : (next, count) = (entries.resolve program builder address).2) :
    Moves program builder address entries count next := by
  obtain ⟨rfl, rfl⟩ := Prod.mk.inj resolved
  unfold Entries.resolve
  cases found : entries.locate program builder address with
  | error cause => exact .none
  | ok subroutine =>
    have located : Moves program builder address entries 0 (entries.put address subroutine) := by
      unfold locate at found
      split at found
      · next published =>
        cases found
        rw [entries.put_published published]
        exact .none
      · next absent => exact Moves.none.move (.first absent found)
    have checked : Moves program builder address entries 0 (entries.put address subroutine.checkPromotion.2) := by
      have moved := located.move (.check (entries.put_self address subroutine))
      rwa [entries.put_put] at moved
    dsimp only
    cases due : subroutine.checkPromotion.1 with
    | false =>
      rw [if_neg Bool.false_ne_true]
      exact checked
    | true =>
      rw [if_pos rfl]
      cases made : (entries.put address subroutine.checkPromotion.2).buildTier1 program builder address with
      | error cause => exact checked
      | ok rebuilt => exact checked.move (.rebuild (entries.put_self _ _) (checkPromotion_due due) made)

theorem Evolution.moves {builds : List UInt64} {entries next : Entries} {address : UInt64} {count : Nat}
    (evolution : Evolution program builder builds entries) (moves : Moves program builder address entries count next) :
    Evolution program builder (List.replicate count address ++ builds) next := by
  induction moves with
  | none => exact evolution
  | @move before after between next _ move ih =>
    rw [← List.replicate_append_replicate, List.append_assoc]
    exact ih.move address move

end Entries

namespace Engine
open Effect

variable (config : Config) (program : Guest.Program) (liveIn : Guest.Graph → LiveIn)

/-- What may have happened to an engine, with the addresses of its tier-1 builds, latest first. -/
inductive History : List UInt64 → Engine → Prop
  | start (world : World) : History [] (Engine.start config program liveIn world)
  | dispatch {builds : List UInt64} {engine after : Engine} {cpu left : Cpu} {result : Except Failure UInt64}
      {limit fuel : Nat} {address : UInt64} : History builds engine →
      (Session.dispatch (Session.rivals limit) fuel address).run ⟨engine, cpu⟩ = (result, ⟨after, left⟩) →
        History (List.replicate (after.stats.tier1Compiles - engine.stats.tier1Compiles) address ++ builds) after
  | host {builds : List UInt64} {engine after : Engine} {address : UInt64} {function : Calling.HostFunction} :
      History builds engine → (∀ old, engine.cache.get? address = some old → old.isHost = true) →
        engine.registerHost address function = .ok after → History builds after
  | outside {builds : List UInt64} {engine after : Engine} : History builds engine → after.setup = engine.setup →
      after.cache = engine.cache → after.stats = engine.stats → History builds after

variable {config : Config} {program : Guest.Program} {liveIn : Guest.Graph → LiveIn} {builds : List UInt64} {engine : Engine}

/-- A registered function shows at its address. -/
theorem registerHost_entries {entries : Entries} (shown : engine.cache.Shows entries) {address : UInt64}
    {function : Calling.HostFunction} {after : Engine} (registered : engine.registerHost address function = .ok after) :
    ∃ thunk, Subroutine.thunk address function = .ok thunk ∧ after.cache.Shows (entries.put address thunk) ∧
      after.setup = engine.setup ∧ after.stats = engine.stats := by
  unfold registerHost at registered
  cases made : Subroutine.thunk address function with
  | error cause => simp [made] at registered
  | ok thunk =>
    simp only [made, Except.ok.injEq] at registered
    subst registered
    exact ⟨thunk, rfl, (shown.add thunk).publish (engine.cache.subroutine?_add_self thunk) (shown.unpublished thunk)
      address 0, rfl, rfl⟩

/-- A history's entries have evolved, with the same builds. -/
theorem History.evolution (history : History config program liveIn builds engine) :
    ∃ entries, engine.cache.Shows entries ∧
      Entries.Evolution program (Engine.start config program liveIn {}).builder builds entries ∧
        engine.setup = (Engine.start config program liveIn {}).setup ∧ engine.stats.tier1Compiles = builds.length := by
  induction history with
  | start world => exact ⟨_, Cache.shows_empty, .start, rfl, rfl⟩
  | @dispatch builds engine after cpu left result limit fuel address _ ran ih =>
    obtain ⟨entries, shown, evolution, setup, counted⟩ := ih
    have single : engine.rivals = none := congrArg (·.2.2.2) setup
    obtain ⟨_, _, _, same, setupStill, next, count, shownNow, more, moves⟩ :=
      Session.dispatch_entries shown single limit fuel address cpu
    rw [ran] at same
    cases same
    rw [program_of_setup setup, builder_of_setup setup] at moves
    have difference : after.stats.tier1Compiles - engine.stats.tier1Compiles = count := by omega
    rw [difference]
    refine ⟨next, shownNow, ?_, setupStill.trans setup, ?_⟩
    · rcases moves with same | resolved
      · cases same
        exact evolution
      · exact evolution.moves (Entries.moves_resolve resolved)
    · rw [more, counted, List.length_append, List.length_replicate, Nat.add_comm]
  | host _ guestless registered ih =>
    obtain ⟨entries, shown, evolution, setup, counted⟩ := ih
    obtain ⟨thunk, made, shownNow, setupStill, statsStill⟩ := registerHost_entries shown registered
    refine ⟨_, shownNow, evolution.host ?_ made, setupStill.trans setup, by rw [statsStill, counted]⟩
    intro old there
    rw [← shown.entries] at there
    exact guestless old there
  | outside _ sameSetup sameCache sameStats ih =>
    obtain ⟨entries, shown, evolution, setup, counted⟩ := ih
    exact ⟨entries, by rwa [sameCache], evolution, sameSetup.trans setup, by rw [sameStats, counted]⟩

/-- A run of guest code adds to a history, whatever comes of it. -/
theorem History.execute (history : History config program liveIn builds engine) (fuel : Nat) (address : UInt64)
    (cpu : Cpu) :
    ∃ more, History config program liveIn (more ++ builds)
      ((Session.execute fuel address).run ⟨engine, cpu⟩).2.engine := by
  refine Session.loop_keeps (fun engine => ∃ more, History config program liveIn (more ++ builds) engine) ?_
    Engine.isRunning fuel address ⟨[], history⟩ cpu
  rintro before after cpu left result fuel address ⟨more, earlier⟩ ran
  exact ⟨_, by rw [List.append_assoc]; exact earlier.dispatch ran⟩

end Engine
end Dynarec
