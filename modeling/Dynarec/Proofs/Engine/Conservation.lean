import Dynarec.Calling.Samples
import Dynarec.Proofs.Engine.Deeds
import Mathlib.Data.Set.Card

/-!
What an engine counts. A trace tells of every dispatch what came of it, and of every host function where it was
registered; the counters and the totals of the tables are sums over the trace.
-/
namespace Dynarec
namespace Engine

structure Record where
  address : UInt64
  deed : Deed
  /-- Whether code that was run broke off. -/
  broken : Bool
  /-- The engine behind it. -/
  after : Engine

/-- The code that came first to an address. -/
def firstEntry (address : UInt64) : List Record → Option Subroutine
  | [] => none
  | record :: earlier => (firstEntry address earlier).or (record.after.cache.get? address)

/-- What has happened to an engine, latest first. Between dispatches what it runs on may change. A run that breaks off
leaves the engine as it was where the code was found; what the run has written until then is such a change. -/
inductive Traced (first : Engine) : List Record → Engine → Prop
  | start : Traced first [] first
  | dispatch {trace : List Record} {engine after : Engine} {limit fuel : Nat} {address : UInt64} {cpu left : Cpu}
      {result : Except Failure UInt64} : Traced first trace engine →
      (Session.dispatch (Session.rivals limit) fuel address).run ⟨engine, cpu⟩ = (result, ⟨after, left⟩) →
        Traced first (⟨address, engine.deed address, brokeOff result, after⟩ :: trace) after
  | host {trace : List Record} {engine after : Engine} {address : UInt64} {function : Calling.HostFunction} :
      Traced first trace engine → engine.registerHost address function = .ok after →
        Traced first (⟨address, .registered, false, after⟩ :: trace) after
  | outside {trace : List Record} {engine after : Engine} : Traced first trace engine → after.setup = engine.setup →
      after.cache = engine.cache → after.stats = engine.stats → after.tables = engine.tables → Traced first trace after

theorem Traced.loop {first engine : Engine} {trace : List Record} (traced : Traced first trace engine) {limit fuel : Nat}
    {address : UInt64} {cpu left : Cpu} {result : Except Failure UInt64} {after : Engine}
    (ran : (Session.loop (Session.rivals limit) isRunning fuel address).run ⟨engine, cpu⟩ = (result, ⟨after, left⟩)) :
    ∃ more, Traced first (more ++ trace) after := by
  induction fuel generalizing engine trace address cpu with
  | zero =>
    cases ran
    exact ⟨[], traced⟩
  | succ fuel ih =>
    rw [Session.loop_succ] at ran
    cases dispatched : (Session.dispatch (Session.rivals limit) fuel address).run ⟨engine, cpu⟩ with
    | mk outcome session =>
      obtain ⟨middle, cpuThen⟩ := session
      have step := traced.dispatch dispatched
      rw [dispatched] at ran
      cases outcome with
      | error failure =>
        cases ran
        exact ⟨[_], step⟩
      | ok next =>
        dsimp only at ran
        split at ran
        · cases ran
          exact ⟨[_], step⟩
        · obtain ⟨more, later⟩ := ih step ran
          exact ⟨more ++ [_], by rw [List.append_assoc]; exact later⟩

/-- Whatever comes of a run of guest code, it is told by a trace. -/
theorem Traced.execute {first engine : Engine} {trace : List Record} (traced : Traced first trace engine) {fuel : Nat}
    {address : UInt64} {cpu left : Cpu} {result : Except Failure UInt64} {after : Engine}
    (ran : (Session.execute fuel address).run ⟨engine, cpu⟩ = (result, ⟨after, left⟩)) :
    ∃ more, Traced first (more ++ trace) after := traced.loop ran

/-- Addresses whose blocks were translated, as often as they were. -/
def translations (trace : List Record) : List UInt64 := (trace.filter (·.deed.translates)).map Record.address

/-- A trace tells which addresses have code, and to which of them guest code came first. -/
structure Tells (trace : List Record) (engine : Engine) : Prop where
  known : ∀ address, (firstEntry address trace).isSome = (engine.cache.get? address).isSome
  guests : ∀ address, address ∈ translations trace ↔
    ∃ subroutine, firstEntry address trace = some subroutine ∧ subroutine.isHost = false
  once : (translations trace).Nodup

theorem Tells.missing {trace : List Record} {engine : Engine} (tells : Tells trace engine) {address : UInt64} :
    firstEntry address trace = none ↔ engine.cache.get? address = none := by
  rw [← Option.not_isSome_iff_eq_none, ← Option.not_isSome_iff_eq_none, tells.known]

theorem mem_translations_cons {record : Record} {trace : List Record} {address : UInt64} :
    address ∈ translations (record :: trace) ↔
      (record.deed.translates = true ∧ address = record.address) ∨ address ∈ translations trace := by
  unfold translations
  rw [List.filter_cons]
  cases record.deed.translates <;> simp

theorem Tells.grow {trace : List Record} {engine after : Engine} {address : UInt64} {deed : Deed} {broken : Bool}
    (tells : Tells trace engine) (grows : engine.Grows address deed after) :
    Tells (⟨address, deed, broken, after⟩ :: trace) after := by
  -- an address that is translated had no code
  have new : deed.translates = true → firstEntry address trace = none := fun translates =>
    tells.missing.mpr (grows.fresh translates).1
  refine ⟨?_, ?_, ?_⟩
  · intro other
    rw [firstEntry]
    cases first : firstEntry other trace with
    | none => rfl
    | some subroutine =>
      have there := tells.known other
      rw [first] at there
      obtain ⟨former, held⟩ := Option.isSome_iff_exists.mp there.symm
      obtain ⟨_, stays⟩ := grows.stays other former held
      simp [stays]
  · intro other
    rw [mem_translations_cons, firstEntry, tells.guests]
    -- what came first to an address is decided by the trace so far unless the address had no code
    cases first : firstEntry other trace with
    | some subroutine =>
      have old : ¬(deed.translates = true ∧ other = address) := by
        rintro ⟨translates, rfl⟩
        cases first.symm.trans (new translates)
      rw [or_iff_right old, Option.some_or]
    | none =>
      have absent := tells.missing.mp first
      rw [or_iff_left (by simp), Option.none_or]
      constructor
      · rintro ⟨translates, rfl⟩
        obtain ⟨_, subroutine, there⟩ := grows.fresh translates
        exact ⟨subroutine, there, ((grows.comes other subroutine absent there).2).mpr translates⟩
      · rintro ⟨subroutine, there, guest⟩
        obtain ⟨here, came⟩ := grows.comes other subroutine absent there
        exact ⟨came.mp guest, here⟩
  · unfold translations
    rw [List.filter_cons]
    split
    · next translates =>
      rw [List.map_cons, List.nodup_cons]
      refine ⟨?_, tells.once⟩
      intro again
      obtain ⟨_, first, _⟩ := (tells.guests address).mp again
      cases first.symm.trans (new translates)
    · exact tells.once

variable {config : Config} {program : Guest.Program} {liveIn : Guest.Graph → LiveIn} {world : World} {trace : List Record}
  {engine : Engine}

structure Sums (trace : List Record) (engine : Engine) : Prop where
  runs : engine.stats.executions + trace.countP (·.deed = .unrebuilt) + trace.countP (·.broken) =
    engine.stats.cacheHits + engine.stats.tier0Compiles
  translations : engine.stats.tier0Compiles = (translations trace).length
  rebuilds : engine.stats.tier1Compiles = trace.countP (·.deed.rebuilds)
  notifications : engine.stats.notifications = (trace.map (·.deed.marked.length)).sum
  totals : ∀ total, engine.totals = some total →
    total = (engine.stats.executions, (trace.map (·.deed.instructions)).sum)

theorem Sums.add {after : Engine} {address : UInt64} {deed : Deed} {broken : Bool} (sums : Sums trace engine)
    (counts : engine.Counts deed broken after) : Sums (⟨address, deed, broken, after⟩ :: trace) after := by
  obtain ⟨started, stats, totalsNow⟩ := counts
  refine ⟨?_, ?_, ?_, ?_, ?_⟩
  · have balance := sums.runs
    have hits := deed.cacheHits_tally engine.stats
    have compiles := deed.tier0Compiles_tally engine.stats
    -- a run that was started has come to its end or has broken off
    have ends : (deed.starts && !broken).toNat + broken.toNat = deed.starts.toNat := by
      cases broken with
      | false => simp
      | true => simp [started rfl]
    rw [List.countP_cons, List.countP_cons, stats]
    cases failed : decide (deed = .unrebuilt) <;> cases broken <;> rw [failed] at hits <;>
      simp only [Bool.toNat_true, Bool.toNat_false, Bool.false_eq_true, if_true, if_false] at hits ends ⊢ <;> omega
  · rw [stats]
    change (deed.tally engine.stats).tier0Compiles = _
    rw [Deed.tier0Compiles_tally, sums.translations]
    unfold Engine.translations
    rw [List.filter_cons]
    cases deed.translates <;> rfl
  · rw [stats]
    change (deed.tally engine.stats).tier1Compiles = _
    rw [Deed.tier1Compiles_tally, sums.rebuilds, List.countP_cons]
    cases deed.rebuilds <;> rfl
  · rw [stats]
    change (deed.tally engine.stats).notifications = _
    rw [Deed.notifications_tally, sums.notifications, List.map_cons, List.sum_cons, Nat.add_comm]
  · intro total whole
    rw [totalsNow, Option.map_eq_some_iff] at whole
    obtain ⟨former, before, rfl⟩ := whole
    rw [sums.totals former before, stats, List.map_cons, List.sum_cons]
    exact Prod.ext rfl (Nat.add_comm _ _)

theorem tells_start (config : Config) (program : Guest.Program) (liveIn : Guest.Graph → LiveIn) (world : World) :
    Tells [] (Engine.start config program liveIn world) := by
  refine ⟨?_, ?_, List.nodup_nil⟩
  · intro address
    have absent := Cache.shows_empty.entries address
    exact (congrArg Option.isSome absent).symm
  · intro address
    constructor
    · nofun
    · rintro ⟨_, first, _⟩
      cases first

theorem totals_start (config : Config) (program : Guest.Program) (liveIn : Guest.Graph → LiveIn) (world : World) :
    (Engine.start config program liveIn world).totals = if config.introspection then some (0, 0) else none := by
  have empty : (({} : Profile.Tables).executions, ({} : Profile.Tables).occurrences) = (0, 0) := by
    simp [Profile.Tables.executions, Profile.Tables.occurrences]
  unfold totals Engine.start
  have same : config.normalized.introspection = config.introspection := rfl
  dsimp only
  rw [same]
  cases config.introspection with
  | true => exact congrArg some empty
  | false => rfl

theorem sums_start (config : Config) (program : Guest.Program) (liveIn : Guest.Graph → LiveIn) (world : World) :
    Sums [] (Engine.start config program liveIn world) := by
  refine ⟨rfl, rfl, rfl, rfl, fun total whole => ?_⟩
  rw [totals_start] at whole
  split at whole <;> cases whole
  rfl

/-- The callers marked by rebuilds are those that wait behind them. -/
def Marks (trace : List Record) : Prop :=
  ∀ record ∈ trace, record.deed.rebuilds = true → record.deed.marked.Nodup ∧
    ∀ caller, caller ∈ record.deed.marked ↔ record.after.Waits record.address caller

/-- What holds behind every trace of an engine. -/
structure Balanced (introspects : Bool) (trace : List Record) (engine : Engine) : Prop where
  fit : engine.Fit
  sane : Entries.Sane engine.cache.get?
  tells : Tells trace engine
  sums : Sums trace engine
  marks : Marks trace
  kept : engine.totals.isSome = introspects

theorem Balanced.happens {introspects : Bool} {registered : List UInt64} {after : Engine} {address : UInt64} {deed : Deed}
    {broken : Bool} (balanced : Balanced introspects trace engine) (happens : Happens engine registered after)
    (counts : engine.Counts deed broken after) (grows : engine.Grows address deed after)
    (marks : deed.rebuilds = true → deed.marked.Nodup ∧ ∀ caller, caller ∈ deed.marked ↔ after.Waits address caller) :
    Balanced introspects (⟨address, deed, broken, after⟩ :: trace) after := by
  obtain ⟨entries, shown⟩ := balanced.fit.shown
  obtain ⟨next, shownNow, setup, change⟩ := happens.shows shown balanced.fit.alone
  have sane : entries.Sane := funext shown.entries ▸ balanced.sane
  have saneNow : next.Sane := by
    rcases change with ⟨_, _, moves⟩ | ⟨_, _, _, _, made, rfl⟩
    · exact moves.sane sane
    · exact sane.host made
  refine ⟨balanced.fit.of_setup setup ⟨next, shownNow⟩, (funext shownNow.entries).symm ▸ saneNow,
    balanced.tells.grow grows, balanced.sums.add counts, List.forall_mem_cons.mpr ⟨marks, balanced.marks⟩, ?_⟩
  rw [counts.totals, Option.isSome_map]
  exact balanced.kept

theorem Traced.balanced (traced : Traced (Engine.start config program liveIn world) trace engine) :
    Balanced config.introspection trace engine := by
  induction traced with
  | start =>
    refine ⟨⟨rfl, config.normalized_threshold_pos, _, Cache.shows_empty⟩, ?_, tells_start .., sums_start ..,
      List.forall_mem_nil _, ?_⟩
    · exact funext Cache.shows_empty.entries ▸ Entries.sane_empty
    · rw [totals_start]
      cases config.introspection <;> rfl
  | dispatch _ ran ih =>
    exact ih.happens (.dispatch ran) (ih.fit.counts ran) (ih.fit.grows ran) (ih.fit.marks ran ih.sane)
  | host _ made ih =>
    obtain ⟨entries, shown⟩ := ih.fit.shown
    exact ih.happens (.host made) (counts_registerHost made) (grows_registerHost shown made) nofun
  | @outside trace engine after _ setup cache stats tables ih =>
    obtain ⟨fit, sane, ⟨known, guests, once⟩, sums, marks, kept⟩ := ih
    have same : after.totals = engine.totals := by
      unfold totals
      rw [tables]
    rw [← cache] at sane known
    refine ⟨fit.of_setup setup (cache ▸ fit.shown), sane, ⟨known, guests, once⟩, ?_, marks, same ▸ kept⟩
    obtain ⟨runs, translations, rebuilds, notifications, totals⟩ := sums
    rw [← stats] at runs translations rebuilds notifications totals
    rw [← same] at totals
    exact ⟨runs, translations, rebuilds, notifications, totals⟩

/-- Counters and tables are conserved. Each subroutine that is run was found or translated, and is counted unless its run
breaks off; each address is translated at most once, and just if guest code comes to it first; rebuilds have told the
callers that wait behind them; and the tables hold every run that is counted and every instruction built. -/
theorem Traced.conserves (traced : Traced (Engine.start config program liveIn world) trace engine) :
    engine.stats.executions + trace.countP (·.deed = .unrebuilt) + trace.countP (·.broken) =
        engine.stats.cacheHits + engine.stats.tier0Compiles ∧
      (translations trace).Nodup ∧
      engine.stats.tier0Compiles =
        {address | ∃ subroutine, firstEntry address trace = some subroutine ∧ subroutine.isHost = false}.ncard ∧
      engine.stats.tier1Compiles = trace.countP (·.deed.rebuilds) ∧
      engine.stats.notifications = (trace.map (·.deed.marked.length)).sum ∧
      (∀ record ∈ trace, record.deed.rebuilds = true → record.deed.marked.Nodup ∧
        ∀ caller, caller ∈ record.deed.marked ↔ record.after.Waits record.address caller) ∧
      (config.introspection = true → ∃ tables, engine.tables = some tables ∧
        tables.executions = engine.stats.executions ∧
          tables.occurrences = (trace.map (·.deed.instructions)).sum) := by
  obtain ⟨_, _, tells, sums, marks, kept⟩ := traced.balanced
  refine ⟨sums.runs, tells.once, ?_, sums.rebuilds, sums.notifications, marks, fun introspects => ?_⟩
  · have same : {address | ∃ subroutine, firstEntry address trace = some subroutine ∧ subroutine.isHost = false} =
        ((translations trace).toFinset : Set UInt64) := by
      ext address
      simp only [Set.mem_ofPred_eq, List.coe_toFinset]
      exact (tells.guests address).symm
    rw [same, Set.ncard_coe_finset, List.toFinset_card_of_nodup tells.once, sums.translations]
  · rw [introspects] at kept
    unfold totals at kept
    rw [Option.isSome_map] at kept
    obtain ⟨tables, held⟩ := Option.isSome_iff_exists.mp kept
    have whole : engine.totals = some (tables.executions, tables.occurrences) := by
      unfold totals
      rw [held, Option.map_some]
    obtain ⟨runs, instructions⟩ := Prod.mk.inj (sums.totals _ whole)
    exact ⟨tables, held, runs, instructions⟩

/-- A dispatch on an engine, and what came of it. -/
def visit (engine : Engine) (address : UInt64) (cpu : Cpu) : Record :=
  let outcome := (Session.dispatch (Session.rivals 0) 50 address).run ⟨engine, cpu⟩
  ⟨address, engine.deed address, brokeOff outcome.1, outcome.2.engine⟩

theorem Traced.visit {first : Engine} (traced : Traced first trace engine) (address : UInt64) (cpu : Cpu) :
    Traced first (engine.visit address cpu :: trace) (engine.visit address cpu).after :=
  traced.dispatch (Prod.ext rfl rfl)

/-- Reads a word and returns. -/
def peeker : Guest.Program := .ofList [⟨.ldr, 0x1000, [0, 1], none, 4⟩, ⟨.ret, 0x1004, [], none, 4⟩]

/-- `x1` holds the address four bytes below the top. -/
def belowTop : Cpu := { regs := ({} : RegisterFile).write (.int 1) 0xfffffffffffffffc }

/-- Code that was translated and breaks off at a read across the top of memory is not counted as run. -/
theorem executions_lt_past_top : ∃ trace engine,
    Traced (Engine.start {} peeker (fun _ => {}) { memory := .empty 0 }) trace engine ∧
      engine.stats.executions + trace.countP (·.deed = .unrebuilt) <
        engine.stats.cacheHits + engine.stats.tier0Compiles := by
  let first := Engine.start {} peeker (fun _ => {}) { memory := .empty 0 }
  have counted : (first.visit 0x1000 belowTop).after.stats = { tier0Compiles := 1 } := by
    cbv
  have translated : decide ((first.visit 0x1000 belowTop).deed = .unrebuilt) = false := by
    change decide (first.deed 0x1000 = .unrebuilt) = false
    decide +kernel
  refine ⟨_, _, Traced.start.visit 0x1000 belowTop, ?_⟩
  rw [counted, List.countP_cons, translated]
  decide

/-- Dispatches one after another, latest first. -/
def visits (trace : List Record) (engine : Engine) : List UInt64 → List Record × Engine
  | [] => (trace, engine)
  | address :: earlier =>
    let (trace, engine) := visits trace engine earlier
    let record := engine.visit address {}
    (record :: trace, record.after)

theorem Traced.visits {first : Engine} (traced : Traced first trace engine) (addresses : List UInt64) :
    Traced first (visits trace engine addresses).1 (visits trace engine addresses).2 := by
  induction addresses with
  | nil => exact traced
  | cons address earlier ih => exact ih.visit address {}

def hosting : Engine := (roamer.registerHost 0x5000 Calling.Samples.noop).toOption.getD roamer

/-- A host function is run, the callee's rebuild marks its caller, and the graph of two blocks cannot be built. -/
theorem conserves_roaming : ∃ trace engine, Traced roamer trace engine ∧
    trace.map Record.address =
      [0x3000, 0x1004, 0x2000, 0x1000, 0x3004, 0x3000, 0x1004, 0x2000, 0x1000, 0x5000, 0x5000] ∧
    engine.stats = { tier0Compiles := 5, tier1Compiles := 3, cacheHits := 5, executions := 9, notifications := 1 } ∧
    trace.countP (·.deed = .unrebuilt) = 1 ∧
    (∃ record ∈ trace, record.deed.marked = [0x1000] ∧ record.after.Waits 0x2000 0x1000) ∧
    ∃ tables, engine.tables = some tables ∧ tables.executions = 9 ∧ tables.occurrences = 9 := by
  have made : roamer.registerHost 0x5000 Calling.Samples.noop = .ok hosting := rfl
  have traced := (Traced.start.host made).visits
    [0x3000, 0x1004, 0x2000, 0x1000, 0x3004, 0x3000, 0x1004, 0x2000, 0x1000, 0x5000]
  obtain ⟨_, _, _, _, _, waits, told⟩ := traced.conserves
  obtain ⟨tables, held, runs, instructions⟩ := told rfl
  generalize route : visits [⟨0x5000, .registered, false, hosting⟩] hosting
    [0x3000, 0x1004, 0x2000, 0x1000, 0x3004, 0x3000, 0x1004, 0x2000, 0x1000, 0x5000] = behind at traced waits held runs instructions
  have counted : behind.2.stats =
      { tier0Compiles := 5, tier1Compiles := 3, cacheHits := 5, executions := 9, notifications := 1 } := by
    rw [← route]
    decide +kernel
  have built : (behind.1.map (·.deed.instructions)).sum = 9 := by
    rw [← route]
    decide +kernel
  have found : (behind.1.find? fun record =>
      record.address = 0x2000 ∧ record.deed.rebuilds ∧ record.deed.marked = [0x1000]).isSome := by
    rw [← route]
    decide +kernel
  obtain ⟨record, first⟩ := Option.isSome_iff_exists.mp found
  have member := List.mem_of_find?_eq_some first
  obtain ⟨here, rebuilds, marked⟩ : record.address = 0x2000 ∧ record.deed.rebuilds ∧ record.deed.marked = [0x1000] := by
    simpa using List.find?_some first
  have wait := ((waits record member rebuilds).2 0x1000).mp (by rw [marked]; simp)
  rw [here] at wait
  refine ⟨_, _, traced, ?_, counted, ?_, ⟨record, member, marked, wait⟩, tables, held, by rw [runs, counted], ?_⟩
  · rw [← route]
    decide +kernel
  · rw [← route]
    decide +kernel
  · rw [instructions, built]

end Engine
end Dynarec
