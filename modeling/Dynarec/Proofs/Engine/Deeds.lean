import Dynarec.Proofs.Emission.Spans
import Dynarec.Proofs.Engine.Attempts
import Dynarec.Proofs.Engine.Lifecycle
import Dynarec.Proofs.Engine.Marks
import Dynarec.Proofs.Profile.Totals

/-!
What one dispatch comes to, told from the engine before it. What the dispatch counts, what it adds to the tables and
where it brings code follow from this.
-/
namespace Dynarec
namespace Engine
open Effect

/-- What came of a dispatch of an address, or that a host function was registered there. -/
inductive Deed
  | registered
  /-- A subscriber refused the address. -/
  | unheard
  | found
  | translated (graph : Guest.Graph)
  | untranslated
  /-- Code that was due was built anew, and these callers were marked. -/
  | rebuilt (graph : Guest.Graph) (marked : List UInt64)
  /-- Code that was due could not be built anew. -/
  | unrebuilt
  deriving DecidableEq

/-- What comes of a dispatch of an address. -/
def deed (engine : Engine) (address : UInt64) : Deed :=
  match engine.refusal? address, engine.cache.get? address with
  | some _, _ => .unheard
  | none, none =>
    match engine.tier0Build address with
    | .ok (graph, _) => .translated graph
    | .error _ => .untranslated
  | none, some former =>
    if former.checkPromotion.1 then
      match engine.tier1Build address with
      | .ok (graph, _) => .rebuilt graph (engine.cache.lagging address)
      | .error _ => .unrebuilt
    else .found

namespace Deed

/-- Whether code was found, which is then run. -/
def starts : Deed → Bool
  | .found | .translated _ | .rebuilt .. => true
  | _ => false

def translates : Deed → Bool
  | .translated _ => true
  | _ => false

def rebuilds : Deed → Bool
  | .rebuilt .. => true
  | _ => false

/-- Instructions of the graphs that were built. -/
def instructions : Deed → Nat
  | .translated graph | .rebuilt graph _ => graph.size
  | _ => 0

def marked : Deed → List UInt64
  | .rebuilt _ marked => marked
  | _ => []

/-- What an engine has counted behind it, but for the run. -/
def tally (stats : Stats) : Deed → Stats
  | .registered | .unheard | .untranslated => stats
  | .found | .unrebuilt => { stats with cacheHits := stats.cacheHits + 1 }
  | .translated _ => { stats with tier0Compiles := stats.tier0Compiles + 1 }
  | .rebuilt _ marked => { stats with
      cacheHits := stats.cacheHits + 1
      tier1Compiles := stats.tier1Compiles + 1
      notifications := stats.notifications + marked.length }

variable (deed : Deed) (stats : Stats)

theorem executions_tally : (deed.tally stats).executions = stats.executions := by cases deed <;> rfl

theorem tier0Compiles_tally : (deed.tally stats).tier0Compiles = stats.tier0Compiles + deed.translates.toNat := by
  cases deed <;> rfl

theorem tier1Compiles_tally : (deed.tally stats).tier1Compiles = stats.tier1Compiles + deed.rebuilds.toNat := by
  cases deed <;> rfl

theorem notifications_tally : (deed.tally stats).notifications = stats.notifications + deed.marked.length := by
  cases deed <;> rfl

theorem cacheHits_tally : (deed.tally stats).cacheHits + deed.translates.toNat =
    stats.cacheHits + deed.starts.toNat + (decide (deed = .unrebuilt)).toNat := by
  cases deed <;> rfl

end Deed

section
variable {engine : Engine} {address : UInt64} (heard : engine.refusal? address = none)

theorem deed_unheard {reason : String} (refusal : engine.refusal? address = some reason) :
    engine.deed address = .unheard := by
  unfold deed
  rw [refusal]

include heard

theorem deed_untranslated {cause : TranslationError} (absent : engine.cache.get? address = none)
    (made : engine.tier0Build address = .error cause) : engine.deed address = .untranslated := by
  unfold deed
  rw [heard, absent, made]

theorem deed_translated {graph : Guest.Graph} {build : Build} (absent : engine.cache.get? address = none)
    (made : engine.tier0Build address = .ok (graph, build)) : engine.deed address = .translated graph := by
  unfold deed
  rw [heard, absent, made]

theorem deed_found {former : Subroutine} (there : engine.cache.get? address = some former)
    (due : former.checkPromotion.1 = false) : engine.deed address = .found := by
  unfold deed
  simp only [heard, there, due, Bool.false_eq_true, if_false]

theorem deed_unrebuilt {former : Subroutine} {cause : TranslationError} (there : engine.cache.get? address = some former)
    (due : former.checkPromotion.1 = true) (made : engine.tier1Build address = .error cause) :
    engine.deed address = .unrebuilt := by
  unfold deed
  simp only [heard, there, due, made, if_true]

theorem deed_rebuilt {former : Subroutine} {graph : Guest.Graph} {build : Build}
    (there : engine.cache.get? address = some former) (due : former.checkPromotion.1 = true)
    (made : engine.tier1Build address = .ok (graph, build)) :
    engine.deed address = .rebuilt graph (engine.cache.lagging address) := by
  unfold deed
  simp only [heard, there, due, made, if_true]

end

/-- Executions and occurrences over the tables. -/
def totals (engine : Engine) : Option (Nat × Nat) :=
  engine.tables.map fun tables => (tables.executions, tables.occurrences)

/-- Whether a run has gone beyond what the engine follows. -/
def brokeOff : Except Failure UInt64 → Bool
  | .error (.halt _) => true
  | _ => false

/-- What a dispatch counts and adds to the tables is what came of it. A run that broke off is not counted. -/
structure Counts (engine : Engine) (deed : Deed) (broken : Bool) (after : Engine) : Prop where
  started : broken = true → deed.starts = true
  stats : after.stats = { deed.tally engine.stats with
    executions := engine.stats.executions + (deed.starts && !broken).toNat }
  totals : after.totals = engine.totals.map fun (executions, occurrences) =>
    (executions + (deed.starts && !broken).toNat, occurrences + deed.instructions)

theorem Heard.totals {engine told : Engine} (heard : engine.Heard told) : told.totals = engine.totals := by
  unfold Engine.totals
  rw [heard.tables]

theorem tier0Build_spans {engine : Engine} {address : UInt64} {graph : Guest.Graph} {build : Build}
    (made : engine.tier0Build address = .ok (graph, build)) : build.spans.length = graph.size := by
  obtain ⟨block, _, rest⟩ := of_bind made
  obtain ⟨_, built, same⟩ := of_bind rest
  cases same
  exact Builder.length_spans_build built

theorem tier1Build_spans {engine : Engine} {address : UInt64} {graph : Guest.Graph} {build : Build}
    (made : engine.tier1Build address = .ok (graph, build)) : build.spans.length = graph.size := by
  obtain ⟨_, _, rest⟩ := of_bind made
  obtain ⟨_, built, same⟩ := of_bind rest
  cases same
  exact Builder.length_spans_build built

theorem counts_executes {fuel : Nat} {address : UInt64} {subroutine : Subroutine} {found after : Engine} {cpu left : Cpu}
    {result : Except Failure UInt64}
    (executes : Session.Executes fuel address subroutine found cpu (result, ⟨after, left⟩)) :
    after.stats = { found.stats with executions := found.stats.executions + (!brokeOff result).toNat } ∧
      after.totals = found.totals.map fun (executions, occurrences) =>
        (executions + (!brokeOff result).toNat, occurrences) := by
  obtain ⟨times, executed⟩ := executes
  cases ran : found.machine.run fuel subroutine cpu.regs with
  | error halt =>
    rw [ran] at executed
    cases executed
    refine ⟨rfl, ?_⟩
    cases found.totals <;> rfl
  | ok arrival =>
    rw [ran] at executed
    cases executed
    refine ⟨rfl, ?_⟩
    unfold totals recordRun
    change (found.tables.map _).map _ = (found.tables.map _).map _
    rw [Option.map_map, Option.map_map]
    refine congrArg (Option.map · found.tables) (funext fun tables => ?_)
    exact Prod.ext (tables.executions_trackSubroutine address _) (tables.occurrences_trackSubroutine address _)

theorem totals_trackSpans {engine after : Engine} {spans : List Span} {count : Nat} (length : spans.length = count)
    (tables : after.tables = engine.tables.map (·.trackSpans spans)) :
    after.totals = engine.totals.map fun (executions, occurrences) => (executions, occurrences + count) := by
  unfold totals
  rw [tables, Option.map_map, Option.map_map]
  refine congrArg (Option.map · engine.tables) (funext fun tables => ?_)
  exact Prod.ext (tables.executions_trackSpans spans) (length ▸ tables.occurrences_trackSpans spans)

/-- How a dispatch of an address ends by what comes of it. -/
inductive Fares (engine : Engine) (fuel : Nat) (address : UInt64) (cpu : Cpu) :
    Deed → Except Failure UInt64 × Session → Prop
  | unheard {reason : String} {told : Engine} : engine.Heard told →
      Fares engine fuel address cpu .unheard (.error (.error (.trace address reason)), ⟨told, cpu⟩)
  | untranslated {cause : TranslationError} {after : Engine} : engine.cache.get? address = none →
      after.cache = engine.cache → after.stats = engine.stats → after.totals = engine.totals →
        Fares engine fuel address cpu .untranslated (.error (.error (.translate address cause)), ⟨after, cpu⟩)
  | unrebuilt {former : Subroutine} {cause : TranslationError} {after : Engine} :
      engine.cache.get? address = some former → after.stats = Deed.unrebuilt.tally engine.stats →
        after.totals = engine.totals →
          Fares engine fuel address cpu .unrebuilt (.error (.error (.translate address cause)), ⟨after, cpu⟩)
  /-- Code has been found, which is counted up to its run. -/
  | runs {deed : Deed} {subroutine : Subroutine} {found : Engine} {outcome : Except Failure UInt64 × Session} :
      deed.starts = true → found.stats = deed.tally engine.stats →
        (found.totals = engine.totals.map fun (executions, occurrences) =>
          (executions, occurrences + deed.instructions)) →
          (deed.translates = true ↔ engine.cache.get? address = none) → (found.cache.get? address).isSome →
            (deed.rebuilds = true → deed.marked = engine.cache.lagging address ∧ ∃ rebuilt,
              found.cache.Shows ((Entries.put engine.cache.get? address rebuilt).notify address)) →
              Session.Executes fuel address subroutine found cpu outcome → Fares engine fuel address cpu deed outcome

theorem Fit.fares {engine : Engine} (fit : engine.Fit) (limit fuel : Nat) (address : UInt64) (cpu : Cpu) :
    engine.Fares fuel address cpu (engine.deed address)
      ((Session.dispatch (Session.rivals limit) fuel address).run ⟨engine, cpu⟩) := by
  have dispatches := fit.dispatches limit fuel address cpu
  generalize (Session.dispatch (Session.rivals limit) fuel address).run ⟨engine, cpu⟩ = outcome at dispatches
  cases dispatches with
  | unheard refusal heard =>
    rw [deed_unheard refusal]
    exact .unheard heard
  | unfound refusal heard resolves =>
    obtain ⟨first, again⟩ := heard.builds address
    cases resolves with
    | untranslated absent made =>
      rw [heard.cache] at absent
      rw [deed_untranslated refusal absent (first.symm.trans made)]
      exact .untranslated absent heard.cache heard.stats heard.totals
    | unrebuilt here there due made =>
      rw [heard.cache] at there
      rw [deed_unrebuilt refusal there due (again.symm.trans made)]
      exact .unrebuilt there (congrArg (Deed.tally · .unrebuilt) heard.stats) heard.totals
  | runs refusal heard resolves finds executes =>
    obtain ⟨first, again⟩ := heard.builds address
    obtain ⟨entries, shown⟩ := fit.shown
    obtain ⟨next, _, _, shownNow, held⟩ := finds_published shown fit.alone finds
    have published := congrArg Option.isSome ((shownNow.entries address).trans held)
    cases resolves with
    | translated absent made stats tables =>
      have totals := totals_trackSpans (tier0Build_spans made) tables
      rw [heard.cache] at absent
      rw [heard.stats] at stats
      rw [heard.totals] at totals
      rw [deed_translated refusal absent (first.symm.trans made)]
      exact .runs rfl stats totals (iff_of_true rfl absent) published nofun executes
    | found here there due =>
      rw [heard.cache] at there
      rw [deed_found refusal there due]
      refine .runs rfl (congrArg (Deed.tally · .found) heard.stats) ?_ ?_ published nofun executes
      · refine heard.totals.trans ?_
        cases engine.totals <;> rfl
      · rw [there]
        exact ⟨nofun, nofun⟩
    | rebuilt there due made stats tables shownThen =>
      have totals := totals_trackSpans (tier1Build_spans made) tables
      rw [heard.cache] at there stats shownThen
      rw [heard.stats] at stats
      rw [heard.totals] at totals
      rw [deed_rebuilt refusal there due (again.symm.trans made)]
      refine .runs rfl stats totals ?_ published (fun _ => ⟨rfl, _, shownThen⟩) executes
      rw [there]
      exact ⟨nofun, nofun⟩

/-- A caller of an address that goes elsewhere to call it and waits for a rebuild. -/
def Waits (engine : Engine) (address caller : UInt64) : Prop :=
  caller ≠ address ∧ ∃ subroutine, engine.cache.get? caller = some subroutine ∧ address ∈ subroutine.callees ∧
    subroutine.linksTo address = false ∧ subroutine.promotion.stage = .pending

/-- The callers that do not call an address in place wait once it has new code and they have been told. -/
theorem Fit.mem_lagging {engine after : Engine} {address : UInt64} {subroutine : Subroutine} (fit : engine.Fit)
    (sane : Entries.Sane engine.cache.get?)
    (shownNow : after.cache.Shows ((Entries.put engine.cache.get? address subroutine).notify address)) (caller : UInt64) :
    caller ∈ engine.cache.lagging address ↔ after.Waits address caller := by
  obtain ⟨entries, shown⟩ := fit.shown
  have same : engine.cache.get? = entries := funext shown.entries
  rw [same] at sane shownNow
  unfold Waits
  rw [shown.mem_lagging, shownNow.entries]
  constructor
  · rintro ⟨former, there, calls, apart, unlinked⟩
    have guest : former.isHost = false := by
      rw [Bool.eq_false_iff]
      intro host
      rw [sane.leaves caller former there host] at calls
      cases calls
    refine ⟨apart, former.notified address caller, ?_, by simpa using calls, by simpa using unlinked, ?_⟩
    · rw [Entries.notify, entries.put_other apart, there, Option.map_some]
    · exact (Entries.pending_notified guest address caller).mpr (.inr ⟨calls, apart, unlinked⟩)
  · rintro ⟨apart, marked, there, calls, unlinked, _⟩
    rw [Entries.notify, entries.put_other apart, Option.map_eq_some_iff] at there
    obtain ⟨former, before, rfl⟩ := there
    exact ⟨former, before, by simpa using calls, apart, by simpa using unlinked⟩

section
variable {engine after : Engine} (fit : engine.Fit) {limit fuel : Nat} {address : UInt64} {cpu left : Cpu}
  {result : Except Failure UInt64}
  (ran : (Session.dispatch (Session.rivals limit) fuel address).run ⟨engine, cpu⟩ = (result, ⟨after, left⟩))
include fit ran

theorem Fit.counts : engine.Counts (engine.deed address) (brokeOff result) after := by
  have fares := fit.fares limit fuel address cpu
  rw [ran] at fares
  -- a dispatch that fails adds nothing, which the totals have as a sum with nothing
  have still : ∀ totals : Option (Nat × Nat), totals = totals.map fun (executions, occurrences) =>
      (executions + 0, occurrences + 0) := fun totals => by cases totals <;> rfl
  generalize engine.deed address = deed at fares
  cases fares with
  | unheard heard => exact ⟨nofun, heard.stats, heard.totals.trans (still _)⟩
  | untranslated _ _ stats totals => exact ⟨nofun, stats, totals.trans (still _)⟩
  | unrebuilt _ stats totals => exact ⟨nofun, stats, totals.trans (still _)⟩
  | runs started stats totals _ _ _ executes =>
    obtain ⟨counted, told⟩ := counts_executes executes
    refine ⟨fun _ => started, ?_, ?_⟩
    · rw [counted, stats, deed.executions_tally, started, Bool.true_and]
    · rw [told, totals, Option.map_map, started, Bool.true_and]
      rfl

theorem Fit.translates_iff : (engine.deed address).translates = true ↔
    engine.cache.get? address = none ∧ ∃ subroutine, after.cache.get? address = some subroutine := by
  have fares := fit.fares limit fuel address cpu
  rw [ran] at fares
  generalize engine.deed address = deed at fares
  cases fares with
  | unheard heard =>
    rw [heard.cache]
    constructor
    · nofun
    · rintro ⟨absent, _, there⟩
      cases absent.symm.trans there
  | untranslated absent cache =>
    rw [cache, absent]
    exact ⟨nofun, nofun⟩
  | unrebuilt there =>
    rw [there]
    exact ⟨nofun, nofun⟩
  | runs _ _ _ first published _ executes =>
    have cache : after.cache = _ := executes.keeps.2.1
    rw [first, cache]
    exact (and_iff_left (Option.isSome_iff_exists.mp published)).symm

/-- Rebuilds that fail are the dispatches that report a translation error where there is code. -/
theorem Fit.unrebuilt_iff : engine.deed address = .unrebuilt ↔
    (engine.cache.get? address).isSome ∧ ∃ cause, result = .error (.error (.translate address cause)) := by
  have fares := fit.fares limit fuel address cpu
  rw [ran] at fares
  generalize engine.deed address = deed at fares
  cases fares with
  | unheard _ =>
    constructor
    · nofun
    · rintro ⟨_, _, same⟩
      cases same
  | untranslated absent =>
    rw [absent]
    exact ⟨nofun, nofun⟩
  | unrebuilt there =>
    rw [there]
    exact iff_of_true rfl ⟨rfl, _, rfl⟩
  | runs started _ _ _ _ _ executes =>
    -- what has been found is run, and a run may halt but reports no error
    refine iff_of_false ?_ ?_
    · rintro rfl
      cases started
    · rintro ⟨_, _, rfl⟩
      obtain ⟨_, executed⟩ := executes
      split at executed <;> cases executed

/-- The callers that a rebuild marks are those that wait behind it, each marked once. -/
theorem Fit.marks (sane : Entries.Sane engine.cache.get?) (rebuilds : (engine.deed address).rebuilds = true) :
    (engine.deed address).marked.Nodup ∧
      ∀ caller, caller ∈ (engine.deed address).marked ↔ after.Waits address caller := by
  have fares := fit.fares limit fuel address cpu
  rw [ran] at fares
  generalize engine.deed address = deed at fares rebuilds ⊢
  cases fares with
  | unheard => cases rebuilds
  | untranslated => cases rebuilds
  | unrebuilt => cases rebuilds
  | @runs _ _ found _ _ _ _ _ _ marks executes =>
    obtain ⟨marked, _, shownNow⟩ := marks rebuilds
    have cache : after.cache = found.cache := executes.keeps.2.1
    rw [← cache] at shownNow
    rw [marked]
    exact ⟨engine.cache.nodup_lagging address, fit.mem_lagging sane shownNow⟩

end

end Engine

namespace Entries

variable {program : Guest.Program} {builder : Builder} {address other : UInt64} {entries next : Entries} {count : Nat}

theorem Moves.stays (moves : Moves program builder address entries count next) {former : Subroutine}
    (there : entries other = some former) : ∃ subroutine, next other = some subroutine := by
  induction moves with
  | none => exact ⟨former, there⟩
  | move _ move ih =>
    obtain ⟨between, before⟩ := ih
    exact move.stays before

/-- Where moves bring code it is guest code. -/
theorem Moves.comes (moves : Moves program builder address entries count next) (absent : entries other = .none)
    {subroutine : Subroutine} (there : next other = some subroutine) : other = address ∧ subroutine.isHost = false := by
  induction moves generalizing subroutine with
  | none => cases absent.symm.trans there
  | move _ move ih =>
    rcases move.kin there with ⟨former, before, kin⟩ | ⟨rfl, ⟨_, _, made⟩ | ⟨_, made⟩⟩
    · obtain ⟨here, guest⟩ := ih before
      exact ⟨here, kin.isHost.trans guest⟩
    · obtain ⟨_, build, _, rfl, built⟩ := of_buildTier0 made
      exact ⟨rfl, (Builder.fresh_build built).guest⟩
    · obtain ⟨_, build, _, rfl, built⟩ := of_buildTier1 made
      exact ⟨rfl, (Builder.fresh_build built).guest⟩

end Entries

namespace Engine

/-- Code comes to an address where it is translated for the first time, or as a host function, and stays. -/
structure Grows (engine : Engine) (address : UInt64) (deed : Deed) (after : Engine) : Prop where
  stays : ∀ other former, engine.cache.get? other = some former → ∃ subroutine, after.cache.get? other = some subroutine
  comes : ∀ other subroutine, engine.cache.get? other = none → after.cache.get? other = some subroutine →
    other = address ∧ (subroutine.isHost = false ↔ deed.translates = true)
  fresh : deed.translates = true →
    engine.cache.get? address = none ∧ ∃ subroutine, after.cache.get? address = some subroutine

theorem Fit.grows {engine : Engine} (fit : engine.Fit) {limit fuel : Nat} {address : UInt64} {cpu left : Cpu}
    {result : Except Failure UInt64} {after : Engine}
    (ran : (Session.dispatch (Session.rivals limit) fuel address).run ⟨engine, cpu⟩ = (result, ⟨after, left⟩)) :
    engine.Grows address (engine.deed address) after := by
  have translates := fit.translates_iff ran
  obtain ⟨entries, shown⟩ := fit.shown
  obtain ⟨_, _, _, same, _, next, count, shownNow, _, resolved⟩ :=
    Session.dispatch_entries shown fit.alone limit fuel address cpu
  rw [ran] at same
  cases same
  -- a dispatch that a subscriber refuses moves no entry, any other moves those at its address
  have moves : Entries.Moves engine.program engine.builder address entries count next := by
    rcases resolved with same | resolved
    · cases same
      exact .none
    · exact Entries.moves_resolve resolved
  refine ⟨?_, ?_, translates.mp⟩
  · intro other former there
    rw [shown.entries] at there
    rw [shownNow.entries]
    exact moves.stays there
  · intro other subroutine absent there
    obtain ⟨rfl, guest⟩ := moves.comes ((shown.entries other).symm.trans absent) ((shownNow.entries other).symm.trans there)
    exact ⟨rfl, iff_of_true guest (translates.mpr ⟨absent, subroutine, there⟩)⟩

theorem grows_registerHost {engine after : Engine} {entries : Entries} (shown : engine.cache.Shows entries)
    {address : UInt64} {function : Calling.HostFunction} (made : engine.registerHost address function = .ok after) :
    engine.Grows address .registered after := by
  obtain ⟨thunk, made, shownNow, _, _⟩ := registerHost_entries shown made
  obtain ⟨layout, _, rfl⟩ := Entries.thunk_host made
  refine ⟨?_, ?_, nofun⟩
  · intro other former there
    rw [shown.entries] at there
    rw [shownNow.entries]
    by_cases here : other = address
    · subst here
      exact ⟨_, entries.put_self _ _⟩
    · exact ⟨former, by rwa [entries.put_other here]⟩
  · intro other subroutine absent there
    rw [shown.entries] at absent
    rw [shownNow.entries] at there
    by_cases here : other = address
    · subst here
      rw [entries.put_self] at there
      cases there
      exact ⟨rfl, nofun, nofun⟩
    · rw [entries.put_other here, absent] at there
      cases there

theorem counts_registerHost {engine after : Engine} {address : UInt64} {function : Calling.HostFunction}
    (made : engine.registerHost address function = .ok after) :
    engine.Counts .registered false after := by
  unfold registerHost at made
  cases thunk : Subroutine.thunk address function with
  | error cause => simp [thunk] at made
  | ok thunk =>
    simp only [thunk, Except.ok.injEq] at made
    subst made
    refine ⟨nofun, rfl, ?_⟩
    change engine.totals = _
    cases engine.totals <;> rfl

end Engine
end Dynarec
