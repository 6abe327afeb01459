import Dynarec.Proofs.Cache.Lagging
import Dynarec.Proofs.Engine.Promotion
import Dynarec.Proofs.Guest.Exploration
import Dynarec.Proofs.Subroutine.Promotion

/-!
What a dispatch attempts and how it ends. A subscriber may refuse the address. Finding code then ends in one of five
ways: code is built for the first time or built anew, either of which may fail, or the code that is there is found. Each
tells exactly what the engine counts and notes in its tables, and the failures also that nothing else has changed. What
is found is run.
-/
namespace Dynarec
open Effect

namespace Cache

theorem checkPromotion_eq {cache : Cache} {handle : Handle} {subroutine : Subroutine}
    (held : cache.subroutine? handle = some subroutine) :
    cache.checkPromotion handle =
      (subroutine.checkPromotion.1, cache.modify handle fun _ => subroutine.checkPromotion.2) := by
  unfold checkPromotion
  rw [held]

end Cache

namespace Engine

def counted (engine : Engine) : Engine :=
  { engine with stats := { engine.stats with cacheHits := engine.stats.cacheHits + 1 } }

/-- An engine that has checked whether code is due. -/
def reviewed (engine : Engine) (handle : Handle) : Engine :=
  { engine with machine := { engine.machine with cache := (engine.cache.checkPromotion handle).2 } }

/-- How finding code for an address ends in an engine. -/
inductive Resolves (engine : Engine) (address : UInt64) :
    Except Failure (Subroutine × Profile.SubroutineTimes) × Engine → Prop
  /-- There is no code, and none can be built. -/
  | untranslated {cause : TranslationError} {decodes : Decodes} {handed : Array Ir.Function} :
      engine.cache.get? address = none → engine.tier0Build address = .error cause →
        Resolves engine address (.error (.error (.translate address cause)), { engine with decodes, handed })
  | translated {graph : Guest.Graph} {build : Build} {subroutine : Subroutine} {times : Profile.SubroutineTimes}
      {after : Engine} : engine.cache.get? address = none → engine.tier0Build address = .ok (graph, build) →
        after.stats = { engine.stats with tier0Compiles := engine.stats.tier0Compiles + 1 } →
          after.tables = engine.tables.map (·.trackSpans build.spans) →
            Resolves engine address (.ok (subroutine, times), after)
  /-- There is code, and it is not due. -/
  | found {handle : Handle} {former : Subroutine} : engine.cache.handle? address = some handle →
      engine.cache.get? address = some former → former.checkPromotion.1 = false →
        Resolves engine address (.ok (former.checkPromotion.2, {}), engine.counted.reviewed handle)
  /-- There is code that is due, and no new code can be built. -/
  | unrebuilt {handle : Handle} {former : Subroutine} {cause : TranslationError} {decodes : Decodes}
      {handed : Array Ir.Function} : engine.cache.handle? address = some handle →
      engine.cache.get? address = some former → former.checkPromotion.1 = true →
        engine.tier1Build address = .error cause →
          Resolves engine address
            (.error (.error (.translate address cause)), { engine.counted.reviewed handle with decodes, handed })
  | rebuilt {former : Subroutine} {graph : Guest.Graph} {build : Build} {times : Profile.SubroutineTimes}
      {after : Engine} : engine.cache.get? address = some former → former.checkPromotion.1 = true →
        engine.tier1Build address = .ok (graph, build) →
          after.stats = { engine.stats with
            cacheHits := engine.stats.cacheHits + 1
            tier1Compiles := engine.stats.tier1Compiles + 1
            notifications := engine.stats.notifications + (engine.cache.lagging address).length } →
              after.tables = engine.tables.map (·.trackSpans build.spans) →
                after.cache.Shows ((Entries.put engine.cache.get? address build.subroutine).notify address) →
                  Resolves engine address (.ok (build.subroutine, times), after)

variable {engine : Engine} {entries : Entries} {address : UInt64}

theorem tier1Build_reviewed (engine : Engine) (handle : Handle) (address : UInt64) :
    (engine.reviewed handle).tier1Build address = engine.tier1Build address := by
  -- a build asks which addresses have code and of which tier; a check changes neither
  have slots : (engine.cache.checkPromotion handle).2.slots = engine.cache.slots := by
    unfold Cache.checkPromotion
    split <;> rfl
  have contains : (engine.reviewed handle).cache.contains = engine.cache.contains := by
    funext other
    change Std.TreeMap.contains (engine.cache.checkPromotion handle).2.slots other = _
    rw [slots]
    rfl
  have holds : (engine.reviewed handle).cache.holdsTier1 = engine.cache.holdsTier1 := by
    funext other
    change (engine.cache.checkPromotion handle).2.holdsTier1 other = _
    cases held : engine.cache.subroutine? handle with
    | none =>
      unfold Cache.checkPromotion
      rw [held]
    | some subroutine =>
      rw [Cache.checkPromotion_eq held]
      unfold Cache.holdsTier1
      rw [Cache.get?_modify]
      split
      · next here =>
        have there : engine.cache.get? other = some subroutine := by
          unfold Cache.get?
          rw [here, Option.bind_some, held]
        simp [there]
      · rfl
  unfold tier1Build
  rw [contains, holds]
  rfl

theorem run_resolve_located {disturb : UInt64 → Engine → Engine} {mode : Mode} {located : Engine} {handle : Handle}
    {times : Profile.SubroutineTimes} (ran : (locate disturb mode address).run engine = (.ok (handle, times), located))
    {subroutine : Subroutine} (held : located.cache.subroutine? handle = some subroutine) :
    (resolve disturb mode address).run engine =
      if subroutine.checkPromotion.1 then
        match (compileTier1 address).run (located.reviewed handle) with
        | (.ok rebuilt, after) =>
          (.ok (rebuilt, { times with tier1 := some 0, backend := times.backend.or (some 0) }), after)
        | (.error failure, after) => (.error failure, after)
      else (.ok (subroutine.checkPromotion.2, times), located.reviewed handle) := by
  have check := Cache.checkPromotion_eq held
  have due : (isDue handle).run located = (.ok subroutine.checkPromotion.1, located.reviewed handle) := by
    rw [isDue, run_modifyGet]
    dsimp only
    change (Except.ok (located.cache.checkPromotion handle).1, located.reviewed handle) = _
    rw [check]
  have heldStill : (located.reviewed handle).cache.subroutine? handle = some subroutine.checkPromotion.2 := by
    change (located.cache.checkPromotion handle).2.subroutine? handle = _
    rw [check, Cache.subroutine?_modify, if_pos rfl, held]
    rfl
  unfold resolve
  rw [run_bind, ran]
  dsimp only
  rw [run_bind, due]
  dsimp only
  cases subroutine.checkPromotion.1 with
  | true =>
    rw [if_pos rfl, if_pos rfl, run_bind]
    rcases (compileTier1 address).run (located.reviewed handle) with ⟨_ | _, _⟩ <;> rfl
  | false =>
    rw [if_neg Bool.false_ne_true, if_neg Bool.false_ne_true, run_bind, run_get]
    dsimp only
    rw [heldStill]
    rfl

theorem length_lagging_settled (engine : Engine) (shown : engine.cache.Shows entries) (subroutine : Subroutine) (address : UInt64)
    (size : UInt64) :
    (((engine.cache.add subroutine).2.publish address (engine.cache.add subroutine).1 size).2.markCallers address).1 =
      (engine.cache.lagging address).length := by
  rw [Cache.count_markCallers]
  exact shown.length_lagging (shows_published shown subroutine address size)

theorem resolves_missing (absent : engine.cache.get? address = none) (missing : engine.cache.handle? address = none)
    (positive : 0 < engine.config.threshold) {disturb : UInt64 → Engine → Engine}
    (quiet : disturb address engine = engine) (mode : Mode) :
    engine.Resolves address ((resolve disturb mode address).run engine) := by
  obtain ⟨decodes, handed, ran⟩ := run_compileTier0_eq missing quiet mode
  have located : (locate disturb mode address).run engine = (compileTier0 disturb mode address).run engine := by
    unfold locate
    rw [run_bind, run_get]
    dsimp only
    rw [missing]
  rw [ran] at located
  cases made : engine.tier0Build address with
  | error cause =>
    rw [made] at located
    unfold resolve
    rw [run_bind, located]
    exact .untranslated absent made
  | ok result =>
    obtain ⟨graph, build⟩ := result
    rw [made] at located
    obtain ⟨block, _, rest⟩ := of_bind made
    obtain ⟨_, built, same⟩ := of_bind rest
    cases same
    have undue := Builder.undue_build positive built
    have held := engine.cache.subroutine?_add_self build.subroutine
    rw [run_resolve_located located held, undue, if_neg Bool.false_ne_true]
    exact .translated absent made rfl rfl

theorem resolves_present (shown : engine.cache.Shows entries) {handle : Handle}
    (here : engine.cache.handle? address = some handle) {former : Subroutine}
    (there : engine.cache.get? address = some former) (disturb : UInt64 → Engine → Engine) (mode : Mode) :
    engine.Resolves address ((resolve disturb mode address).run engine) := by
  have located : (locate disturb mode address).run engine = (.ok (handle, {}), engine.counted) := by
    unfold locate
    rw [run_bind, run_get]
    dsimp only
    rw [here]
    rfl
  have held : engine.cache.subroutine? handle = some former := by
    unfold Cache.get? at there
    rwa [here] at there
  rw [run_resolve_located located held]
  cases due : former.checkPromotion.1 with
  | false =>
    rw [if_neg Bool.false_ne_true]
    exact .found here there due
  | true =>
    obtain ⟨decodes, handed, ran⟩ := (engine.counted.reviewed handle).run_compileTier1_eq address
    have same : (engine.counted.reviewed handle).tier1Build address = engine.tier1Build address :=
      engine.counted.tier1Build_reviewed handle address
    rw [if_pos rfl, ran, same]
    cases made : engine.tier1Build address with
    | error cause => exact .unrebuilt here there due made
    | ok result =>
      obtain ⟨graph, build⟩ := result
      have published : entries address = some former := by rwa [← shown.entries]
      have reviewed : (engine.counted.reviewed handle).cache.Shows (entries.put address former.checkPromotion.2) :=
        (shown.checkPromotion here published).2
      have marked := length_lagging_settled (engine.counted.reviewed handle) reviewed build.subroutine address
        (.ofNat build.subroutine.generatedOps)
      have lagging : (engine.counted.reviewed handle).cache.lagging address = engine.cache.lagging address :=
        engine.cache.lagging_checkPromotion handle address
      rw [lagging] at marked
      have shownNow := (shows_published reviewed build.subroutine address
        (.ofNat build.subroutine.generatedOps)).markCallers address
      rw [entries.put_put, ← funext shown.entries] at shownNow
      exact .rebuilt there due made (congrArg (fun count => { engine.stats with
        cacheHits := engine.stats.cacheHits + 1
        tier1Compiles := engine.stats.tier1Compiles + 1
        notifications := engine.stats.notifications + count }) marked) rfl shownNow

theorem resolves (shown : engine.cache.Shows entries) (positive : 0 < engine.config.threshold)
    {disturb : UInt64 → Engine → Engine} (quiet : disturb address engine = engine) (mode : Mode) :
    engine.Resolves address ((resolve disturb mode address).run engine) := by
  cases here : engine.cache.handle? address with
  | none =>
    have absent : engine.cache.get? address = none := (shown.entries address).trans (shown.absent here)
    exact resolves_missing absent here positive quiet mode
  | some handle =>
    obtain ⟨former, _, there⟩ := shown.found here
    exact resolves_present shown here ((shown.entries address).trans there) disturb mode

/-- What the subscribers say to an address that they refuse. -/
def refusal? (engine : Engine) (address : UInt64) : Option String :=
  if engine.config.trace then (Subscriber.tell address engine.subscribers).1.failure else none

/-- What is left of an engine whose subscribers have been told of an address. They may have stopped the thread. -/
structure Heard (engine : Engine) (told : Engine) : Prop where
  world : told.world = engine.world ∨ told.world = { engine.world with running := false }
  setup : told.setup = engine.setup
  cache : told.cache = engine.cache
  tables : told.tables = engine.tables
  stats : told.stats = engine.stats
  decodes : told.decodes = engine.decodes
  handed : told.handed = engine.handed

theorem run_notify_heard (engine : Engine) (address : UInt64) : ∃ told, engine.Heard told ∧
    (notify address).run engine = (match engine.refusal? address with
      | some reason => .error (.error (.trace address reason))
      | none => .ok (), told) := by
  unfold notify refusal?
  rw [run_bind, run_get]
  dsimp only
  cases engine.config.trace with
  | false => exact ⟨engine, ⟨.inl rfl, rfl, rfl, rfl, rfl, rfl, rfl⟩, rfl⟩
  | true =>
    generalize Subscriber.tell address engine.subscribers = told
    obtain ⟨⟨failure, cancelled⟩, subscribers⟩ := told
    let listened : Engine := { engine with subscribers }
    rw [if_pos rfl]
    dsimp only
    rw [if_pos rfl, run_bind]
    cases cancelled with
    | false => exact ⟨listened, ⟨.inl rfl, rfl, rfl, rfl, rfl, rfl, rfl⟩, by cases failure <;> rfl⟩
    | true => exact ⟨listened.setRunning false, ⟨.inr rfl, rfl, rfl, rfl, rfl, rfl, rfl⟩, by cases failure <;> rfl⟩

theorem Heard.known {engine told : Engine} (heard : engine.Heard told) (address : UInt64) :
    told.cache.get? address = engine.cache.get? address := by rw [heard.cache]

/-- What is built depends on what an engine is given and on its cache alone. -/
theorem Heard.builds {engine told : Engine} (heard : engine.Heard told) (address : UInt64) :
    told.tier0Build address = engine.tier0Build address ∧ told.tier1Build address = engine.tier1Build address := by
  unfold tier0Build tier1Build
  rw [heard.cache, program_of_setup heard.setup, builder_of_setup heard.setup]
  exact ⟨rfl, rfl⟩

/-- What the finding of code depends on: no other thread, a threshold, and a cache that shows entries. -/
structure Fit (engine : Engine) : Prop where
  alone : engine.rivals = none
  positive : 0 < engine.config.threshold
  shown : ∃ entries, engine.cache.Shows entries

theorem Fit.of_setup {engine after : Engine} (fit : engine.Fit) (setup : after.setup = engine.setup)
    (shown : ∃ entries, after.cache.Shows entries) : after.Fit := by
  have config : after.config = engine.config := congrArg (·.1) setup
  exact ⟨(congrArg (·.2.2.2) setup).trans fit.alone, config ▸ fit.positive, shown⟩

end Engine

namespace Session

/-- How a dispatch of an address ends. -/
inductive Dispatches (limit fuel : Nat) (address : UInt64) (engine : Engine) (cpu : Cpu) :
    Except Failure UInt64 × Session → Prop
  /-- A subscriber has refused the address. -/
  | unheard {reason : String} {told : Engine} : engine.refusal? address = some reason → engine.Heard told →
      Dispatches limit fuel address engine cpu (.error (.error (.trace address reason)), ⟨told, cpu⟩)
  /-- No code has been found. -/
  | unfound {failure : Failure} {told found : Engine} : engine.refusal? address = none → engine.Heard told →
      told.Resolves address (.error failure, found) →
        Dispatches limit fuel address engine cpu (.error failure, ⟨found, cpu⟩)
  /-- Code has been found and run. -/
  | runs {subroutine : Subroutine} {times : Profile.SubroutineTimes} {told found : Engine}
      {outcome : Except Failure UInt64 × Session} : engine.refusal? address = none → engine.Heard told →
      told.Resolves address (.ok (subroutine, times), found) →
        Finds (rivals limit) cpu.mode address engine subroutine found →
          Executes fuel address subroutine found cpu outcome → Dispatches limit fuel address engine cpu outcome

end Session

theorem Engine.Fit.dispatches {engine : Engine} (fit : engine.Fit) (limit fuel : Nat) (address : UInt64) (cpu : Cpu) :
    Session.Dispatches limit fuel address engine cpu
      ((Session.dispatch (Session.rivals limit) fuel address).run ⟨engine, cpu⟩) := by
  obtain ⟨told, heard, ran⟩ := engine.run_notify_heard address
  cases refusal : engine.refusal? address with
  | some reason =>
    rw [refusal] at ran
    rw [Session.dispatch_unheard ran]
    exact .unheard refusal heard
  | none =>
    rw [refusal] at ran
    have fitStill : told.Fit := fit.of_setup heard.setup (heard.cache ▸ fit.shown)
    obtain ⟨_, shown⟩ := fitStill.shown
    have quiet := Session.rivals_quiet fitStill.alone limit address
    have resolves := Engine.resolves shown fitStill.positive quiet cpu.mode
    cases resolved : (Engine.resolve (Session.rivals limit) cpu.mode address).run told with
    | mk result found =>
      rw [resolved] at resolves
      cases result with
      | error failure =>
        rw [Session.dispatch_unfound ran resolved]
        exact .unfound refusal heard resolves
      | ok value =>
        obtain ⟨subroutine, times⟩ := value
        have finds : Session.Finds (Session.rivals limit) cpu.mode address engine subroutine found :=
          ⟨told, times, ran, resolved⟩
        exact .runs refusal heard resolves finds (finds.executes fuel)

/-- An engine that promotes code at once and builds no graph of more than one block. -/
def Engine.roamer : Engine := Engine.start { threshold := 1 } .roaming Builder.narrow {}

end Dynarec
