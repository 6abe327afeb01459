import Dynarec.Proofs.Engine.Attempts
import Dynarec.Proofs.Engine.Lifecycle

/-!
Runs that fail. A run that ends in an error leaves everything as the last subroutine it completed has left it: the
registers, the memory, the cache and the tables. What the failing dispatch counts, and what becomes of the promotion of
the code at its address, tells how far it came.
-/
namespace Dynarec
open Effect

namespace Session

/-- What a run goes through by dispatches that each complete a subroutine: the sessions between them, each with the
address to go on at. -/
inductive Completes (limit : Nat) (first : Session) (start : UInt64) : Session → UInt64 → Prop
  | none : Completes limit first start first start
  | more {fuel : Nat} {session after : Session} {address next : UInt64} : Completes limit first start session address →
      (dispatch (rivals limit) fuel address).run session = (.ok next, after) → next ≠ 0 →
        after.engine.isRunning = true → Completes limit first start after next

theorem Completes.fails {limit : Nat} {first session after : Session} {start address : UInt64} {error : ExecError}
    (completes : Completes limit first start session address) {fuel : Nat}
    (failed : (loop (rivals limit) Engine.isRunning fuel address).run session = (.error (.error error), after)) :
    ∃ last current rest, Completes limit first start last current ∧
      (dispatch (rivals limit) rest current).run last = (.error (.error error), after) := by
  -- the dispatches that succeed are handed to `completes`, the first that fails is the one looked for
  induction fuel generalizing session address with
  | zero => cases failed
  | succ fuel ih =>
    rw [loop_succ] at failed
    cases ran : (dispatch (rivals limit) fuel address).run session with
    | mk result middle =>
      rw [ran] at failed
      cases result with
      | error failure =>
        cases failed
        exact ⟨session, address, fuel, completes, ran⟩
      | ok next =>
        dsimp only at failed
        split at failed
        · cases failed
        · next goes =>
          obtain ⟨onward, running⟩ := not_or.mp goes
          exact ih (completes.more ran onward (by simpa using running)) failed

end Session

namespace Engine

/-- What an engine can come to: guest code runs on it, host functions are registered, entries are marked for a rebuild,
and what it runs on changes from outside. -/
inductive Reached : Engine → Prop
  | start (config : Config) (program : Guest.Program) (liveIn : Guest.Graph → LiveIn) (world : World) :
      Reached (Engine.start config program liveIn world)
  | happens {registered : List UInt64} {engine after : Engine} : Reached engine → Happens engine registered after →
      Reached after
  | mark {engine : Engine} (address : UInt64) : Reached engine → Reached (engine.mark address).2

theorem Fit.mark {engine : Engine} (fit : engine.Fit) (address : UInt64) : (engine.mark address).2.Fit := by
  obtain ⟨entries, shown⟩ := fit.shown
  unfold Engine.mark
  cases here : engine.cache.handle? address with
  | none => exact fit
  | some handle =>
    obtain ⟨subroutine, _, published⟩ := shown.found here
    exact fit.of_setup rfl ⟨_, shown.modify here published Subroutine.markForRejit subroutine.callees_markForRejit⟩

theorem Reached.fit {engine : Engine} (reached : engine.Reached) : engine.Fit := by
  induction reached with
  | start config program liveIn world => exact ⟨rfl, config.normalized_threshold_pos, _, Cache.shows_empty⟩
  | happens _ happens fit =>
    obtain ⟨entries, shown⟩ := fit.shown
    obtain ⟨next, shownNow, setup, _⟩ := happens.shows shown fit.alone
    exact fit.of_setup setup ⟨next, shownNow⟩
  | mark address _ fit => exact fit.mark address

/-- A run of guest code is among what an engine can come through, whatever comes of it. -/
theorem Reached.execute {engine : Engine} (reached : engine.Reached) (fuel : Nat) (address : UInt64) (cpu : Cpu) :
    ((Session.execute fuel address).run ⟨engine, cpu⟩).2.engine.Reached :=
  Session.loop_keeps Reached (fun reached ran => reached.happens (.dispatch ran)) isRunning fuel address reached cpu

theorem Reached.completes {limit : Nat} {first last : Session} {start address : UInt64}
    (reached : first.engine.Reached) (completes : Session.Completes limit first start last address) :
    last.engine.Reached := by
  induction completes with
  | none => exact reached
  | more _ ran _ _ ih => exact ih.happens (.dispatch ran)

/-- Why a dispatch of an address failed in an engine, and how much of it `after` shows. -/
inductive Blames (engine : Engine) (address : UInt64) (after : Engine) : ExecError → Prop
  /-- A subscriber failed. Nothing was looked up or translated. -/
  | unheard {reason : String} : engine.refusal? address = some reason → after.cache = engine.cache →
      after.stats = engine.stats → after.decodes = engine.decodes → after.handed = engine.handed →
        Blames engine address after (.trace address reason)
  /-- There is no code, and none could be built. There still is none. -/
  | untranslated {cause : TranslationError} : engine.cache.get? address = none →
      engine.tier0Build address = .error cause → after.cache = engine.cache → after.stats = engine.stats →
        Blames engine address after (.translate address cause)
  /-- There is code that is due, and no new code could be built. It is still there, and pending. -/
  | unrebuilt {former : Subroutine} {promotion : Promotion} {cause : TranslationError} :
      engine.cache.get? address = some former → former.checkPromotion.1 = true →
        engine.tier1Build address = .error cause → after.cache.get? address = some { former with promotion } →
          promotion.stage = .pending →
            after.stats = { engine.stats with cacheHits := engine.stats.cacheHits + 1 } →
              Blames engine address after (.translate address cause)

end Engine

namespace Session

/-- Everything is as it was before a dispatch of an address that failed, but for what tells how far it came. The
subscribers that were told may have stopped the thread. -/
structure Undone (before : Session) (address : UInt64) (error : ExecError) (after : Session) : Prop where
  cpu : after.cpu = before.cpu
  world : after.engine.world = before.engine.world ∨
    after.engine.world = { before.engine.world with running := false }
  setup : after.engine.setup = before.engine.setup
  tables : after.engine.tables = before.engine.tables
  slots : after.engine.cache.slots = before.engine.cache.slots
  callers : after.engine.cache.callers = before.engine.cache.callers
  elsewhere : ∀ other, other ≠ address → after.engine.cache.get? other = before.engine.cache.get? other
  blames : before.engine.Blames address after.engine error

end Session

namespace Engine

theorem Heard.undone {engine told found : Engine} (heard : engine.Heard told) {entries : Entries}
    (shown : engine.cache.Shows entries) {address : UInt64} {error : ExecError}
    (resolves : told.Resolves address (.error (.error error), found)) (cpu : Cpu) :
    Session.Undone ⟨engine, cpu⟩ address error ⟨found, cpu⟩ := by
  obtain ⟨first, again⟩ := heard.builds address
  cases resolves with
  | untranslated absent made =>
    rw [heard.cache] at absent
    exact ⟨rfl, heard.world, heard.setup, heard.tables, congrArg Cache.slots heard.cache,
      congrArg Cache.callers heard.cache, fun other _ => heard.known other,
      .untranslated absent (first.symm.trans made) heard.cache heard.stats⟩
  | @unrebuilt handle former _ decodes handed here there due made =>
    rw [heard.cache] at here there
    have held : engine.cache.subroutine? handle = some former := by
      unfold Cache.get? at there
      rwa [here] at there
    have cache : ({ told.counted.reviewed handle with decodes, handed } : Engine).cache =
        engine.cache.modify handle fun _ => former.checkPromotion.2 := by
      rw [← heard.cache] at held ⊢
      exact congrArg Prod.snd (Cache.checkPromotion_eq held)
    have counted : ({ told.counted.reviewed handle with decodes, handed } : Engine).stats =
        { engine.stats with cacheHits := engine.stats.cacheHits + 1 } := by
      rw [← heard.stats]
      rfl
    -- no two addresses share a handle, so the check that was made shows at this address alone
    refine ⟨rfl, heard.world, heard.setup, heard.tables, (congrArg Cache.slots cache).trans rfl,
      (congrArg Cache.callers cache).trans rfl, fun other apart => ?_,
      .unrebuilt there due (again.symm.trans made) ?_ (Entries.checkPromotion_due due) counted⟩
    · dsimp only
      rw [cache, Cache.get?_modify, if_neg fun same => apart (shown.apart other address handle same here)]
    · rw [cache, Cache.get?_modify, if_pos here, there]
      rfl

end Engine

namespace Session

theorem dispatch_undone {engine : Engine} (fit : engine.Fit) {limit fuel : Nat} {address : UInt64} {cpu : Cpu}
    {error : ExecError} {after : Session}
    (failed : (dispatch (rivals limit) fuel address).run ⟨engine, cpu⟩ = (.error (.error error), after)) :
    Undone ⟨engine, cpu⟩ address error after := by
  obtain ⟨_, shown⟩ := fit.shown
  have dispatches := fit.dispatches limit fuel address cpu
  rw [failed] at dispatches
  cases dispatches with
  | unheard refusal heard =>
    exact ⟨rfl, heard.world, heard.setup, heard.tables, congrArg Cache.slots heard.cache,
      congrArg Cache.callers heard.cache, fun other _ => heard.known other,
      .unheard refusal heard.cache heard.stats heard.decodes heard.handed⟩
  | unfound _ heard resolves => exact heard.undone shown resolves cpu
  | @runs _ _ _ found _ _ _ _ _ executes =>
    obtain ⟨_, executed⟩ := executes
    split at executed <;> cases executed

end Session

namespace Engine

/-- A run that ends in an error is undone from the last subroutine on that it completed; and a subscriber that fails
ends a dispatch at once. -/
theorem Reached.atomic {engine : Engine} (reached : engine.Reached) :
    (∀ {fuel : Nat} {address : UInt64} {cpu : Cpu} {error : ExecError} {after : Session},
      (Session.execute fuel address).run ⟨engine, cpu⟩ = (.error (.error error), after) →
        ∃ last current, Session.Completes fuel ⟨engine, cpu⟩ address last current ∧
          Session.Undone last current error after) ∧
      ∀ {limit fuel : Nat} {address : UInt64} {cpu : Cpu} {reason : String},
        engine.refusal? address = some reason →
          ∃ after, (Session.dispatch (Session.rivals limit) fuel address).run ⟨engine, cpu⟩ =
              (.error (.error (.trace address reason)), after) ∧
            Session.Undone ⟨engine, cpu⟩ address (.trace address reason) after := by
  constructor
  · intro fuel address cpu error after failed
    obtain ⟨last, current, rest, completes, ran⟩ :=
      (Session.Completes.none : Session.Completes fuel ⟨engine, cpu⟩ address _ _).fails failed
    obtain ⟨between, cpuThen⟩ := last
    exact ⟨_, current, completes, Session.dispatch_undone (reached.completes completes).fit ran⟩
  · intro limit fuel address cpu reason refusal
    obtain ⟨told, _, heard⟩ := engine.run_notify_heard address
    rw [refusal] at heard
    have ran := Session.dispatch_unheard heard (Session.rivals limit) fuel cpu
    exact ⟨_, ran, Session.dispatch_undone reached.fit ran⟩

/-- Behind a run that ended well. -/
def roamed : Engine := ((Session.execute 50 0x1000).run ⟨roamer, {}⟩).2.engine

/-- A second run ends where a graph cannot be built, behind code that it has run; a run ends where no instruction is; and
a subscriber refuses an address. -/
theorem atomic_roamed :
    (∃ after last, (Session.execute 50 0x1000).run ⟨roamed, {}⟩ =
        (.error (.error (.translate 0x3000 (.unsupportedRegister ⟨32, .vector⟩))), after) ∧
      Session.Completes 50 ⟨roamed, {}⟩ 0x1000 last 0x3000 ∧
        Session.Undone last 0x3000 (.translate 0x3000 (.unsupportedRegister ⟨32, .vector⟩)) after ∧
          roamed.stats.executions = 5 ∧ last.engine.stats.executions = 8) ∧
      (∃ after last current, (Session.execute 1 0x1000).run ⟨Engine.start {} {} (fun _ => {}) {}, {}⟩ =
          (.error (.error (.translate 0x1000 (.decode 0x1000 "no instruction scripted"))), after) ∧
        Session.Completes 1 ⟨Engine.start {} {} (fun _ => {}) {}, {}⟩ 0x1000 last current ∧
          Session.Undone last current (.translate 0x1000 (.decode 0x1000 "no instruction scripted")) after) ∧
        ∃ engine after, (Session.dispatch (Session.rivals 0) 0 0x1000).run ⟨engine, {}⟩ =
            (.error (.error (.trace 0x1000 "refused")), after) ∧
          Session.Undone ⟨engine, {}⟩ 0x1000 (.trace 0x1000 "refused") after := by
  refine ⟨?_, ?_, ?_⟩
  · have reached : roamed.Reached := by
      unfold roamed roamer
      exact (Reached.start { threshold := 1 } .roaming Builder.narrow {}).execute 50 0x1000 {}
    have failed : ((Session.execute 50 0x1000).run ⟨roamed, {}⟩).1 =
        .error (.error (.translate 0x3000 (.unsupportedRegister ⟨32, .vector⟩))) := by decide +kernel
    have counted : ((Session.execute 50 0x1000).run ⟨roamed, {}⟩).2.engine.stats.executions = 8 := by decide +kernel
    have before : roamed.stats.executions = 5 := by decide +kernel
    cases ran : (Session.execute 50 0x1000).run ⟨roamed, {}⟩ with
    | mk result after =>
      rw [ran] at failed counted
      obtain rfl : result = _ := failed
      obtain ⟨last, current, completes, undone⟩ := reached.atomic.1 ran
      -- the error names the address of the dispatch that failed, which has run nothing
      have told : current = 0x3000 ∧ after.engine.stats.executions = last.engine.stats.executions := by
        cases undone.blames with
        | untranslated _ _ _ stats => exact ⟨rfl, congrArg Stats.executions stats⟩
        | unrebuilt _ _ _ _ _ stats => exact ⟨rfl, (congrArg Stats.executions stats).trans rfl⟩
      obtain ⟨rfl, same⟩ := told
      exact ⟨after, last, rfl, completes, undone, before, same ▸ counted⟩
  · have failed : ((Session.execute 1 0x1000).run ⟨Engine.start {} {} (fun _ => {}) {}, {}⟩).1 =
        .error (.error (.translate 0x1000 (.decode 0x1000 "no instruction scripted"))) := by rfl
    have ran := Prod.ext failed (Eq.refl ((Session.execute 1 0x1000).run ⟨Engine.start {} {} (fun _ => {}) {}, {}⟩).2)
    obtain ⟨last, current, completes, undone⟩ := (Reached.start {} {} (fun _ => {}) {}).atomic.1 ran
    exact ⟨_, last, current, ran, completes, undone⟩
  · let engine := (Engine.start { trace := true } {} (fun _ => {}) {}).subscribe (.failingAt 0x1000 "refused")
    have reached : engine.Reached := (Reached.start { trace := true } {} (fun _ => {}) {}).happens (.outside rfl rfl)
    have refused : engine.refusal? 0x1000 = some "refused" := by decide
    exact ⟨engine, reached.atomic.2 refused⟩

end Engine
end Dynarec
