import Dynarec.Engine
import Dynarec.Proofs.Cache.Entries
import Dynarec.Proofs.Engine.Translation
import Dynarec.Proofs.World

/-!
Finding code, told by the entries alone. An engine does to its cache what is told here, changes nothing else that
a run depends on, and counts the tier-1 builds.
-/
namespace Dynarec
namespace Entries

variable (program : Guest.Program) (builder : Builder) (entries : Entries) (address : UInt64)

def buildTier0 : Except TranslationError Subroutine := do
  let block ← program.block address
  let build ← builder.build entries.holdsTier1 address (.single block) .tier0 (Subroutine.nameOf address)
  return build.subroutine

def buildTier1 : Except TranslationError Subroutine := do
  let graph ← program.graph entries.contains address
  let build ← builder.build entries.holdsTier1 address graph .tier1 (Subroutine.nameOf address)
  return build.subroutine

/-- The code that is there, or else tier-0 code. -/
def locate : Except TranslationError Subroutine :=
  match entries address with
  | some subroutine => .ok subroutine
  | none => entries.buildTier0 program builder address

/-- The code for an address, the entries behind it, and the number of tier-1 builds. -/
def resolve : Except TranslationError Subroutine × Entries × Nat :=
  match entries.locate program builder address with
  | .error cause => (.error cause, entries, 0)
  | .ok found =>
    let (due, checked) := found.checkPromotion
    let entries := entries.put address checked
    if due then
      match entries.buildTier1 program builder address with
      | .error cause => (.error cause, entries, 0)
      | .ok rebuilt => (.ok rebuilt, (entries.put address rebuilt).notify address, 1)
    else (.ok checked, entries, 0)

variable {program builder entries address}

theorem of_buildTier0 {subroutine : Subroutine} (made : entries.buildTier0 program builder address = .ok subroutine) :
    ∃ block build, program.block address = .ok block ∧ build.subroutine = subroutine ∧
      builder.build entries.holdsTier1 address (.single block) .tier0 (Subroutine.nameOf address) = .ok build := by
  obtain ⟨block, decoded, rest⟩ := Effect.of_bind made
  obtain ⟨build, built, same⟩ := Effect.of_bind rest
  cases same
  exact ⟨block, build, decoded, rfl, built⟩

theorem of_buildTier1 {subroutine : Subroutine} (made : entries.buildTier1 program builder address = .ok subroutine) :
    ∃ graph build, program.graph entries.contains address = .ok graph ∧ build.subroutine = subroutine ∧
      builder.build entries.holdsTier1 address graph .tier1 (Subroutine.nameOf address) = .ok build := by
  obtain ⟨graph, decoded, rest⟩ := Effect.of_bind made
  obtain ⟨build, built, same⟩ := Effect.of_bind rest
  cases same
  exact ⟨graph, build, decoded, rfl, built⟩

end Entries

namespace Engine
open Effect

/-- What an engine is given. -/
def setup (engine : Engine) : Config × Guest.Program × (Guest.Graph → LiveIn) × Option Rivals :=
  (engine.config, engine.program, engine.liveIn, engine.rivals)

theorem program_of_setup {before after : Engine} (same : after.setup = before.setup) :
    after.program = before.program := congrArg (·.2.1) same

theorem builder_of_setup {before after : Engine} (same : after.setup = before.setup) :
    after.builder = before.builder := by
  have config : after.config = before.config := congrArg (·.1) same
  have liveIn : after.liveIn = before.liveIn := congrArg (·.2.2.1) same
  unfold builder
  rw [config, liveIn]

/-- What runs depend on stays, but for the cache. -/
structure Keeps (before after : Engine) : Prop where
  setup : after.setup = before.setup
  subscribers : after.subscribers = before.subscribers
  world : before.world.Alike after.world

theorem Keeps.trans {first second third : Engine} (left : first.Keeps second) (right : second.Keeps third) :
    first.Keeps third :=
  ⟨right.setup.trans left.setup, right.subscribers.trans left.subscribers, left.world.trans right.world⟩

/-- Behind work that has made a number of tier-1 builds the entries are these. -/
structure Leads (before after : Engine) (entries : Entries) (builds : Nat) : Prop where
  keeps : before.Keeps after
  builds : after.stats.tier1Compiles = before.stats.tier1Compiles + builds
  shown : after.cache.Shows entries

theorem Leads.trans {first second third : Engine} {between entries : Entries} {early late : Nat}
    (left : first.Leads second between early) (right : second.Leads third entries late) :
    first.Leads third entries (early + late) :=
  ⟨left.keeps.trans right.keeps, by rw [right.builds, left.builds, Nat.add_assoc], right.shown⟩

variable {engine : Engine} {entries : Entries}

theorem map_tier0Build (shown : engine.cache.Shows entries) (address : UInt64) :
    (engine.tier0Build address).map (·.2.subroutine) = entries.buildTier0 engine.program engine.builder address := by
  have holds : engine.cache.holdsTier1 = entries.holdsTier1 := funext shown.holdsTier1
  unfold tier0Build Entries.buildTier0
  rw [holds]
  cases engine.program.block address with
  | error cause => rfl
  | ok block =>
    change Except.map _ (engine.builder.build entries.holdsTier1 address (.single block) .tier0 _ >>= _) =
      (engine.builder.build entries.holdsTier1 address (.single block) .tier0 _ >>= _)
    cases engine.builder.build entries.holdsTier1 address (.single block) .tier0 (Subroutine.nameOf address) <;> rfl

theorem map_tier1Build (shown : engine.cache.Shows entries) (address : UInt64) :
    (engine.tier1Build address).map (·.2.subroutine) = entries.buildTier1 engine.program engine.builder address := by
  have holds : engine.cache.holdsTier1 = entries.holdsTier1 := funext shown.holdsTier1
  have contains : engine.cache.contains = entries.contains := funext shown.contains
  unfold tier1Build Entries.buildTier1
  rw [holds, contains]
  cases engine.program.graph entries.contains address with
  | error cause => rfl
  | ok graph =>
    change Except.map _ (engine.builder.build entries.holdsTier1 address graph .tier1 _ >>= _) =
      (engine.builder.build entries.holdsTier1 address graph .tier1 _ >>= _)
    cases engine.builder.build entries.holdsTier1 address graph .tier1 (Subroutine.nameOf address) <;> rfl

/-- Code that was taken in is published. -/
theorem shows_published (shown : engine.cache.Shows entries) (subroutine : Subroutine) (address size : UInt64) :
    ((engine.cache.add subroutine).2.publish address (engine.cache.add subroutine).1 size).2.Shows
      (entries.put address subroutine) :=
  (shown.add subroutine).publish (engine.cache.subroutine?_add_self subroutine) (shown.unpublished subroutine) address
    size

theorem run_compileTier0 (shown : engine.cache.Shows entries) {disturb : UInt64 → Engine → Engine}
    {address : UInt64} (quiet : disturb address engine = engine) (missing : engine.cache.handle? address = none)
    (mode : Mode) :
    ∃ after, match entries.buildTier0 engine.program engine.builder address with
      | .error cause => (compileTier0 disturb mode address).run engine =
          (.error (.error (.translate address cause)), after) ∧ engine.Leads after entries 0
      | .ok subroutine => ∃ handle times, (compileTier0 disturb mode address).run engine = (.ok (handle, times), after) ∧
          after.cache.handle? address = some handle ∧ engine.Leads after (entries.put address subroutine) 0 := by
  obtain ⟨decodes, handed, ran⟩ := run_compileTier0_eq missing quiet mode
  rw [← map_tier0Build shown address, ran]
  cases engine.tier0Build address with
  | error cause => exact ⟨_, rfl, ⟨rfl, rfl, .refl _⟩, rfl, shown⟩
  | ok made =>
    obtain ⟨graph, build⟩ := made
    let handle := (engine.cache.add build.subroutine).1
    let taken := ({ engine with decodes } : Engine).taken build handed
    have alike : engine.world.Alike (taken.settledTier0 address handle graph.size).world :=
      (World.alike_noteAll _ _).trans ((World.alike_note _ _).trans (World.alike_note _ _))
    exact ⟨taken.settledTier0 address handle graph.size, handle, _, rfl,
      taken.cache.handle?_publish_self address handle (.ofNat graph.size), ⟨rfl, rfl, alike⟩, rfl,
      shows_published shown build.subroutine address (.ofNat graph.size)⟩

/-- Nothing but what happens to the engine itself can disturb it. -/
theorem compileTier0_disturbed {disturb other : UInt64 → Engine → Engine} {address : UInt64}
    (same : disturb address engine = other address engine) (mode : Mode) :
    (compileTier0 disturb mode address).run engine = (compileTier0 other mode address).run engine := by
  unfold compileTier0
  rw [run_bind, run_modify, same]
  rfl

/-- The graph is that of the program between the entries, and its build takes the address over. -/
theorem run_compileTier1 (shown : engine.cache.Shows entries) (address : UInt64) :
    ∃ after, match entries.buildTier1 engine.program engine.builder address with
      | .error cause => (compileTier1 address).run engine = (.error (.error (.translate address cause)), after) ∧
          engine.Leads after entries 0
      | .ok subroutine => (compileTier1 address).run engine = (.ok subroutine, after) ∧
          engine.Leads after ((entries.put address subroutine).notify address) 1 := by
  obtain ⟨decodes, handed, ran⟩ := engine.run_compileTier1_eq address
  rw [← map_tier1Build shown address, ran]
  cases engine.tier1Build address with
  | error cause => exact ⟨_, rfl, ⟨rfl, rfl, .refl _⟩, rfl, shown⟩
  | ok made =>
    obtain ⟨graph, build⟩ := made
    let handle := (engine.cache.add build.subroutine).1
    let taken := ({ engine with decodes } : Engine).taken build handed
    have alike : engine.world.Alike (taken.settledTier1 address handle graph build.subroutine).world :=
      (World.alike_noteAll _ _).trans ((World.alike_note _ _).trans (World.alike_note _ _))
    have published := shows_published shown build.subroutine address (.ofNat build.subroutine.generatedOps)
    exact ⟨taken.settledTier1 address handle graph build.subroutine, rfl, ⟨rfl, rfl, alike⟩, rfl,
      published.markCallers address⟩

theorem run_locate (shown : engine.cache.Shows entries) {disturb : UInt64 → Engine → Engine}
    {address : UInt64} (quiet : disturb address engine = engine) (mode : Mode) :
    ∃ after, match entries.locate engine.program engine.builder address with
      | .error cause => (locate disturb mode address).run engine =
          (.error (.error (.translate address cause)), after) ∧ engine.Leads after entries 0
      | .ok subroutine => ∃ handle times, (locate disturb mode address).run engine = (.ok (handle, times), after) ∧
          after.cache.handle? address = some handle ∧ engine.Leads after (entries.put address subroutine) 0 := by
  unfold locate Entries.locate
  rw [run_bind, run_get]
  dsimp only
  cases here : engine.cache.handle? address with
  | none =>
    rw [shown.absent here]
    exact run_compileTier0 shown quiet here mode
  | some handle =>
    obtain ⟨subroutine, _, published⟩ := shown.found here
    rw [published]
    let counted : Engine := { engine with stats := { engine.stats with cacheHits := engine.stats.cacheHits + 1 } }
    have leads : engine.Leads counted entries 0 := ⟨⟨rfl, rfl, .refl _⟩, rfl, shown⟩
    refine ⟨counted, handle, {}, rfl, here, ?_⟩
    rw [entries.put_published published]
    exact leads

theorem locate_disturbed {disturb other : UInt64 → Engine → Engine} {address : UInt64}
    (same : disturb address engine = other address engine) (mode : Mode) :
    (locate disturb mode address).run engine = (locate other mode address).run engine := by
  unfold locate
  rw [run_bind, run_bind, run_get]
  dsimp only
  split
  · exact compileTier0_disturbed same mode
  · rfl

theorem run_isDue (shown : engine.cache.Shows entries) {address : UInt64} {handle : Handle}
    (here : engine.cache.handle? address = some handle) {subroutine : Subroutine}
    (published : entries address = some subroutine) :
    ∃ after, (isDue handle).run engine = (.ok subroutine.checkPromotion.1, after) ∧
      engine.Leads after (entries.put address subroutine.checkPromotion.2) 0 ∧
        after.cache.handle? address = some handle := by
  obtain ⟨due, checked⟩ := shown.checkPromotion here published
  let after : Engine := { engine with
    machine := { engine.machine with cache := (engine.cache.checkPromotion handle).2 } }
  have same : (engine.cache.checkPromotion handle).2.handle? address = engine.cache.handle? address := by
    unfold Cache.checkPromotion
    split <;> rfl
  have leads : engine.Leads after _ 0 := ⟨⟨rfl, rfl, .refl _⟩, rfl, checked⟩
  refine ⟨after, ?_, leads, same.trans here⟩
  rw [← due]
  rfl

theorem resolve_disturbed {disturb other : UInt64 → Engine → Engine} {address : UInt64}
    (same : disturb address engine = other address engine) (mode : Mode) :
    (resolve disturb mode address).run engine = (resolve other mode address).run engine := by
  unfold resolve
  rw [run_bind, run_bind, locate_disturbed same]

/-- An engine resolves as its entries do. -/
theorem run_resolve (shown : engine.cache.Shows entries) {disturb : UInt64 → Engine → Engine}
    {address : UInt64} (quiet : disturb address engine = engine) (mode : Mode) :
    ∃ result next builds after, entries.resolve engine.program engine.builder address = (result, next, builds) ∧
      engine.Leads after next builds ∧ match result with
        | .error cause => (resolve disturb mode address).run engine =
            (.error (.error (.translate address cause)), after)
        | .ok subroutine => ∃ times, (resolve disturb mode address).run engine = (.ok (subroutine, times), after) := by
  obtain ⟨middle, ran⟩ := run_locate shown quiet mode
  unfold resolve Entries.resolve
  rw [run_bind]
  cases found : entries.locate engine.program engine.builder address with
  | error cause =>
    rw [found] at ran
    rw [ran.1]
    exact ⟨_, _, _, _, rfl, ran.2, rfl⟩
  | ok subroutine =>
    rw [found] at ran
    obtain ⟨handle, times, ran, here, leads⟩ := ran
    obtain ⟨checked, due, second, hereStill⟩ := run_isDue leads.shown here (entries.put_self address subroutine)
    rw [entries.put_put] at second
    have both := leads.trans second
    rw [ran]
    dsimp only
    rw [run_bind, due]
    dsimp only
    cases subroutine.checkPromotion.1 with
    | false =>
      obtain ⟨found, held, published⟩ := both.shown.found hereStill
      rw [entries.put_self] at published
      cases published
      refine ⟨_, _, _, checked, rfl, both, times, ?_⟩
      simp only [Bool.false_eq_true, if_false]
      rw [run_bind, run_get]
      dsimp only
      rw [held]
      rfl
    | true =>
      obtain ⟨rebuilt, ran⟩ := run_compileTier1 both.shown address
      rw [program_of_setup both.keeps.setup, builder_of_setup both.keeps.setup] at ran
      simp only [if_true]
      rw [run_bind]
      cases made : (entries.put address subroutine.checkPromotion.2).buildTier1 engine.program engine.builder
          address with
      | error cause =>
        rw [made] at ran
        rw [ran.1]
        exact ⟨_, _, _, rebuilt, rfl, both.trans ran.2, rfl⟩
      | ok new =>
        rw [made] at ran
        rw [ran.1]
        exact ⟨_, _, _, rebuilt, rfl, both.trans ran.2, _, rfl⟩

end Engine
end Dynarec
