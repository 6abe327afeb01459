import Dynarec.Proofs.Compilation.Faithful
import Dynarec.Proofs.Engine.Lifecycle

/-!
Engines are faithful. Host functions are registered at some addresses, and guest code runs; whatever order that is in,
each entry of the cache is the host function of its address or code of a graph of the program.
-/
namespace Dynarec
open Semantics

/-- Code stands for the same as the code it comes from, while it is not built anew. -/
theorem Subroutine.Renders.kin {code : Semantics.Code} {address : UInt64} {former subroutine : Subroutine}
    (renders : former.Renders code address) (kin : Entries.Kin former subroutine) :
    subroutine.Renders code address := by
  cases renders with
  | thunk host holds => exact .thunk host (kin.code.trans holds)
  | graph codes sound isGraph =>
    refine .graph ⟨codes.laid, kin.code.trans codes.code, kin.params.trans codes.params, codes.few, ?_⟩ sound isGraph
    rw [kin.linksTo]
    exact codes.linked

namespace Entries

/-- The entries are those of host functions and of graphs of the program, and every host function has its entry. -/
structure Faithful (code : Semantics.Code) (entries : Entries) : Prop where
  renders : ∀ address subroutine, entries address = some subroutine → subroutine.Renders code address
  hosts : ∀ address found, code.host address = some found →
    ∃ subroutine, entries address = some subroutine ∧ subroutine.isHost = true
  sane : entries.Sane

variable {code : Semantics.Code} {builder : Builder} {entries next : Entries} {address : UInt64} {count : Nat}

theorem renders_build {graph : Guest.Graph} (isGraph : code.program.IsGraph address graph)
    (named : ∀ address instruction, code.program.at? address = some instruction → instruction.Named)
    {linkable : UInt64 → Bool} {tier : Tier} {name : String} {build : Build}
    (built : builder.build linkable address graph tier name = .ok build) : build.subroutine.Renders code address := by
  obtain ⟨_, emission, builds, _⟩ := Builder.builds_of_build built
  exact .graph builds.toCodes (isGraph.sound named) isGraph

theorem Faithful.move (faithful : entries.Faithful code)
    (named : ∀ address instruction, code.program.at? address = some instruction → instruction.Named)
    (move : Move code.program builder address entries count next) : next.Faithful code := by
  refine ⟨?_, ?_, move.sane faithful.sane⟩
  · intro other subroutine there
    rcases move.kin there with ⟨former, before, kin⟩ | ⟨rfl, ⟨_, _, made⟩ | ⟨_, made⟩⟩
    · exact (faithful.renders other former before).kin kin
    · obtain ⟨block, build, found, rfl, built⟩ := of_buildTier0 made
      exact renders_build (Guest.Program.isGraph_single found) named built
    · obtain ⟨graph, build, found, rfl, built⟩ := of_buildTier1 made
      exact renders_build (Guest.Program.isGraph_graph found) named built
  · intro other found host
    obtain ⟨subroutine, there, isHost⟩ := faithful.hosts other found host
    exact ⟨subroutine, move.host faithful.sane there isHost, isHost⟩

theorem Faithful.moves (faithful : entries.Faithful code)
    (named : ∀ address instruction, code.program.at? address = some instruction → instruction.Named)
    (moves : Moves code.program builder address entries count next) : next.Faithful code := by
  induction moves with
  | none => exact faithful
  | move _ move ih => exact ih.move named move

/-- A host function that is registered takes the place of what was at its address. -/
theorem Faithful.register (faithful : entries.Faithful code) {layout : Calling.Layout} {function : Calling.HostFunction}
    (placed : Calling.Layout.ofClasses function.signature.classes = .ok layout) {thunk : Subroutine}
    (made : Subroutine.thunk address function = .ok thunk) :
    (entries.put address thunk).Faithful
      { code with host := Function.update code.host address (some (layout, function)) } := by
  refine ⟨?_, ?_, faithful.sane.host made⟩
  · intro other subroutine there
    by_cases here : other = address
    · subst here
      obtain ⟨own, placedToo, rfl⟩ := thunk_host made
      obtain rfl : layout = own := Except.ok.inj (placed.symm.trans placedToo)
      rw [put_self] at there
      cases there
      exact .thunk (Function.update_self ..) rfl
    · rw [entries.put_other here] at there
      cases faithful.renders other subroutine there with
      | thunk host holds => exact .thunk ((Function.update_of_ne here ..).trans host) holds
      | graph codes sound isGraph => exact .graph codes sound isGraph
  · intro other found host
    by_cases here : other = address
    · subst here
      obtain ⟨_, _, rfl⟩ := thunk_host made
      exact ⟨_, entries.put_self _ _, rfl⟩
    · rw [entries.put_other here]
      exact faithful.hosts other found ((Function.update_of_ne here ..).symm.trans host)

section Found
variable (faithful : entries.Faithful code)
  (named : ∀ address instruction, code.program.at? address = some instruction → instruction.Named)
  (valid : ∀ graph, (builder.liveIn graph).vector.toNat < 2 ^ 32)

include named valid in
theorem built_of_isGraph {graph : Guest.Graph} (isGraph : code.program.IsGraph address graph)
    (linkable : UInt64 → Bool) (tier : Tier) (name : String) :
    ∃ build, builder.build linkable address graph tier name = .ok build := by
  obtain ⟨build, _, made, _⟩ := builder.build_ok linkable address tier name
    (Builder.accepts_of_sound (valid graph) (isGraph.sound named))
  exact ⟨build, made⟩

include named valid in
theorem buildTier0_ok (scripted : code.program.contains address = true) :
    ∃ subroutine, entries.buildTier0 code.program builder address = .ok subroutine := by
  obtain ⟨block, found⟩ := Guest.Program.block_ok scripted
  obtain ⟨build, made⟩ := built_of_isGraph named valid (Guest.Program.isGraph_single found) entries.holdsTier1 .tier0
    (Subroutine.nameOf address)
  exact ⟨build.subroutine, Effect.bind_eq_ok.mpr ⟨block, found, Effect.bind_eq_ok.mpr ⟨build, made, rfl⟩⟩⟩

include named valid in
theorem buildTier1_ok (scripted : code.program.contains address = true) :
    ∃ subroutine, entries.buildTier1 code.program builder address = .ok subroutine := by
  obtain ⟨graph, found⟩ := Guest.Program.graph_ok scripted
  obtain ⟨build, made⟩ := built_of_isGraph named valid (Guest.Program.isGraph_graph found) entries.holdsTier1 .tier1
    (Subroutine.nameOf address)
  exact ⟨build.subroutine, Effect.bind_eq_ok.mpr ⟨graph, found, Effect.bind_eq_ok.mpr ⟨build, made, rfl⟩⟩⟩

include faithful in
/-- What is due for a rebuild is code of an instruction. -/
theorem Faithful.scripted_of_due {subroutine : Subroutine}
    (located : entries.locate code.program builder address = .ok subroutine)
    (due : subroutine.checkPromotion.1 = true) : code.program.contains address = true := by
  unfold locate at located
  split at located
  · next resident there =>
    obtain rfl : resident = subroutine := Except.ok.inj located
    cases faithful.renders address resident there with
    | @thunk layout function host _ =>
      obtain ⟨other, same, isHost⟩ := faithful.hosts address _ host
      obtain rfl : resident = other := Option.some.inj (there.symm.trans same)
      have stage := faithful.sane.hosts address resident there isHost
      simp [Subroutine.checkPromotion, Promotion.check, stage] at due
    | graph _ _ isGraph =>
      obtain ⟨block, _, found⟩ := isGraph.first
      exact Guest.Program.contains_of_block found
  · obtain ⟨block, _, found, _⟩ := of_buildTier0 located
    exact Guest.Program.contains_of_block found

include faithful named valid in
/-- Code is found wherever there is a host function or an instruction; elsewhere the failure says that there is none. -/
theorem Faithful.resolve_error {cause : TranslationError}
    (failed : entries.resolve code.program builder address = (.error cause, next, count)) :
    code.program.at? address = none ∧ code.host address = none ∧
      cause = .decode address "no instruction scripted" := by
  unfold resolve at failed
  cases located : entries.locate code.program builder address with
  | error reason =>
    rw [located] at failed
    obtain rfl : reason = cause := Except.error.inj (congrArg Prod.fst failed)
    unfold locate at located
    split at located
    · cases located
    · next absent =>
      have unscripted : code.program.at? address = none := by
        by_contra scripted
        have contains := Guest.Program.contains_iff.mpr (Option.ne_none_iff_exists'.mp scripted)
        obtain ⟨subroutine, made⟩ := entries.buildTier0_ok named valid contains
        cases located.symm.trans made
      refine ⟨unscripted, ?_, ?_⟩
      · by_contra host
        obtain ⟨found, here⟩ := Option.ne_none_iff_exists'.mp host
        obtain ⟨_, there, _⟩ := faithful.hosts address found here
        cases absent.symm.trans there
      · unfold buildTier0 at located
        rw [Guest.Program.block_error unscripted] at located
        exact (Except.error.inj located).symm
  | ok found =>
    rw [located] at failed
    dsimp only at failed
    cases due : found.checkPromotion.1 with
    | false =>
      rw [due, if_neg Bool.false_ne_true] at failed
      cases failed
    | true =>
      obtain ⟨rebuilt, made⟩ := (entries.put address found.checkPromotion.2).buildTier1_ok named valid
        (faithful.scripted_of_due located due)
      rw [due, if_pos rfl, made] at failed
      cases failed

end Found

theorem Faithful.cache (faithful : entries.Faithful code) {cache : Cache} (shown : cache.Shows entries) :
    cache.Faithful code := by
  intro address subroutine there
  rw [shown.entries] at there
  exact faithful.renders address subroutine there

end Entries

namespace Engine

/-- An engine that has been started for a program, has been given host functions and has run guest code, in whatever
order, with the host functions that are there now. From outside, anything may have changed but the program and the
cache. -/
inductive Furnished (program : Guest.Program) :
    (UInt64 → Option (Calling.Layout × Calling.HostFunction)) → Engine → Prop
  | start (config : Config) (liveIn : Guest.Graph → LiveIn) (world : World) :
      Furnished program (fun _ => none) (Engine.start config program liveIn world)
  | host {hosts : UInt64 → Option (Calling.Layout × Calling.HostFunction)} {engine after : Engine} {address : UInt64}
      {layout : Calling.Layout} {function : Calling.HostFunction} : Furnished program hosts engine →
      Calling.Layout.ofClasses function.signature.classes = .ok layout →
        engine.registerHost address function = .ok after →
          Furnished program (Function.update hosts address (some (layout, function))) after
  | execute {hosts : UInt64 → Option (Calling.Layout × Calling.HostFunction)} {engine : Engine} (fuel : Nat)
      (address : UInt64) (cpu : Cpu) : Furnished program hosts engine →
      Furnished program hosts ((Session.execute fuel address).run ⟨engine, cpu⟩).2.engine
  | outside {hosts : UInt64 → Option (Calling.Layout × Calling.HostFunction)} {engine after : Engine} :
      Furnished program hosts engine → after.program = engine.program → after.rivals = engine.rivals →
        after.cache = engine.cache → Furnished program hosts after

/-- An engine by itself that translates the program, with a cache that stands for the code. -/
structure Stands (code : Semantics.Code) (engine : Engine) : Prop where
  program : engine.program = code.program
  single : engine.rivals = none
  cache : ∃ entries, engine.cache.Shows entries ∧ entries.Faithful code

variable {code : Semantics.Code} {engine after : Engine}

theorem Stands.setup (stands : Stands code engine) {entries : Entries} (shown : after.cache.Shows entries)
    (faithful : entries.Faithful code) (same : after.setup = engine.setup) : Stands code after :=
  ⟨(program_of_setup same).trans stands.program, (congrArg (·.2.2.2) same).trans stands.single, entries, shown,
    faithful⟩

theorem Stands.dispatch (stands : Stands code engine)
    (named : ∀ address instruction, code.program.at? address = some instruction → instruction.Named)
    {limit fuel : Nat} {address : UInt64} {cpu left : Cpu} {result : Except Failure UInt64}
    (ran : (Session.dispatch (Session.rivals limit) fuel address).run ⟨engine, cpu⟩ = (result, ⟨after, left⟩)) :
    Stands code after ∧ after.setup = engine.setup := by
  obtain ⟨entries, shown, faithful⟩ := stands.cache
  obtain ⟨_, _, _, same, setup, next, count, shownNow, _, moves⟩ :=
    Session.dispatch_entries shown stands.single limit fuel address cpu
  rw [ran] at same
  cases same
  refine ⟨stands.setup shownNow ?_ setup, setup⟩
  rcases moves with same | resolved
  · cases same
    exact faithful
  · rw [stands.program] at resolved
    exact faithful.moves named (Entries.moves_resolve resolved)

/-- Running guest code keeps an engine so, with all that it is set up with. -/
theorem Stands.execute (stands : Stands code engine)
    (named : ∀ address instruction, code.program.at? address = some instruction → instruction.Named) (fuel : Nat)
    (address : UInt64) (cpu : Cpu) :
    Stands code ((Session.execute fuel address).run ⟨engine, cpu⟩).2.engine ∧
      ((Session.execute fuel address).run ⟨engine, cpu⟩).2.engine.setup = engine.setup := by
  refine Session.loop_keeps (fun other => Stands code other ∧ other.setup = engine.setup) ?_ isRunning fuel address
    ⟨stands, rfl⟩ cpu
  rintro before after cpu left result fuel address ⟨standsThen, setup⟩ ran
  obtain ⟨standsNow, same⟩ := standsThen.dispatch named ran
  exact ⟨standsNow, same.trans setup⟩

theorem Furnished.stands {program : Guest.Program}
    {hosts : UInt64 → Option (Calling.Layout × Calling.HostFunction)}
    (named : ∀ address instruction, program.at? address = some instruction → instruction.Named)
    (furnished : Furnished program hosts engine) : Stands ⟨program, hosts⟩ engine := by
  induction furnished with
  | start =>
    have faithful : Entries.Faithful ⟨program, fun _ => none⟩ fun _ => none :=
      ⟨fun _ _ there => (nomatch there), fun _ _ host => (nomatch host), Entries.sane_empty⟩
    exact ⟨rfl, rfl, _, Cache.shows_empty, faithful⟩
  | host _ placed registered ih =>
    obtain ⟨sameProgram, single, entries, shown, faithful⟩ := ih
    obtain ⟨thunk, made, shownNow, setup, _⟩ := registerHost_entries shown registered
    exact ⟨(program_of_setup setup).trans sameProgram, (congrArg (·.2.2.2) setup).trans single, _, shownNow,
      faithful.register placed made⟩
  | execute fuel address cpu _ ih => exact (ih.execute named fuel address cpu).1
  | outside _ sameProgram sameRivals sameCache ih =>
    obtain ⟨program, single, entries, shown, faithful⟩ := ih
    exact ⟨sameProgram.trans program, sameRivals.trans single, entries, by rwa [sameCache], faithful⟩

end Engine
end Dynarec
