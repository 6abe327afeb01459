import Dynarec.Proofs.Engine.Refinement
import Dynarec.Proofs.Interpreter.Discreet

/-!
Engines that differ in what they tell of themselves alone: in what they are set to tell, and in what they have told so
far. Whatever is asked of them, they find the same code, run it alike, and count alike.
-/
namespace Dynarec
open Effect

/-- What is reported of a build does not change what is built. -/
theorem Builder.assemble_reported (left right : Builder) (threshold : left.threshold = right.threshold)
    (address : UInt64) (graph : Guest.Graph) (tier : Tier) (emitted : Emitted) :
    ∃ events, right.assemble address graph tier emitted =
      (left.assemble address graph tier emitted).map fun build => { build with events } := by
  unfold assemble
  dsimp only
  rw [threshold]
  cases emitted.function.validate with
  | error cause => exact ⟨[], rfl⟩
  | ok => exact ⟨_, rfl⟩

theorem Builder.code_assemble {builder : Builder} {address : UInt64} {graph : Guest.Graph} {tier : Tier}
    {emitted : Emitted} {build : Build} (made : builder.assemble address graph tier emitted = .ok build) :
    build.subroutine.code = .compiled emitted.function := by
  obtain ⟨_, _, same⟩ := of_bind made
  cases same
  rfl

namespace Engine

/-- The same but for what they tell of themselves. Nobody who is told has a say, and no host code looks at the log. -/
structure Alike (left right : Engine) : Prop where
  program : left.program = right.program
  liveIn : left.liveIn = right.liveIn
  threshold : left.config.threshold = right.config.threshold
  rivals : left.rivals = right.rivals
  machine : left.machine.Alike right.machine
  stats : left.stats = right.stats
  decodes : left.decodes = right.decodes
  handed : left.handed = right.handed
  quiet : left.Quiet ∧ right.Quiet

variable {left right : Engine} {address : UInt64}

theorem Alike.cache (alike : left.Alike right) : left.cache = right.cache := alike.machine.cache

theorem Alike.ask (alike : left.Alike right) (ask : Decodes → Decodes) :
    ({ left with decodes := ask left.decodes } : Engine).Alike { right with decodes := ask right.decodes } :=
  { alike with decodes := congrArg ask alike.decodes }

theorem Alike.hand (alike : left.Alike right) (function : Ir.Function) :
    ({ left with handed := left.handed.push function } : Engine).Alike
      { right with handed := right.handed.push function } :=
  { alike with handed := congrArg (·.push function) alike.handed }

theorem Alike.inMachine (alike : left.Alike right) {machine machineToo : Machine} (machines : machine.Alike machineToo)
    (tables tablesToo : Option Profile.Tables) :
    ({ left with machine, tables } : Engine).Alike { right with machine := machineToo, tables := tablesToo } :=
  { alike with machine := machines }

theorem Alike.count (alike : left.Alike right) {machine machineToo : Machine} (machines : machine.Alike machineToo)
    (count : Stats → Stats) (event : Event) :
    (({ left with machine, stats := count left.stats } : Engine).note event).Alike
      (({ right with machine := machineToo, stats := count right.stats } : Engine).note event) :=
  { alike with machine := machines.note event event, stats := congrArg count alike.stats }

theorem notify_alike (alike : left.Alike right) (address : UInt64) :
    Twins Alike (fun _ => True) ((notify address).run left) ((notify address).run right) := by
  obtain ⟨subscribers, ran, quiet⟩ := alike.quiet.1.hears address
  obtain ⟨subscribersToo, ranToo, quietToo⟩ := alike.quiet.2.hears address
  rw [ran, ranToo]
  exact .ok trivial { alike with quiet := ⟨quiet, quietToo⟩ }

theorem translated_alike {α : Type} (alike : left.Alike right) (address : UInt64) (result : Except TranslationError α) :
    Twins Alike (fun _ => True) ((translated address result).run left) ((translated address result).run right) := by
  rw [run_translated, run_translated]
  cases result with
  | error cause => exact .error _ alike
  | ok value => exact .ok trivial alike

theorem decodeBlock_alike (alike : left.Alike right) (mode : Mode) (address : UInt64) :
    Twins Alike (fun _ => True) ((decodeBlock mode address).run left) ((decodeBlock mode address).run right) := by
  have decoded : right.program.block address = left.program.block address := by rw [alike.program]
  unfold decodeBlock
  rw [run_bind, run_bind, run_modify, run_modify]
  dsimp only
  rw [run_bind, run_bind, run_get, run_get]
  dsimp only
  rw [decoded]
  exact translated_alike (alike.ask fun decodes => { decodes with
    blocks := decodes.blocks + 1
    modes := decodes.modes.insert mode }) address _

theorem decodeGraph_alike (alike : left.Alike right) (address : UInt64) :
    Twins Alike (fun _ => True) ((decodeGraph address).run left) ((decodeGraph address).run right) := by
  have decoded : right.program.graph right.cache.contains address = left.program.graph left.cache.contains address := by
    rw [alike.program, alike.cache]
  unfold decodeGraph
  rw [run_bind, run_bind, run_modify, run_modify]
  dsimp only
  rw [run_bind, run_bind, run_get, run_get]
  change Twins _ _ ((translated address (left.program.graph left.cache.contains address)).run _)
    ((translated address (right.program.graph right.cache.contains address)).run _)
  rw [decoded]
  exact translated_alike (alike.ask fun decodes => { decodes with graphs := decodes.graphs + 1 }) address _

theorem build_alike (alike : left.Alike right) (address : UInt64) (graph : Guest.Graph) (tier : Tier) :
    Twins Alike (fun made => made.2.Admitted Calling.HostFunction.Discreet)
      ((build address graph tier).run left) ((build address graph tier).run right) := by
  have translates : right.builder.translate = left.builder.translate := by
    unfold Builder.translate builder
    rw [alike.liveIn]
  unfold build
  rw [run_bind, run_bind, run_get, run_get]
  dsimp only
  rw [← alike.cache, translates]
  refine (translated_alike alike address _).bind fun emitted leftNow rightNow _ alikeNow => ?_
  rw [run_bind, run_bind, run_modify, run_modify]
  dsimp only
  -- the two builds differ in their events alone, which go to the log
  obtain ⟨events, reported⟩ := left.builder.assemble_reported right.builder alike.threshold
    address graph tier emitted
  rw [run_bind, run_bind, run_translated, run_translated, reported]
  cases made : left.builder.assemble address graph tier emitted with
  | error cause => exact .error _ (alikeNow.hand emitted.function)
  | ok build =>
    have admitted : build.subroutine.Admitted Calling.HostFunction.Discreet :=
      Subroutine.admitted_compiled (Builder.code_assemble made)
    obtain ⟨handles, machines⟩ := alikeNow.machine.add admitted
    simp only [mapError_ok, Except.map]
    rw [run_modifyGet, run_modifyGet]
    dsimp only
    rw [handles]
    exact .ok admitted ((alikeNow.hand emitted.function).inMachine (machines.noteAll _ _) _ _)

theorem compileTier0_alike {disturb : UInt64 → Engine → Engine}
    (disturbs : ∀ {left right : Engine}, left.Alike right → (disturb address left).Alike (disturb address right))
    (alike : left.Alike right) (mode : Mode) :
    Twins Alike (fun _ => True) ((compileTier0 disturb mode address).run left)
      ((compileTier0 disturb mode address).run right) := by
  unfold compileTier0
  rw [run_bind, run_bind, run_modify, run_modify]
  refine (decodeBlock_alike (disturbs alike) mode address).bind fun block left right _ alike => ?_
  refine (build_alike alike address _ .tier0).bind fun made left right _ alike => ?_
  obtain ⟨handle, subroutine⟩ := made
  dsimp only
  rw [run_bind, run_bind, run_modifyGet, run_modifyGet]
  dsimp only
  obtain ⟨residents, machines⟩ := alike.machine.publishTier0 address handle (.ofNat (Guest.Graph.single block).size)
  rw [residents]
  split
  · exact .ok trivial (alike.inMachine machines _ _)
  · exact .ok trivial (alike.count machines (fun stats => { stats with tier0Compiles := stats.tier0Compiles + 1 }) _)

theorem Alike.settledTier1 (alike : left.Alike right) (address : UInt64) (handle : Handle) (graph : Guest.Graph)
    (subroutine : Subroutine) : (left.settledTier1 address handle graph subroutine).Alike
      (right.settledTier1 address handle graph subroutine) := by
  have machines := alike.machine.publish address handle (.ofNat subroutine.generatedOps)
  unfold Engine.settledTier1
  generalize (left.machine.publish address handle (.ofNat subroutine.generatedOps)).2 = published at machines ⊢
  generalize (right.machine.publish address handle (.ofNat subroutine.generatedOps)).2 = publishedToo at machines ⊢
  have marked := machines.inCache (fun cache => (cache.markCallers address).2)
    (machines.discreet.markCallers address)
  have counts : (publishedToo.cache.markCallers address).1 = (published.cache.markCallers address).1 := by
    rw [machines.cache]
  dsimp only
  rw [counts]
  exact alike.count marked (fun stats => { stats with
    tier1Compiles := stats.tier1Compiles + 1
    notifications := stats.notifications + (published.cache.markCallers address).1 }) _

theorem compileTier1_alike (alike : left.Alike right) (address : UInt64) :
    Twins Alike (Subroutine.Admitted Calling.HostFunction.Discreet) ((compileTier1 address).run left)
      ((compileTier1 address).run right) := by
  unfold compileTier1
  refine (decodeGraph_alike alike address).bind fun graph left right _ alike => ?_
  refine (build_alike alike address graph .tier1).bind fun made left right admitted alike => ?_
  obtain ⟨handle, subroutine⟩ := made
  dsimp only
  rw [run_bind, run_bind, run_modify, run_modify]
  exact .ok admitted (alike.settledTier1 address handle graph subroutine)

theorem isDue_alike (alike : left.Alike right) (handle : Handle) :
    Twins Alike (fun _ => True) ((isDue handle).run left) ((isDue handle).run right) := by
  have machines := alike.machine.inCache (fun cache => (cache.checkPromotion handle).2)
    (alike.machine.discreet.checkPromotion handle)
  have due : (right.machine.cache.checkPromotion handle).1 = (left.machine.cache.checkPromotion handle).1 := by
    rw [alike.machine.cache]
  unfold isDue
  rw [run_modifyGet, run_modifyGet]
  dsimp only
  rw [due]
  exact .ok trivial (alike.inMachine machines _ _)

theorem locate_alike {disturb : UInt64 → Engine → Engine}
    (disturbs : ∀ {left right : Engine}, left.Alike right → (disturb address left).Alike (disturb address right))
    (alike : left.Alike right) (mode : Mode) :
    Twins Alike (fun _ => True) ((locate disturb mode address).run left) ((locate disturb mode address).run right) := by
  unfold locate
  rw [run_bind, run_bind, run_get, run_get]
  dsimp only
  rw [← alike.cache]
  cases left.cache.handle? address with
  | none => exact compileTier0_alike disturbs alike mode
  | some handle =>
    exact .ok trivial { alike with
      stats := congrArg (fun stats => { stats with cacheHits := stats.cacheHits + 1 }) alike.stats }

theorem resolve_alike {disturb : UInt64 → Engine → Engine}
    (disturbs : ∀ {left right : Engine}, left.Alike right → (disturb address left).Alike (disturb address right))
    (alike : left.Alike right) (mode : Mode) :
    Twins Alike (fun found => found.1.Admitted Calling.HostFunction.Discreet) ((resolve disturb mode address).run left)
      ((resolve disturb mode address).run right) := by
  unfold resolve
  refine (locate_alike disturbs alike mode).bind fun located left right _ alike => ?_
  obtain ⟨handle, times⟩ := located
  refine (isDue_alike alike handle).bind fun due left right _ alike => ?_
  split
  · exact (compileTier1_alike alike address).bind fun subroutine left right admitted alike => .ok admitted alike
  · rw [run_bind, run_bind, run_get, run_get]
    dsimp only
    rw [← alike.cache]
    cases held : left.cache.subroutine? handle with
    | none => exact .error _ alike
    | some subroutine => exact .ok (alike.machine.discreet handle subroutine held) alike

end Engine
end Dynarec
