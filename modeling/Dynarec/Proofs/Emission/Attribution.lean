import Dynarec.Proofs.Builder
import Dynarec.Proofs.Emission.Spans
import Dynarec.Proofs.Emission.Stretches
import Dynarec.Proofs.Engine.Translation
import Dynarec.Proofs.Profile.Totals

/-!
Spans attribute the code of a build. Emission is followed stretch by stretch, each with the instruction it belongs to,
if it belongs to one; expansion carries the stretches over, so that each span of the finished function holds what its
instruction appended, expanded for all registers of the function, and nothing lies outside of the spans but the prologue,
the labels of blocks and the ways on behind them.
-/
namespace Dynarec
namespace Emission
open Ir Effect

/-- The operations and the spans of an emission so far are those of a row of stretches. -/
structure Covers (emission : Emission) (row : List Stretch) : Prop where
  ops : emission.ops.toList = Stretch.code row
  spans : emission.spans.toList = Stretch.spans 0 row

/-- The stretches of instructions with their code. -/
def owned (instructions : List Guest.Instruction) (bodies : List (List Op)) : List Stretch :=
  List.zipWith (fun instruction body => ⟨some instruction, body⟩) instructions bodies

def Portion.row (block : Guest.Block) (portion : Portion) : List Stretch :=
  ⟨none, [.place portion.label]⟩ :: (owned block.instructions portion.bodies ++ [⟨none, portion.exit⟩])

variable {before after emission : Emission} {row : List Stretch} {ops body : List Op}

theorem Covers.gap (covers : before.Covers row) (appended : after.ops.toList = before.ops.toList ++ ops)
    (same : after.spans = before.spans) : after.Covers (row ++ [⟨none, ops⟩]) where
  ops := by
    rw [appended, covers.ops]
    simp [Stretch.code]
  spans := by
    rw [same, covers.spans, Stretch.spans_append]
    simp [Stretch.spans]

theorem Covers.instruction {instruction : Guest.Instruction} (covers : before.Covers row)
    (ran : (Emit.instruction instruction).run (before.beginSpan instruction) = (.ok (), after))
    (appended : after.ops.toList = before.ops.toList ++ body) :
    after.endSpan.Covers (row ++ [⟨some instruction, body⟩]) := by
  have marks := Emit.unmarked_instruction instruction _ _ _ ran
  have spans : after.spans = before.spans := congrArg Prod.fst marks
  have opened : after.opened = some ⟨instruction.form.key, instruction.address, before.ops.size⟩ :=
    congrArg Prod.snd marks
  have start : before.ops.size = (Stretch.code row).length := by rw [← covers.ops, Array.length_toList]
  have stop : after.ops.size = (Stretch.code row).length + body.length := by
    rw [← start, ← Array.length_toList, appended, List.length_append, Array.length_toList]
  constructor
  · rw [ops_endSpan, appended, covers.ops]
    simp [Stretch.code]
  · unfold endSpan
    rw [opened]
    simp [spans, covers.spans, Stretch.spans_append, Stretch.spans, start, stop]

theorem Appends.covers {instructions : List Guest.Instruction} {bodies : List (List Op)}
    (appends : Appends before instructions bodies after) (covers : before.Covers row) :
    after.Covers (row ++ owned instructions bodies) := by
  induction appends generalizing row with
  | nil => simpa [owned] using covers
  | @cons _ _ _ instruction rest body bodies ran appended _ ih =>
    have behind := ih (covers.instruction ran appended)
    rwa [List.append_assoc] at behind

theorem Fills.covers {block : Guest.Block} {portion : Portion} (fills : Fills before block portion after)
    (covers : before.Covers row) : after.Covers (row ++ Portion.row block portion) := by
  obtain @⟨filled, _, appends, left, exit⟩ := fills
  have marked : (before.emit (.place portion.label)).Covers (row ++ [⟨none, [.place portion.label]⟩]) :=
    covers.gap (by simp [emit]) rfl
  have same : after.spans = filled.spans := by
    rw [left]
    split
    · rfl
    · exact congrArg Prod.fst (marks_branch block.last filled)
  have whole := (appends.covers marked).gap exit same
  simpa [Portion.row] using whole

theorem Composes.covers {blocks : List Guest.Block} {portions : List Portion}
    (composes : Composes before blocks portions after) (covers : before.Covers row) :
    after.Covers (row ++ (List.zipWith Portion.row blocks portions).flatten) := by
  induction composes generalizing row with
  | nil => simpa using covers
  | cons fills _ ih =>
    have behind := ih (fills.covers covers)
    rwa [List.append_assoc] at behind

theorem covers_start (name : String) (tier : Tier) (graph : Guest.Graph) (linkable : UInt64 → Bool)
    (params : List Register) : (start name tier graph linkable params).Covers
      [⟨none, (start name tier graph linkable params).ops.toList⟩] where
  ops := by simp [Stretch.code]
  spans := by
    have none : (start name tier graph linkable params).spans = #[] :=
      congrArg Prod.fst (marks_start name tier graph linkable params)
    rw [none]
    rfl

variable {emission : Emission} {row : List Stretch}

/-- The finished function is the row of the expanded stretches, and so are its spans. -/
theorem Covers.finish (covers : emission.Covers row) :
    emission.finish.function.ops.toList = Stretch.code (row.map (Stretch.expand emission.bindings)) ∧
      emission.finish.spans = Stretch.spans 0 (row.map (Stretch.expand emission.bindings)) := by
  have carried : ∀ position ≤ emission.ops.toList.length,
      (Expansion.positions emission.bindings 0 emission.ops.toList).toArray.getD position 0 =
        (Expansion.expand emission.bindings ((Stretch.code row).take position)).length := by
    intro position inside
    have found := Expansion.getElem?_positions emission.bindings 0 inside
    rw [← covers.ops, Array.getD_eq_getD_getElem?, List.getElem?_toArray, found]
    simp
  constructor
  · rw [Stretch.code_expand, ← covers.ops]
    rfl
  · have expanded := Stretch.spans_expand emission.bindings [] row
    simp only [List.nil_append, List.length_nil] at expanded
    rw [← covers.spans] at expanded
    refine Eq.trans ?_ expanded
    refine List.map_congr_left fun span member => ?_
    rw [covers.spans] at member
    obtain ⟨_, ordered, inside⟩ := Stretch.within_of_mem_spans member
    rw [Nat.zero_add, ← covers.ops] at inside
    rw [carried _ (ordered.trans inside), carried _ inside]

/-- What the portions of blocks hold, read off the row of their stretches. -/
theorem Composes.parts {before after : Emission} {blocks : List Guest.Block} {portions : List Portion}
    (composes : Composes before blocks portions after) :
    Stretch.owners (List.zipWith Portion.row blocks portions).flatten = blocks.flatMap Guest.Block.instructions ∧
      Stretch.bodies (List.zipWith Portion.row blocks portions).flatten = portions.flatMap Portion.bodies ∧
        Stretch.gaps (List.zipWith Portion.row blocks portions).flatten =
          portions.flatMap fun portion => .place portion.label :: portion.exit := by
  have body : ∀ {before after : Emission} {instructions : List Guest.Instruction} {bodies : List (List Op)},
      Appends before instructions bodies after → Stretch.owners (owned instructions bodies) = instructions ∧
        Stretch.bodies (owned instructions bodies) = bodies ∧ Stretch.gaps (owned instructions bodies) = [] := by
    intro before after instructions bodies appends
    induction appends with
    | nil => exact ⟨rfl, rfl, rfl⟩
    | cons _ _ _ ih =>
      obtain ⟨owners, bodies, gaps⟩ := ih
      exact ⟨congrArg _ owners, congrArg _ bodies, gaps⟩
  induction composes with
  | nil => exact ⟨rfl, rfl, rfl⟩
  | cons fills _ ih =>
    obtain @⟨_, _, appends, _, _⟩ := fills
    obtain ⟨owners, bodies, gaps⟩ := ih
    obtain ⟨ownersHere, bodiesHere, gapsHere⟩ := body appends
    rw [List.zipWith_cons_cons, List.flatten_cons, Stretch.owners_append, Stretch.bodies_append, Stretch.gaps_append,
      owners, bodies, gaps]
    refine ⟨?_, ?_, ?_⟩
    · simp [Portion.row, ownersHere]
    · simp [Portion.row, bodiesHere]
    · simp [Portion.row, gapsHere]

end Emission

namespace Builder
open Ir Emission

/-- What the spans of a build tell about its code, where its blocks came out as the portions and its registers have the
bindings. -/
structure Attributes (build : Build) (graph : Guest.Graph) (function : Function) (bindings : List Binding)
    (prologue : List Op) (portions : List Portion) : Prop where
  instructions : build.spans.map (fun span => (span.key, span.address)) =
    graph.instructions.map fun instruction => (instruction.form.key, instruction.address)
  inside : ∀ span ∈ build.spans, span.start ≤ span.stop ∧ span.stop ≤ function.ops.size
  ordered : build.spans.Pairwise fun span next => span.stop ≤ next.start
  bodies : List.Forall₂ (fun span body =>
      (function.ops.extract span.start span.stop).toList = Expansion.expand bindings body)
    build.spans (portions.flatMap Portion.bodies)
  outside : uncovered build.spans 0 function.ops.toList = Expansion.expand bindings prologue ++
    portions.flatMap fun portion => .place portion.label :: Expansion.expand bindings portion.exit

theorem attributes_of_covers {build : Build} {graph : Guest.Graph} {emission : Emission} {prologue : List Op}
    {portions : List Portion} {rest : List Stretch} (spans : build.spans = emission.finish.spans)
    (covers : emission.Covers (⟨none, prologue⟩ :: rest)) (owners : Stretch.owners rest = graph.instructions)
    (bodies : Stretch.bodies rest = portions.flatMap Portion.bodies)
    (gaps : Stretch.gaps rest = portions.flatMap fun portion => .place portion.label :: portion.exit) :
    Attributes build graph emission.finish.function emission.bindings prologue portions := by
  obtain ⟨code, finished⟩ := covers.finish
  have ownersToo : Stretch.owners ((⟨none, prologue⟩ :: rest).map (Stretch.expand emission.bindings)) =
      graph.instructions := by
    rw [← owners, Stretch.owners, List.filterMap_map]
    rfl
  constructor
  · rw [spans, finished, Stretch.map_spans, ownersToo]
  · intro span member
    rw [spans, finished] at member
    obtain ⟨_, ordered, inside⟩ := Stretch.within_of_mem_spans member
    rw [← code, Nat.zero_add, Array.length_toList] at inside
    exact ⟨ordered, inside⟩
  · rw [spans, finished]
    exact Stretch.pairwise_spans 0 _
  · have held := Stretch.extract_spans [] ((⟨none, prologue⟩ :: rest).map (Stretch.expand emission.bindings))
    rw [Stretch.bodies_expand, Stretch.bodies_cons_none, bodies, List.nil_append, ← code, List.forall₂_map_right_iff]
      at held
    rw [spans, finished]
    refine held.imp fun span body same => ?_
    rw [Array.toList_extract]
    exact same
  · rw [spans, finished, code, Stretch.uncovered_code, Stretch.gaps_expand, Stretch.gaps_cons_none, gaps,
      Expansion.expand_append]
    congr 1
    unfold Expansion.expand
    rw [List.flatMap_assoc]
    rfl

variable {builder : Builder} {linkable : UInt64 → Bool} {address : UInt64} {graph : Guest.Graph} {tier : Tier}
  {name : String} {build : Build}

/-- A build comes from an emission of its graph, whose spans it has. -/
theorem emission_of_build (made : builder.build linkable address graph tier name = .ok build) :
    ∃ params emission, (builder.liveIn graph).registers = .ok params ∧
      (graph.blocks.forM Emit.block).run (.start name tier graph linkable params) = (.ok (), emission) ∧
        build.subroutine.code = .compiled emission.finish.function ∧ build.spans = emission.finish.spans := by
  obtain ⟨emitted, translated, assembled⟩ := Effect.of_bind made
  obtain ⟨params, live, emits⟩ := Effect.of_bind translated
  obtain ⟨_, _, same⟩ := Effect.of_bind assembled
  cases same
  have live : (builder.liveIn graph).registers = .ok params := by
    cases found : (builder.liveIn graph).registers with
    | error cause =>
      rw [found] at live
      cases live
    | ok registers =>
      rw [found] at live
      exact congrArg _ (Except.ok.inj live)
  unfold Emitted.ofGraph at emits
  split at emits
  · next emission ran =>
    cases emits
    exact ⟨params, emission, live, ran, rfl, rfl⟩
  · cases emits

/-- A build has one span for each instruction of its graph, in the order of emission, that holds exactly what the
instruction appended, with each placeholder expanded for all registers of the finished function; all other operations are
the prologue, the labels of blocks and the ways on behind them; and tracking the spans counts each kind of instruction as
often as the graph has it, with the sizes of its spans. -/
theorem spans_attribute (made : builder.build linkable address graph tier name = .ok build) :
    ∃ params emission portions loads, (builder.liveIn graph).registers = .ok params ∧
      (graph.blocks.forM Emit.block).run (.start name tier graph linkable params) = (.ok (), emission) ∧
      Composes (.start name tier graph linkable params) graph.blocks portions emission ∧
      build.subroutine.code = .compiled emission.finish.function ∧
      (∀ binding ∈ emission.bindings, emission.finish.function.locals[binding.slot]? = some (.of binding.register)) ∧
      (emission.bindings.map Binding.register).Nodup ∧ (emission.bindings.map Binding.slot).Nodup ∧
      emission.Takes 0 params loads ∧ List.Forall₂ emission.Exits graph.blocks portions ∧
      (∀ body ∈ portions.flatMap Portion.bodies, ∀ op ∈ body, ¬ Entering op) ∧
      Attributes build graph emission.finish.function emission.bindings (loads ++ [.preload]) portions ∧
      (∀ (tables : Profile.Tables) key, ((tables.trackSpans build.spans).opcodes.getD key {}).occurrences =
          (tables.opcodes.getD key {}).occurrences + (graph.instructions.map (·.form.key)).count key ∧
        ∀ size, size ∈ ((tables.trackSpans build.spans).opcodes.getD key {}).sizes ↔
          size ∈ (tables.opcodes.getD key {}).sizes ∨ ∃ span ∈ build.spans, span.key = key ∧ span.size = size) ∧
      ∀ engine : Engine, engine.builder = builder → engine.cache.holdsTier1 = linkable →
        Subroutine.nameOf address = name →
          ((Engine.build address graph tier).run engine).2.tables = engine.tables.map (·.trackSpans build.spans) := by
  obtain ⟨params, emission, live, ran, code, spans⟩ := emission_of_build made
  obtain ⟨loads, prologue, takes⟩ := adds_start name tier graph linkable params
  have named : ∀ block ∈ graph.blocks, ∀ instruction ∈ block.instructions, instruction.Named :=
    fun block member instruction inside =>
      (builds_of_build made).1.named instruction (List.mem_flatMap.mpr ⟨block, member, inside⟩)
  obtain ⟨after, portions, ranToo, places, shapes, composes, exits⟩ := Emit.emits_blocks prologue.allotted named
    (labelOf name tier graph linkable params) fun _ => blockLabel?_start name tier graph linkable params
  obtain rfl : after = emission := congrArg Prod.snd (ranToo.symm.trans ran)
  have covers := composes.covers (covers_start name tier graph linkable params)
  have entered : (start name tier graph linkable params).ops.toList = loads ++ [.preload] := prologue.appended
  rw [entered] at covers
  obtain ⟨owners, bodies, gaps⟩ := composes.parts
  refine ⟨params, after, portions, loads, live, ran, composes, code, places.allotted.kinds, places.allotted.registers,
    places.allotted.slots, takes.mono places.toExtends, exits, ?_, attributes_of_covers spans covers owners bodies gaps,
    ?_, ?_⟩
  · intro body member op inside
    obtain ⟨portion, own, part⟩ := List.mem_flatMap.mp member
    obtain ⟨block, _, shape⟩ := related_of_mem shapes (List.mem_map_of_mem own)
    refine shape.inner op (List.mem_cons_of_mem _ (List.mem_append_left _ ?_))
    exact List.mem_flatten.mpr ⟨body, part, inside⟩
  · intro tables key
    have tracked := tables.getD_trackSpans build.spans key
    rwa [keys_build made] at tracked
  · rintro engine rfl rfl rfl
    obtain ⟨handed, built⟩ := engine.run_build_eq address graph tier
    rw [built, made]
    rfl

/-- Stores before it comes to registers that only later instructions use, and goes on from the middle of a block. -/
def storing : Guest.Graph where
  blocks :=
    [⟨0x1000, [⟨.movz, 0x1000, [1, 5], none, 4⟩, ⟨.nop, 0x1004, [], none, 4⟩, ⟨.cbnz, 0x1008, [1], some 0x2000, 4⟩,
        ⟨.str, 0x100c, [1, 2], none, 4⟩]⟩,
      ⟨0x2000, [⟨.ldr, 0x2000, [3, 2], none, 4⟩, ⟨.ret, 0x2004, [], none, 4⟩]⟩]

theorem spans_attribute_storing :
    ∃ build, ({ liveIn := fun _ => ⟨0x2, 0x1⟩ } : Builder).build (fun _ => false) 0x1000 storing .tier0 "Sub" = .ok build ∧
      build.spans.map (fun span => (span.start, span.stop)) =
        [(6, 7), (7, 7), (7, 18), (18, 19), (27, 28), (28, 34)] ∧
      ∃ emission portions prologue,
        Attributes build storing (Emission.finish emission).function emission.bindings prologue portions := by
  have ran : (({ liveIn := fun _ => ⟨0x2, 0x1⟩ } : Builder).build (fun _ => false) 0x1000 storing .tier0 "Sub").map (fun build =>
      build.spans.map fun span => (span.start, span.stop)) =
        .ok [(6, 7), (7, 7), (7, 18), (18, 19), (27, 28), (28, 34)] := by cbv
  cases made : ({ liveIn := fun _ => ⟨0x2, 0x1⟩ } : Builder).build (fun _ => false) 0x1000 storing .tier0 "Sub" with
  | error cause =>
    rw [made] at ran
    cases ran
  | ok build =>
    rw [made] at ran
    obtain ⟨_, emission, portions, loads, _, _, _, _, _, _, _, _, _, _, attributes, _⟩ := spans_attribute made
    exact ⟨build, rfl, Except.ok.inj ran, emission, portions, _, attributes⟩

end Builder
end Dynarec
