import Dynarec.Proofs.Emission.Graph

/-!
The code of a whole graph: a prologue that takes the parameters and loads the other registers, then the blocks.
Every label is placed once, so the function passes its check.
-/
namespace Dynarec

theorem Register.words_pos (register : Register) : 0 < register.words := by
  unfold words
  split <;> omega

namespace Emission
open Ir

theorem announce_all (addresses : List UInt64) (emission : Emission) :
    addresses.foldl announce emission = { emission with
      labels := emission.labels + addresses.length
      blockLabels := (addresses.zipIdx emission.labels).reverse ++ emission.blockLabels } := by
  induction addresses generalizing emission with
  | nil => rfl
  | cons address rest ih =>
    rw [List.foldl_cons, ih]
    simp [announce, label, List.zipIdx_cons]
    omega

/-- The operations `added` take the registers from the argument words from `word` on. -/
def Takes (emission : Emission) : Nat → List Register → List Op → Prop
  | _, [], added => added = []
  | word, register :: rest, added => ∃ slot later, emission.Binds register slot ∧
      added = .loadArg slot word :: later ∧ emission.Takes (word + register.words) rest later

theorem Takes.mono {before after : Emission} (grown : Extends before after) {word : Nat}
    {registers : List Register} {added : List Op} (takes : before.Takes word registers added) :
    after.Takes word registers added := by
  induction registers generalizing word added with
  | nil => exact takes
  | cons register rest ih =>
    obtain ⟨slot, later, bound, code, others⟩ := takes
    exact ⟨slot, later, bound.mono grown, code, ih others⟩

theorem argWords_bind (emission : Emission) (register : Register) (isParam : Bool) :
    (emission.bind register isParam).2.argWords = emission.argWords := by
  unfold bind
  split <;> rfl

theorem adds_param {emission : Emission} (sound : emission.Allotted) {register : Register}
    (given : register ∈ emission.params) :
    ∃ slot, Adds emission (emission.param register) [.loadArg slot emission.argWords] ∧
      (emission.param register).Binds register slot ∧
        (emission.param register).argWords = emission.argWords + register.words := by
  obtain ⟨adds, bound⟩ := adds_bind sound register fun _ => given
  have words := argWords_bind emission register true
  unfold param
  generalize emission.bind register true = pair at adds bound words ⊢
  obtain ⟨slot, holding⟩ := pair
  dsimp only at adds bound words ⊢
  have counted := adds_aside adds.allotted (holding.argWords + register.words) holding.callees holding.linked
    holding.spans holding.opened
  have put := adds_emit counted.allotted (.loadArg slot holding.argWords)
    ⟨by simpa [Op.locals] using bound.lt adds.allotted, by simp [Op.target?]⟩ rfl
  rw [← words]
  exact ⟨slot, adds.trans (counted.trans put), bound.mono (counted.trans put).toExtends, rfl⟩

theorem adds_params {emission : Emission} (sound : emission.Allotted) {registers : List Register}
    (given : ∀ register ∈ registers, register ∈ emission.params) :
    ∃ loads, Adds emission (registers.foldl param emission) loads ∧
      (registers.foldl param emission).Takes emission.argWords registers loads := by
  induction registers generalizing emission with
  | nil => exact ⟨[], .refl sound, rfl⟩
  | cons register rest ih =>
    obtain ⟨slot, adds, bound, words⟩ := adds_param sound (given register (by simp))
    have kept : ∀ other ∈ rest, other ∈ (emission.param register).params := by
      intro other member
      rw [adds.params]
      exact given other (by simp [member])
    obtain ⟨loads, others, takes⟩ := ih adds.allotted kept
    rw [words] at takes
    exact ⟨_, adds.trans others, slot, loads, bound.mono others.toExtends, rfl, takes⟩

/-- The operations are code of a graph, whatever the shape of its blocks: each block places the label of its address,
and labels made beyond those of the blocks are placed once. -/
structure Laid (emission : Emission) (graph : Guest.Graph) : Prop where
  code : ∃ loads codes, emission.Takes 0 emission.params loads ∧
    emission.ops.toList = loads ++ .preload :: codes.flatten ∧ List.Forall₂ emission.BlockShape graph.blocks codes
  given : ∀ binding ∈ emission.bindings, binding.isParam = true → binding.register ∈ emission.params
  allotted : emission.Allotted
  fits : ∀ op ∈ emission.ops.toList, emission.Fits op
  announced : emission.blockLabels = (graph.blocks.map Guest.Block.address).zipIdx.reverse
  enough : graph.blocks.length ≤ emission.labels
  placed : (emission.ops.toList.filterMap Op.placed?).Perm
    ((graph.blocks.map Guest.Block.address).map (fun address => (emission.blockLabel? address).getD 0) ++
      List.range' graph.blocks.length (emission.labels - graph.blocks.length))

/-- The operations are the code of a graph. -/
structure Lays (emission : Emission) (graph : Guest.Graph) : Prop where
  code : ∃ loads codes, emission.Takes 0 emission.params loads ∧
    emission.ops.toList = loads ++ .preload :: codes.flatten ∧ List.Forall₂ emission.BlockCode graph.blocks codes
  given : ∀ binding ∈ emission.bindings, binding.isParam = true → binding.register ∈ emission.params
  allotted : emission.Allotted
  fits : ∀ op ∈ emission.ops.toList, emission.Fits op
  placed : (emission.ops.toList.filterMap Op.placed?).Perm (List.range emission.labels)
  known : ∀ address, (emission.blockLabel? address).isSome = graph.contains address

theorem blockLabel?_isSome {emission : Emission} {addresses : List UInt64}
    (announced : emission.blockLabels = addresses.zipIdx.reverse) (address : UInt64) :
    (emission.blockLabel? address).isSome = addresses.contains address := by
  rw [Bool.eq_iff_iff, List.contains_iff_mem, blockLabel?, announced, List.lookup_isSome_iff]
  constructor
  · rintro ⟨entry, member, same⟩
    obtain rfl := eq_of_beq same
    exact List.fst_mem_of_mem_zipIdx (List.mem_reverse.mp member)
  · intro member
    obtain ⟨label, found⟩ := List.mem_iff_getElem?.mp member
    exact ⟨(address, label), List.mem_reverse.mpr (List.mem_zipIdx_iff_getElem?.mpr found), by simp⟩

/-- Blocks at distinct addresses are numbered in their order. -/
theorem blockLabel?_announced {emission : Emission} {addresses : List UInt64}
    (announced : emission.blockLabels = addresses.zipIdx.reverse) (distinct : addresses.Nodup) {address : UInt64}
    (member : address ∈ addresses) : emission.blockLabel? address = some (addresses.idxOf address) := by
  have known := blockLabel?_isSome announced address
  rw [List.contains_iff_mem.mpr member] at known
  obtain ⟨label, found⟩ := Option.isSome_iff_exists.mp known
  obtain ⟨front, back, split, _⟩ := List.lookup_eq_some_iff.mp found
  have entry : (address, label) ∈ addresses.zipIdx := by
    rw [← List.mem_reverse, ← announced, split]
    simp
  obtain ⟨bound, here⟩ := List.getElem?_eq_some_iff.mp (List.mem_zipIdx_iff_getElem?.mp entry)
  have number := distinct.idxOf_getElem label bound
  rw [here] at number
  rw [found, number]

theorem allotted_announced (addresses : List UInt64) {emission : Emission} (sound : emission.Allotted) :
    (addresses.foldl announce emission).Allotted := by
  induction addresses generalizing emission with
  | nil => exact sound
  | cons address rest ih =>
    refine ih ⟨sound.kinds, sound.registers, sound.slots, ?_⟩
    intro entry member
    rcases List.mem_cons.mp member with rfl | old
    · exact Nat.lt_succ_self _
    · exact (sound.targets entry old).trans (Nat.lt_succ_self _)

theorem map_idxOf {addresses : List UInt64} (distinct : addresses.Nodup) :
    addresses.map addresses.idxOf = List.range addresses.length := by
  apply List.ext_getElem
  · simp
  · intro index left right
    have bound : index < addresses.length := by simpa using left
    simp [distinct.idxOf_getElem index bound]

/-- An emission that has made the labels of the blocks, and nothing else. -/
def announced (name : String) (tier : Tier) (graph : Guest.Graph) (linkable : UInt64 → Bool)
    (params : List Register) : Emission :=
  { tier, name, params, linkable
    labels := graph.blocks.length
    blockLabels := (graph.blocks.map Guest.Block.address).zipIdx.reverse }

section
variable (name : String) (tier : Tier) (graph : Guest.Graph) (linkable : UInt64 → Bool) (params : List Register)

/-- The prologue takes the parameters and loads the other registers. -/
theorem adds_start : ∃ loads,
    Adds (announced name tier graph linkable params) (start name tier graph linkable params) (loads ++ [.preload]) ∧
      (start name tier graph linkable params).Takes 0 params loads := by
  let addresses := graph.blocks.map Guest.Block.address
  let empty : Emission := { tier, name, params, linkable }
  have same : addresses.foldl announce empty = announced name tier graph linkable params := by
    rw [announce_all]
    simp [announced, addresses, empty]
  have shape : start name tier graph linkable params =
      (params.foldl param (announced name tier graph linkable params)).emit .preload := by
    rw [← same]
    rfl
  have allotted : (announced name tier graph linkable params).Allotted :=
    same ▸ allotted_announced addresses ⟨by simp [empty], by simp [empty], by simp [empty], by simp [empty]⟩
  have given : ∀ register ∈ params, register ∈ (announced name tier graph linkable params).params :=
    fun _ member => member
  obtain ⟨loads, takesParams, takes⟩ := adds_params allotted given
  have preloads := adds_emit takesParams.allotted .preload ⟨by simp [Op.locals], by simp [Op.target?]⟩ rfl
  rw [shape]
  exact ⟨loads, takesParams.trans preloads, takes.mono preloads.toExtends⟩

theorem blockLabels_start : (start name tier graph linkable params).blockLabels =
    (graph.blocks.map Guest.Block.address).zipIdx.reverse := by
  obtain ⟨_, prologue, _⟩ := adds_start name tier graph linkable params
  exact prologue.blockLabels

/-- Where emission starts the block at an address has this label. -/
def labelOf (address : UInt64) : Label := ((start name tier graph linkable params).blockLabel? address).getD 0

theorem blockLabel?_start {block : Guest.Block} (member : block ∈ graph.blocks) :
    (start name tier graph linkable params).blockLabel? block.address =
      some (labelOf name tier graph linkable params block.address) := by
  have known := blockLabel?_isSome (blockLabels_start name tier graph linkable params) block.address
  rw [List.contains_iff_mem.mpr (List.mem_map_of_mem member)] at known
  obtain ⟨label, found⟩ := Option.isSome_iff_exists.mp known
  rw [labelOf, found]
  rfl

/-- Emission of a graph whose direct transfers all have targets comes through, and lays out the graph. -/
theorem laid_graph (named : ∀ block ∈ graph.blocks, ∀ instruction ∈ block.instructions, instruction.Named) :
    ∃ emission, (graph.blocks.forM Emit.block).run (start name tier graph linkable params) = (.ok (), emission) ∧
      emission.Laid graph ∧ emission.name = name ∧ emission.tier = tier ∧ emission.linkable = linkable ∧
        emission.params = params := by
  obtain ⟨loads, prologue, takes⟩ := adds_start name tier graph linkable params
  obtain ⟨emission, portions, ran, places, blocks, _⟩ := Emit.emits_blocks prologue.allotted named
    (labelOf name tier graph linkable params) fun _ => blockLabel?_start name tier graph linkable params
  have whole := prologue.places.trans places
  have none : (announced name tier graph linkable params).ops.toList = [] := rfl
  have first : (announced name tier graph linkable params).labels = graph.blocks.length := rfl
  have sameParams : emission.params = params := whole.params
  refine ⟨emission, ran, ⟨⟨loads, portions.map Portion.code, ?_, ?_, blocks⟩, ?_, whole.allotted, ?_, whole.blockLabels, whole.labels, ?_⟩,
    whole.name, whole.tier, whole.linkable, sameParams⟩
  · rw [sameParams]
    exact takes.mono places.toExtends
  · rw [whole.appended, none]
    simp
  · obtain ⟨fresh, bindings, later⟩ := whole.bindings
    rw [bindings, sameParams]
    exact fun binding member => (later binding member).2
  · intro op member
    rw [whole.appended, none, List.nil_append] at member
    exact whole.fits op member
  · have sameLabel : ∀ address, (emission.blockLabel? address).getD 0 =
        labelOf name tier graph linkable params address := by
      intro address
      simp [labelOf, blockLabel?, places.blockLabels]
    rw [whole.appended, none, List.nil_append]
    refine whole.placed.trans ?_
    simp only [sameLabel, first, List.map_map, List.nil_append]
    exact .refl _

end

theorem related_of_mem {α β : Type} {related : α → β → Prop} {left : List α} {right : List β}
    (all : List.Forall₂ related left right) {after : β} (member : after ∈ right) :
    ∃ before ∈ left, related before after := by
  induction all with
  | nil => exact absurd member List.not_mem_nil
  | cons first _ ih =>
    rcases List.mem_cons.mp member with rfl | inside
    · exact ⟨_, List.mem_cons_self, first⟩
    · obtain ⟨before, own, holds⟩ := ih inside
      exact ⟨before, List.mem_cons_of_mem _ own, holds⟩

theorem of_flatten {P : List Op → Prop} (nil : P []) (append : ∀ front back, P front → P back → P (front ++ back))
    {pieces : List (List Op)} (each : ∀ piece ∈ pieces, P piece) : P pieces.flatten := by
  induction pieces with
  | nil => exact nil
  | cons piece rest ih =>
    rw [List.flatten_cons]
    exact append _ _ (each piece List.mem_cons_self) (ih fun other inside => each other (List.mem_cons_of_mem _ inside))

/-- What holds of all pieces and of what they make together holds of all the code. -/
theorem Laid.of_pieces {emission : Emission} {graph : Guest.Graph} (laid : emission.Laid graph) {P : List Op → Prop}
    (nil : P []) (append : ∀ front back, P front → P back → P (front ++ back))
    (takes : ∀ added, emission.Takes 0 emission.params added → P added) (preload : P [.preload])
    (place : ∀ label, P [.place label])
    (code : ∀ instruction ∈ graph.instructions, ∀ added, emission.CodeOf instruction added → P added)
    (continues : ∀ target added, emission.Continues target added → P added) : P emission.ops.toList := by
  obtain ⟨loads, codes, takesLoads, split, blocks⟩ := laid.code
  have shaped : ∀ block ∈ graph.blocks, ∀ added, emission.BlockShape block added → P added := by
    rintro block held added ⟨label, bodies, rest, _, body, rfl, way⟩
    have inside : P bodies.flatten := by
      refine of_flatten nil append fun added own => ?_
      obtain ⟨instruction, inBlock, codeOf⟩ := related_of_mem body own
      exact code instruction (List.mem_flatMap.mpr ⟨block, held, inBlock⟩) added codeOf
    have last : P rest := by
      split at way
      · rwa [way]
      · exact continues _ _ way
    exact append [.place label] _ (place label) (append _ _ inside last)
  have blockwise : P codes.flatten := by
    refine of_flatten nil append fun added own => ?_
    obtain ⟨block, held, shape⟩ := related_of_mem blocks own
    exact shaped block held added shape
  rw [split]
  exact append _ _ (takes loads takesLoads) (append [.preload] _ preload blockwise)

/-- What holds of all operations of the pieces holds of all operations. -/
theorem Laid.forall_ops {emission : Emission} {graph : Guest.Graph} (laid : emission.Laid graph) {P : Op → Prop}
    (takes : ∀ added, emission.Takes 0 emission.params added → ∀ op ∈ added, P op) (preload : P .preload)
    (place : ∀ label, P (.place label))
    (code : ∀ instruction ∈ graph.instructions, ∀ added, emission.CodeOf instruction added → ∀ op ∈ added, P op)
    (continues : ∀ target added, emission.Continues target added → ∀ op ∈ added, P op) :
    ∀ op ∈ emission.ops.toList, P op := by
  refine laid.of_pieces (P := fun ops => ∀ op ∈ ops, P op) (by simp) ?_ takes (by simpa using preload) ?_ code
    continues
  · exact fun front back early late => List.forall_mem_append.mpr ⟨early, late⟩
  · exact fun label => by simpa using place label

theorem Laid.known {emission : Emission} {graph : Guest.Graph} (laid : emission.Laid graph) (address : UInt64) :
    (emission.blockLabel? address).isSome = graph.contains address := by
  rw [blockLabel?_isSome laid.announced, Bool.eq_iff_iff, List.contains_iff_mem, Guest.Graph.contains, List.any_eq_true]
  simp

/-- Where no two blocks have one address every label is placed once. -/
theorem Laid.placed_range {emission : Emission} {graph : Guest.Graph} (laid : emission.Laid graph)
    (distinct : (graph.blocks.map Guest.Block.address).Nodup) :
    (emission.ops.toList.filterMap Op.placed?).Perm (List.range emission.labels) := by
  refine laid.placed.trans ?_
  have own : (graph.blocks.map Guest.Block.address).map (fun address => (emission.blockLabel? address).getD 0) =
      List.range' 0 graph.blocks.length := by
    rw [← List.range_eq_range', ← List.length_map Guest.Block.address, ← map_idxOf distinct]
    refine List.map_congr_left fun address member => ?_
    rw [blockLabel?_announced laid.announced distinct member]
    rfl
  have joined : List.range' 0 graph.blocks.length ++
      List.range' (0 + graph.blocks.length) (emission.labels - graph.blocks.length) = List.range' 0 emission.labels := by
    rw [List.range'_append_1, Nat.add_sub_cancel' laid.enough]
  rw [own, List.range_eq_range', ← joined, Nat.zero_add]

theorem Laid.lays {emission : Emission} {graph : Guest.Graph} (laid : emission.Laid graph) (sound : graph.Sound) :
    emission.Lays graph := by
  obtain ⟨loads, codes, takes, split, blocks⟩ := laid.code
  have straight : List.Forall₂ emission.BlockCode graph.blocks codes :=
    ((List.forall₂_and_left _ _).mpr ⟨sound.straight, blocks⟩).imp fun _ _ both => both.2.code both.1
  exact ⟨⟨loads, codes, takes, split, straight⟩, laid.given, laid.allotted, laid.fits,
    laid.placed_range sound.distinct, laid.known⟩

end Emission
end Dynarec
