import Dynarec.Proofs.Compilation.Block
import Dynarec.Proofs.Compilation.Prologue

/-!
Where the code of a graph's blocks is. Control that goes to a block of the graph comes to the block's label, and
the block's code stands behind it.
-/
namespace Dynarec
namespace Emission
open Ir Semantics Interpreter Outcome

variable {emission : Emission} {graph : Guest.Graph}

theorem Lays.sites (lays : emission.Lays graph) : emission.finish.function.Sites emission.labels := by
  have ops : emission.finish.function.ops.toList = Expansion.expand emission.bindings emission.ops.toList := rfl
  have placed : (emission.finish.function.ops.toList.filterMap Op.placed?).Perm (List.range emission.labels) := by
    rw [ops, Expansion.placed_expand]
    exact lays.placed
  refine ⟨placed.nodup_iff.mpr List.nodup_range, ?_⟩
  intro label made
  obtain ⟨op, member, marks⟩ := List.mem_filterMap.mp (placed.mem_iff.mpr (List.mem_range.mpr made))
  obtain ⟨front, back, split⟩ := List.append_of_mem member
  obtain ⟨rfl⟩ : op = .place label := by
    cases op <;> simp_all [Op.placed?]
  have shape : emission.finish.function.ops.toList = front ++ [.place label] ++ back := by simpa using split
  have holds := Function.holds_of_eq shape
  exact ⟨_, Function.placement_of_holds (placed.nodup_iff.mpr List.nodup_range) holds⟩

theorem code_of_block {blocks : List Guest.Block} {codes : List (List Op)}
    (code : List.Forall₂ emission.BlockCode blocks codes) {block : Guest.Block} (member : block ∈ blocks) :
    ∃ front added back, codes.flatten = front ++ added ++ back ∧ emission.BlockCode block added := by
  induction code with
  | nil => cases member
  | @cons first added blocks codes here rest ih =>
    rcases List.mem_cons.mp member with rfl | later
    · exact ⟨[], added, codes.flatten, by simp, here⟩
    · obtain ⟨front, other, back, split, found⟩ := ih later
      exact ⟨added ++ front, other, back, by simp [split], found⟩

/-- Each block has its code somewhere, and its label there. -/
theorem Lays.site (lays : emission.Lays graph) {block : Guest.Block} (member : block ∈ graph.blocks) :
    ∃ label added position, emission.blockLabel? block.address = some label ∧ emission.BlockCode block added ∧
      emission.finish.function.placement? label = some position ∧
        emission.finish.function.Holds position (Expansion.expand emission.bindings added) := by
  obtain ⟨loads, codes, _, split, blocks⟩ := lays.code
  obtain ⟨front, added, back, inside, code⟩ := code_of_block blocks member
  have shape : emission.finish.function.ops.toList =
      Expansion.expand emission.bindings (loads ++ .preload :: front) ++
        Expansion.expand emission.bindings added ++ Expansion.expand emission.bindings back := by
    change Expansion.expand emission.bindings emission.ops.toList = _
    rw [split, inside, ← Expansion.expand_append, ← Expansion.expand_append]
    simp
  have holds := Function.holds_of_eq shape
  have whole := code
  obtain ⟨label, _, _, _, _, _, found, _, _, _, rfl, _⟩ := whole
  exact ⟨label, _, _, found, code, Function.placement_of_holds lays.sites.once holds, holds⟩

/-- A frame and a context that stand where a block's code begins, for a context that runs by itself. -/
def AtBlock (emission : Emission) (frame : Frame) (context : Context) (block : Guest.Block) (alone : Context) : Prop :=
  ∃ added, emission.BlockCode block added ∧
    emission.finish.function.Holds frame.position (Expansion.expand emission.bindings added) ∧
      emission.Tracks frame context ⟨block.address, alone.regs, alone.world⟩ ∧ context.depth = alone.depth

variable {args : List UInt64} {frame : Frame} {context alone : Context} {next : UInt64}

/-- Arriving is coming to a block that is there and may be run, or ending. -/
theorem Arrives.block (lays : emission.Lays graph) {after : Context}
    (arrives : emission.Arrives emission.finish.function args frame context next ⟨next, after.regs, after.world⟩)
    (depth : context.depth = after.depth) :
    (∃ block ∈ graph.blocks, block.address = next ∧ emission.tier = .tier1 ∧ ∃ count last between,
        Glide emission.finish.function args (count + 1) frame context last between ∧
          emission.AtBlock last between block after) ∨
      ((emission.tier = .tier0 ∨ ∀ block ∈ graph.blocks, block.address ≠ next) ∧
        Ends emission.finish.function args frame context next ⟨next, after.regs, after.world⟩) := by
  rcases arrives with ⟨label, count, last, between, found, glides, placed, tracks, same⟩ | ⟨outside, ends⟩
  · refine .inl ?_
    unfold jumpTarget? at found
    split at found
    · cases found
    · next tier =>
      have there : graph.contains next = true := by
        rw [← lays.known next, found]
        rfl
      obtain ⟨block, member, here⟩ := List.any_eq_true.mp there
      obtain rfl : block.address = next := by simpa using here
      obtain ⟨own, added, position, ownFound, code, ownPlaced, holds⟩ := lays.site member
      obtain rfl : own = label := Option.some.inj (ownFound.symm.trans found)
      obtain rfl : position = last.position := Option.some.inj (ownPlaced.symm.trans placed)
      exact ⟨block, member, rfl, tier, count, last, between, glides, added, code, holds, tracks, same.trans depth⟩
  · refine .inr ⟨?_, ends⟩
    unfold jumpTarget? at outside
    split at outside
    · next tier => exact .inl tier
    · refine .inr ?_
      intro block member here
      have there : graph.contains next = true := List.any_eq_true.mpr ⟨block, member, by simpa using here⟩
      rw [← lays.known next, outside] at there
      cases there

/-- Of the blocks with distinct addresses one is found by its own. -/
theorem find_block (sound : graph.Sound) {block : Guest.Block} (member : block ∈ graph.blocks) :
    graph.blocks.find? (·.address == block.address) = some block := by
  obtain ⟨front, back, split⟩ := List.append_of_mem member
  have distinct := sound.distinct
  rw [split, List.map_append, List.nodup_append] at distinct
  have missing : front.find? (·.address == block.address) = none := by
    rw [List.find?_eq_none]
    intro other inside same
    exact distinct.2.2 other.address (List.mem_map_of_mem inside) block.address (by simp) (by simpa using same)
  rw [split, List.find?_append, missing]
  simp

theorem find_none (outside : ∀ block ∈ graph.blocks, block.address ≠ next) :
    graph.blocks.find? (·.address == next) = none := by
  rw [List.find?_eq_none]
  intro block member same
  exact outside block member (by simpa using same)

end Emission
end Dynarec
