import Dynarec.Proofs.Emission.Layout

/-!
Emission of instructions that lack a target. It fails at the first of them, in the order of the graph, whatever
stands behind.
-/
namespace Dynarec

/-- The error at a direct transfer without a target. -/
def Guest.Instruction.lacking (instruction : Guest.Instruction) : TranslationError :=
  .decode instruction.address s!"{instruction.form.name} without target"

namespace Emit
open Ir Emission Effect

/-- A piece that fails, with whatever was emitted until then. -/
def Fails {α : Type} (piece : Emit α) (before : Emission) (error : TranslationError) : Prop :=
  (piece.run before).1 = .error error

section
variable {α β : Type} {first : Emit α} {next : α → Emit β} {before middle : Emission} {value : α}
  {error : TranslationError}

theorem Fails.bind (fails : Fails first before error) : Fails (first >>= next) before error := by
  unfold Fails at fails ⊢
  rw [run_bind]
  rcases ran : first.run before with ⟨_ | _, after⟩
  · rw [ran] at fails
    cases fails
    rfl
  · rw [ran] at fails
    cases fails

theorem Fails.behind (ran : first.run before = (.ok value, middle)) (fails : Fails (next value) middle error) :
    Fails (first >>= next) before error := by
  unfold Fails
  rw [run_bind, ran]
  exact fails

end

theorem fails_target {instruction : Guest.Instruction} (lacks : ¬ instruction.Named) (emission : Emission) :
    Fails (target instruction) emission instruction.lacking := by
  have absent : instruction.target = none := by
    cases known : instruction.target with
    | none => rfl
    | some address => exact absurd (fun _ => by simp [known]) lacks
  unfold target
  rw [absent]
  rfl

theorem fails_instruction {instruction : Guest.Instruction} (lacks : ¬ instruction.Named) (emission : Emission) :
    Fails (Emit.instruction instruction) emission instruction.lacking := by
  have direct : instruction.form.isDirect = true := by
    by_contra other
    exact lacks fun isDirect => absurd isDirect other
  unfold Emit.instruction
  cases form : instruction.form <;> rw [form] at direct
  case b => exact (fails_target lacks emission).bind
  case bEq => exact .behind (run_modifyGet _ emission) (fails_target lacks _).bind
  case cbnz => exact .behind (run_modifyGet _ emission) (fails_target lacks _).bind
  case bl =>
    exact .behind (run_modifyGet _ emission) (.behind (run_modify _ _) (fails_target lacks _).bind)
  all_goals exact absurd direct (by decide)

theorem fails_body {emission : Emission} (sound : emission.Allotted) {front : List Guest.Instruction}
    {instruction : Guest.Instruction} (named : ∀ early ∈ front, early.Named) (lacks : ¬ instruction.Named)
    (rest : List Guest.Instruction) :
    Fails ((front ++ instruction :: rest).forM spanned) emission instruction.lacking := by
  obtain ⟨middle, bodies, emits, _⟩ := emits_body sound named
  have fails : Fails (spanned instruction) middle instruction.lacking :=
    .behind (run_modify _ middle) (fails_instruction lacks _).bind
  rw [List.forM_eq_forM, List.forM_append]
  exact .behind emits.1 fails.bind

theorem fails_block {emission : Emission} (sound : emission.Allotted) {block : Guest.Block} {label : Label}
    (found : emission.blockLabel? block.address = some label) {front rest : List Guest.Instruction}
    {instruction : Guest.Instruction} (split : block.instructions = front ++ instruction :: rest)
    (named : ∀ early ∈ front, early.Named) (lacks : ¬ instruction.Named) :
    Fails (Emit.block block) emission instruction.lacking := by
  have fails := fails_body (places_place sound label).allotted named lacks rest
  unfold Emit.block
  refine .behind (run_modify _ emission) ?_
  simp only [found]
  rw [split]
  exact fails.bind

/-- Emission of blocks fails at the first instruction among theirs that lacks its target. -/
theorem fails_blocks {emission : Emission} (sound : emission.Allotted) {blocks : List Guest.Block}
    (labelOf : UInt64 → Label)
    (found : ∀ block ∈ blocks, emission.blockLabel? block.address = some (labelOf block.address))
    {front rest : List Guest.Instruction} {instruction : Guest.Instruction}
    (split : blocks.flatMap Guest.Block.instructions = front ++ instruction :: rest)
    (named : ∀ early ∈ front, early.Named) (lacks : ¬ instruction.Named) :
    Fails (blocks.forM Emit.block) emission instruction.lacking := by
  induction blocks generalizing emission front with
  | nil => simp at split
  | cons block blocks ih =>
    change Fails (Emit.block block >>= fun _ => blocks.forM Emit.block) emission _
    -- The block is passed if the instruction stands behind it.
    have passes : ∀ later, blocks.flatMap Guest.Block.instructions = later ++ instruction :: rest →
        front = block.instructions ++ later →
          Fails (Emit.block block >>= fun _ => blocks.forM Emit.block) emission instruction.lacking := by
      intro later behind whole
      obtain ⟨middle, added, ran, places, _⟩ := emits_block sound
        (fun early member => named early (by simp [whole, member])) (found block (by simp))
      have kept : ∀ other ∈ blocks, middle.blockLabel? other.address = some (labelOf other.address) := by
        intro other member
        simpa [blockLabel?, places.blockLabels] using found other (by simp [member])
      exact .behind ran
        (ih places.allotted kept behind fun early member => named early (by simp [whole, member]))
    rw [List.flatMap_cons] at split
    rcases List.append_eq_append_iff.mp split with ⟨later, whole, behind⟩ | ⟨within, own, behind⟩
    · exact passes later behind whole
    · cases within with
      | nil => exact passes [] (by simpa using behind.symm) (by simpa using own.symm)
      | cons first others =>
        obtain ⟨rfl, _⟩ := List.cons_eq_cons.mp behind
        exact (fails_block sound (found block (by simp)) own named lacks).bind

end Emit
end Dynarec
