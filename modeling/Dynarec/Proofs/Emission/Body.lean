import Dynarec.Emission.Instruction
import Dynarec.Proofs.Effect
import Dynarec.Proofs.Emission.Layout

/-!
What bodies are made of. Behind the prologue, code comes about in steps of a few kinds, and the code of every graph comes
about so. No step takes an argument word, makes a parameter, or changes what a register's local is.
-/
namespace Dynarec
namespace Emission
open Ir

/-- The emission comes of `before` by steps of a body: operations, locals, the locals of registers, labels, and what is
noted beside the code. -/
inductive Grows (before : Emission) : Emission → Prop
  | refl : Grows before before
  | emit {after : Emission} (op : Op) : Grows before after → Grows before (after.emit op)
  | temp {after : Emission} (kind : LocalKind) : Grows before after → Grows before (after.temp kind).2
  | register {after : Emission} (register : Register) : Grows before after → Grows before (after.register register).2
  | label {after : Emission} : Grows before after → Grows before after.label.2
  | aside {after : Emission} (callees linked : Std.TreeSet UInt64) (spans : Array Span) (opened : Option OpenSpan) :
      Grows before after → Grows before { after with callees, linked, spans, opened }

theorem Grows.trans {first second third : Emission} (left : first.Grows second) (right : second.Grows third) :
    first.Grows third := by
  induction right with
  | refl => exact left
  | emit op _ ih => exact ih.emit op
  | temp kind _ ih => exact ih.temp kind
  | register register _ ih => exact ih.register register
  | label _ ih => exact ih.label
  | aside callees linked spans opened _ ih => exact ih.aside callees linked spans opened

section Steps
variable (emission : Emission)

theorem grows_constant (value : UInt64) : emission.Grows (emission.constant value).2 := .emit _ (.temp .i64 .refl)

theorem grows_ret (next : Local) : emission.Grows (emission.ret next) := .emit (.ret next) (.emit .spill .refl)

theorem grows_leave (target : UInt64) : emission.Grows (emission.leave target) :=
  (emission.grows_constant target).trans (grows_ret _ _)

theorem grows_branch (target : UInt64) : emission.Grows (emission.branch target) := by
  unfold branch
  split
  · exact .emit _ .refl
  · exact emission.grows_leave target

theorem grows_branchIf (cond : Local) (target : UInt64) : emission.Grows (emission.branchIf cond target) := by
  unfold branchIf
  split
  · exact .emit _ .refl
  · refine .emit _ (Grows.trans ?_ (grows_leave _ target))
    exact .emit _ (.label (.emit _ (.temp .i64 (emission.grows_constant 0))))

theorem grows_callInPlace (target back : UInt64) : emission.Grows (emission.callInPlace target back) := by
  have notes : emission.Grows { emission with linked := emission.linked.insert target } :=
    .aside emission.callees _ emission.spans emission.opened .refl
  have calls := (((notes.temp .i64).emit .spill).emit (.call emission.locals.size target)).emit .reload
  unfold callInPlace
  dsimp only
  refine (Grows.emit _ (Grows.trans ?_ (grows_ret _ _))).trans (grows_branch _ back)
  exact .emit _ (.label (.emit _ (.temp .i64 (calls.trans (grows_constant _ back)))))

theorem grows_call (target back : UInt64) : emission.Grows (emission.call target back) := by
  have notes : emission.Grows { emission with callees := emission.callees.insert target } :=
    .aside _ emission.linked emission.spans emission.opened .refl
  unfold call
  dsimp only
  split
  · exact notes.trans (grows_callInPlace _ target back)
  · exact notes.trans (grows_branch _ target)

theorem grows_retToLink : emission.Grows emission.retToLink := (Grows.register .link .refl).trans (grows_ret _ _)

theorem grows_beginSpan (instruction : Guest.Instruction) : emission.Grows (emission.beginSpan instruction) :=
  .aside emission.callees emission.linked emission.spans _ .refl

theorem grows_endSpan : emission.Grows emission.endSpan := by
  unfold endSpan
  split
  · exact .refl
  · exact .aside emission.callees emission.linked _ none .refl

theorem grows_moves (slot : Local) (count : Nat) :
    emission.Grows (count.repeat (Emission.emit (.move slot slot)) emission) := by
  induction count with
  | zero => exact .refl
  | succ count ih => exact ih.emit _

end Steps

section Kept
variable {before after : Emission}

theorem Grows.keeps (body : before.Grows after) (sound : before.Allotted) :
    Extends before after ∧ after.Allotted ∧ after.argWords = before.argWords := by
  -- operations are arbitrary here, so that those emitted need not fit and the steps are not pieces of finished code
  induction body with
  | refl => exact ⟨.refl before, sound, rfl⟩
  | @emit after op _ ih =>
    obtain ⟨grown, allotted, words⟩ := ih
    have longer : Extends after (after.emit op) :=
      ⟨rfl, rfl, rfl, rfl, rfl, by simp [Emission.emit], List.prefix_rfl, Nat.le_refl _, [], by simp [Emission.emit]⟩
    exact ⟨grown.trans longer, ⟨allotted.kinds, allotted.registers, allotted.slots, allotted.targets⟩, words⟩
  | temp kind _ ih =>
    obtain ⟨grown, allotted, words⟩ := ih
    have adds := adds_temp allotted kind
    exact ⟨grown.trans adds.toExtends, adds.allotted, words⟩
  | register register _ ih =>
    obtain ⟨grown, allotted, words⟩ := ih
    have adds := (adds_register allotted register).1
    exact ⟨grown.trans adds.toExtends, adds.allotted, (argWords_bind _ register false).trans words⟩
  | @label after _ ih =>
    obtain ⟨grown, allotted, words⟩ := ih
    have more : Extends after after.label.2 :=
      ⟨rfl, rfl, rfl, rfl, rfl, List.prefix_rfl, List.prefix_rfl, Nat.le_succ _, [], by simp [Emission.label]⟩
    have targets : ∀ entry ∈ after.blockLabels, entry.2 < after.labels + 1 :=
      fun entry member => (allotted.targets entry member).trans (Nat.lt_succ_self _)
    exact ⟨grown.trans more, ⟨allotted.kinds, allotted.registers, allotted.slots, targets⟩, words⟩
  | @aside after callees linked spans opened _ ih =>
    obtain ⟨grown, allotted, words⟩ := ih
    have adds := adds_aside allotted after.argWords callees linked spans opened
    exact ⟨grown.trans adds.toExtends, adds.allotted, words⟩

/-- A register that is used once keeps the local it got then. -/
theorem Grows.binds {middle : Emission} {register : Register} (early : before.Grows middle)
    (late : (middle.register register).2.Grows after) (sound : before.Allotted) :
    after.Binds register (middle.register register).1 := by
  obtain ⟨_, allotted, _⟩ := early.keeps sound
  obtain ⟨adds, bound⟩ := adds_register allotted register
  exact bound.mono (late.keeps adds.allotted).1

end Kept
end Emission

namespace Emit
open Emission Effect

/-- A piece of emission that makes part of a body, wherever it fails. -/
def Bodily {α : Type} (piece : Emit α) : Prop := ∀ before : Emission, before.Grows (piece.run before).2

theorem bodily_pure {α : Type} (value : α) : Bodily (pure value : Emit α) := fun _ => .refl

theorem bodily_modify {change : Emission → Emission} (grows : ∀ emission : Emission, emission.Grows (change emission)) :
    Bodily (modify change : Emit Unit) := grows

theorem bodily_use (register : Register) : Bodily (use register) := fun _ => .register register .refl

theorem bodily_temp (kind : Ir.LocalKind) : Bodily (temp kind) := fun _ => .temp kind .refl

theorem bodily_constant (value : UInt64) : Bodily (constant value) := fun before => before.grows_constant value

theorem bodily_put (op : Ir.Op) : Bodily (put op) := fun _ => .emit op .refl

theorem bodily_target (instruction : Guest.Instruction) : Bodily (target instruction) := by
  intro before
  unfold target
  split <;> exact .refl

theorem Bodily.bind {α β : Type} {first : Emit α} {next : α → Emit β} (left : Bodily first)
    (right : ∀ value, Bodily (next value)) : Bodily (first >>= next) := by
  intro before
  have early := left before
  rw [run_bind]
  generalize first.run before = ran at early ⊢
  obtain ⟨_ | value, middle⟩ := ran
  · exact early
  · exact early.trans (right value middle)

theorem bodily_forM {α : Type} {piece : α → Emit Unit} (list : List α) (each : ∀ item, Bodily (piece item)) :
    Bodily (list.forM piece) := by
  induction list with
  | nil => exact bodily_pure ()
  | cons item rest ih => exact (each item).bind fun _ => ih

theorem bodily_instruction (instruction : Guest.Instruction) : Bodily (Emit.instruction instruction) := by
  unfold Emit.instruction binary binaryImm
  cases instruction.form
  all_goals
    repeat with_reducible first
      | refine Bodily.bind ?_ fun _ => ?_
      | exact bodily_use _
      | exact bodily_temp _
      | exact bodily_constant _
      | exact bodily_put _
      | exact bodily_target _
      | exact bodily_pure _
      | exact bodily_modify fun emission => grows_branch emission _
      | exact bodily_modify fun emission => grows_branchIf emission _ _
      | exact bodily_modify fun emission => grows_call emission _ _
      | exact bodily_modify grows_retToLink
      | exact bodily_modify fun emission => grows_moves emission _ _

theorem bodily_spanned (instruction : Guest.Instruction) : Bodily (spanned instruction) :=
  (bodily_modify fun emission => emission.grows_beginSpan instruction).bind fun _ =>
    (bodily_instruction instruction).bind fun _ => bodily_modify grows_endSpan

theorem bodily_block (block : Guest.Block) : Bodily (Emit.block block) := by
  unfold Emit.block
  refine (bodily_modify fun emission => ?placed).bind fun _ =>
    (bodily_forM block.instructions bodily_spanned).bind fun _ => bodily_modify fun emission => ?goes
  case placed =>
    split
    · exact .emit _ .refl
    · exact .refl
  case goes =>
    split
    · exact .refl
    · exact emission.grows_branch block.last

end Emit

/-- The code of a graph is a body behind the prologue. -/
theorem Emitted.grows_ofGraph {name : String} {tier : Tier} {graph : Guest.Graph} {linkable : UInt64 → Bool}
    {params : List Register} {emitted : Emitted}
    (made : Emitted.ofGraph name tier graph linkable params = .ok emitted) :
    ∃ emission, (Emission.start name tier graph linkable params).Grows emission ∧ emitted = emission.finish := by
  have body := Emit.bodily_forM graph.blocks Emit.bodily_block (Emission.start name tier graph linkable params)
  unfold Emitted.ofGraph at made
  split at made
  · next emission ran =>
    cases made
    rw [ran] at body
    exact ⟨emission, body, rfl⟩
  · cases made

end Dynarec
