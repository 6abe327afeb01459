import Dynarec.Builder
import Dynarec.Proofs.Effect
import Dynarec.Proofs.Emission.Callees

/-!
The spans of a finished function: one for each instruction of the graph, of its kind, in the order of the graph.
-/
namespace Dynarec
namespace Emission
open Ir

/-- The spans noted so far, and the one that is open. -/
def marks (emission : Emission) : Array Span × Option OpenSpan := (emission.spans, emission.opened)

@[simp] theorem marks_emit (op : Op) (emission : Emission) : (emission.emit op).marks = emission.marks := rfl

@[simp] theorem marks_bind (emission : Emission) (register : Register) (isParam : Bool) :
    (emission.bind register isParam).2.marks = emission.marks := by
  unfold bind
  split <;> rfl

@[simp] theorem marks_register (register : Register) (emission : Emission) :
    (emission.register register).2.marks = emission.marks := emission.marks_bind register false

@[simp] theorem marks_branch (target : UInt64) (emission : Emission) :
    (emission.branch target).marks = emission.marks := by
  unfold branch
  split <;> rfl

@[simp] theorem marks_branchIf (cond : Local) (target : UInt64) (emission : Emission) :
    (emission.branchIf cond target).marks = emission.marks := by
  unfold branchIf
  split
  · rfl
  · simp [leave, constant, temp, label, marks, emit, ret]

@[simp] theorem marks_callInPlace (target back : UInt64) (emission : Emission) :
    (emission.callInPlace target back).marks = emission.marks := by
  unfold callInPlace
  rw [marks_branch]
  simp [constant, temp, label, marks, emit, ret]

@[simp] theorem marks_call (target back : UInt64) (emission : Emission) :
    (emission.call target back).marks = emission.marks := by
  unfold call
  dsimp only
  split
  · rw [marks_callInPlace]
    rfl
  · rw [marks_branch]
    rfl

@[simp] theorem marks_retToLink (emission : Emission) : emission.retToLink.marks = emission.marks :=
  marks_register .link emission

@[simp] theorem marks_moves (slot : Local) (count : Nat) (emission : Emission) :
    (count.repeat (Emission.emit (.move slot slot)) emission).marks = emission.marks := by
  induction count with
  | zero => rfl
  | succ count ih => exact ih

theorem marks_start (name : String) (tier : Tier) (graph : Guest.Graph) (linkable : UInt64 → Bool)
    (params : List Register) : (start name tier graph linkable params).marks = (#[], none) := by
  have takes : ∀ (registers : List Register) (emission : Emission),
      (registers.foldl param emission).marks = emission.marks := by
    intro registers
    induction registers with
    | nil => exact fun _ => rfl
    | cons register rest ih =>
      intro emission
      exact (ih (emission.param register)).trans (emission.marks_bind register true)
  unfold start
  rw [marks_emit, takes, announce_all]
  rfl

end Emission

namespace Emit
open Emission Effect

/-- A piece that notes no span, and opens and ends none. -/
def Unmarked {α : Type} (piece : Emit α) : Prop :=
  ∀ before value after, piece.run before = (.ok value, after) → after.marks = before.marks

theorem unmarked_pure {α : Type} (value : α) : Unmarked (pure value : Emit α) := by
  intro before value after ran
  cases ran
  rfl

theorem unmarked_modifyGet {α : Type} {change : Emission → α × Emission}
    (same : ∀ emission, (change emission).2.marks = emission.marks) : Unmarked (modifyGet change : Emit α) := by
  intro before value after ran
  cases ran
  exact same before

theorem unmarked_modify {change : Emission → Emission} (same : ∀ emission, (change emission).marks = emission.marks) :
    Unmarked (modify change : Emit Unit) := unmarked_modifyGet same

theorem unmarked_target (instruction : Guest.Instruction) : Unmarked (target instruction) := by
  intro before value after ran
  unfold target at ran
  split at ran <;> cases ran
  rfl

theorem Unmarked.bind {α β : Type} {first : Emit α} {next : α → Emit β} (left : Unmarked first)
    (right : ∀ value, Unmarked (next value)) : Unmarked (first >>= next) := by
  intro before result after ran
  obtain ⟨value, middle, step, rest⟩ := of_run_bind ran
  exact (right value middle result after rest).trans (left before value middle step)

theorem unmarked_use (register : Register) : Unmarked (use register) := unmarked_modifyGet (marks_register register)

theorem unmarked_temp (kind : Ir.LocalKind) : Unmarked (temp kind) := unmarked_modifyGet fun _ => rfl

theorem unmarked_constant (value : UInt64) : Unmarked (constant value) := unmarked_modifyGet fun _ => rfl

theorem unmarked_put (op : Ir.Op) : Unmarked (put op) := unmarked_modify (marks_emit op)

theorem unmarked_instruction (instruction : Guest.Instruction) : Unmarked (Emit.instruction instruction) := by
  unfold Emit.instruction binary binaryImm
  cases instruction.form
  all_goals
    repeat with_reducible first
      | refine Unmarked.bind ?_ fun _ => ?_
      | exact unmarked_use _
      | exact unmarked_temp _
      | exact unmarked_constant _
      | exact unmarked_put _
      | exact unmarked_target _
      | exact unmarked_pure _
      | exact unmarked_modify (marks_branch _)
      | exact unmarked_modify (marks_branchIf _ _)
      | exact unmarked_modify (marks_call _ _)
      | exact unmarked_modify marks_retToLink
      | exact unmarked_modify (marks_moves _ _)

/-- The kinds of the spans noted so far. -/
def keys (emission : Emission) : List Profile.OpcodeKey := emission.spans.toList.map Span.key

/-- A piece that notes spans of these kinds. -/
def Marks {α : Type} (piece : Emit α) (noted : List Profile.OpcodeKey) : Prop :=
  ∀ before value after, piece.run before = (.ok value, after) → keys after = keys before ++ noted

theorem Unmarked.marks {α : Type} {piece : Emit α} (unmarked : Unmarked piece) : Marks piece [] := by
  intro before value after ran
  have same : after.spans = before.spans := congrArg Prod.fst (unmarked before value after ran)
  unfold keys
  rw [same, List.append_nil]

theorem Marks.bind {α β : Type} {first : Emit α} {next : α → Emit β} {early late : List Profile.OpcodeKey}
    (left : Marks first early) (right : ∀ value, Marks (next value) late) : Marks (first >>= next) (early ++ late) := by
  intro before result after ran
  obtain ⟨value, middle, step, rest⟩ := of_run_bind ran
  rw [right value middle result after rest, left before value middle step, List.append_assoc]

theorem marks_forM {α : Type} {piece : α → Emit Unit} {noted : α → List Profile.OpcodeKey}
    (each : ∀ item, Marks (piece item) (noted item)) (list : List α) : Marks (list.forM piece) (list.flatMap noted) := by
  induction list with
  | nil => exact (unmarked_pure ()).marks
  | cons item rest ih => exact (each item).bind fun _ => ih

theorem marks_spanned (instruction : Guest.Instruction) : Marks (spanned instruction) [instruction.form.key] := by
  intro before value after ran
  unfold spanned at ran
  obtain ⟨_, begun, opens, rest⟩ := of_run_bind ran
  obtain ⟨_, middle, step, ends⟩ := of_run_bind rest
  cases opens
  cases ends
  have same := unmarked_instruction instruction _ _ _ step
  have spans : middle.spans = before.spans := congrArg Prod.fst same
  have opened : middle.opened = some ⟨instruction.form.key, instruction.address, before.ops.size⟩ :=
    congrArg Prod.snd same
  unfold keys endSpan
  rw [opened]
  simp [spans]

theorem marks_block (block : Guest.Block) :
    Marks (Emit.block block) (block.instructions.map (·.form.key)) := by
  have goes : Unmarked (modify fun emission =>
      if emission.isTerminated then emission else emission.branch block.last : Emit Unit) := by
    refine unmarked_modify fun emission => ?_
    split
    · rfl
    · exact marks_branch block.last emission
  have whole := (marks_forM marks_spanned block.instructions).bind fun _ => goes.marks
  rw [List.append_nil, ← List.map_eq_flatMap] at whole
  refine Marks.bind (Unmarked.marks (unmarked_modify fun emission => ?_)) fun _ => whole
  split <;> rfl

end Emit

/-- A finished function has a span for each instruction of its graph. -/
theorem Emitted.keys_ofGraph {name : String} {tier : Tier} {graph : Guest.Graph} {linkable : UInt64 → Bool}
    {params : List Register} {emitted : Emitted}
    (made : Emitted.ofGraph name tier graph linkable params = .ok emitted) :
    emitted.spans.map Span.key = graph.instructions.map (·.form.key) := by
  unfold Emitted.ofGraph at made
  split at made
  · next emission ran =>
    cases made
    have noted := Emit.marks_forM Emit.marks_block graph.blocks _ _ _ ran
    have started : (Emission.start name tier graph linkable params).spans = #[] :=
      congrArg Prod.fst (Emission.marks_start name tier graph linkable params)
    unfold Emit.keys at noted
    rw [started] at noted
    unfold Emission.finish Guest.Graph.instructions
    rw [List.map_map, List.map_flatMap]
    exact noted
  · cases made

namespace Builder

theorem keys_build {builder : Builder} {linkable : UInt64 → Bool} {address : UInt64} {graph : Guest.Graph}
    {tier : Tier} {name : String} {build : Build} (made : builder.build linkable address graph tier name = .ok build) :
    build.spans.map Span.key = graph.instructions.map (·.form.key) := by
  obtain ⟨emitted, translated, assembled⟩ := Effect.of_bind made
  obtain ⟨params, _, emits⟩ := Effect.of_bind translated
  obtain ⟨_, _, same⟩ := Effect.of_bind assembled
  cases same
  exact Emitted.keys_ofGraph emits

theorem length_spans_build {builder : Builder} {linkable : UInt64 → Bool} {address : UInt64} {graph : Guest.Graph}
    {tier : Tier} {name : String} {build : Build} (made : builder.build linkable address graph tier name = .ok build) :
    build.spans.length = graph.size := by
  have same := congrArg List.length (keys_build made)
  rwa [List.length_map, List.length_map] at same

end Builder
end Dynarec
