import Dynarec.Proofs.Emission.Layout

/-!
Which calls an emission records: the targets of the calls it has emitted, and among them those it makes in
place, which tier-1 code does for every target that can be linked.
-/
namespace Dynarec

/-- The target of a call. -/
def Guest.Instruction.callee? (instruction : Guest.Instruction) : Option UInt64 :=
  if instruction.form.flow = .call then instruction.target else none

def Guest.Block.callees (block : Guest.Block) : List UInt64 := block.instructions.filterMap Guest.Instruction.callee?

def Guest.Graph.callees (graph : Guest.Graph) : List UInt64 := graph.blocks.flatMap Guest.Block.callees

namespace Emission
open Ir

/-- What decides and records calls, and the argument words that have been taken. -/
def edges (emission : Emission) : Tier × (UInt64 → Bool) × Std.TreeSet UInt64 × Std.TreeSet UInt64 × Nat :=
  (emission.tier, emission.linkable, emission.callees, emission.linked, emission.argWords)

@[simp] theorem edges_emit (op : Op) (emission : Emission) : (emission.emit op).edges = emission.edges := rfl

@[simp] theorem edges_temp (kind : LocalKind) (emission : Emission) :
    (emission.temp kind).2.edges = emission.edges := rfl

@[simp] theorem edges_bind (register : Register) (isParam : Bool) (emission : Emission) :
    (emission.bind register isParam).2.edges = emission.edges := by
  unfold bind
  split <;> rfl

@[simp] theorem edges_register (register : Register) (emission : Emission) :
    (emission.register register).2.edges = emission.edges := edges_bind register false emission

@[simp] theorem edges_constant (value : UInt64) (emission : Emission) :
    (emission.constant value).2.edges = emission.edges := rfl

@[simp] theorem edges_branch (target : UInt64) (emission : Emission) :
    (emission.branch target).edges = emission.edges := by
  unfold branch
  split <;> rfl

@[simp] theorem edges_branchIf (cond : Local) (target : UInt64) (emission : Emission) :
    (emission.branchIf cond target).edges = emission.edges := by
  unfold branchIf
  split
  · rfl
  · simp [leave, constant, temp, label, edges, emit, ret]

@[simp] theorem edges_retToLink (emission : Emission) : emission.retToLink.edges = emission.edges :=
  edges_register .link emission

theorem edges_param (emission : Emission) (register : Register) : (emission.param register).edges =
    (emission.tier, emission.linkable, emission.callees, emission.linked, emission.argWords + register.words) := by
  have same := edges_bind register true emission
  simp only [edges, Prod.mk.injEq] at same
  obtain ⟨tier, linkable, callees, linked, words⟩ := same
  unfold param
  simp only [edges, emit, tier, linkable, callees, linked, words]

@[simp] theorem edges_endSpan (emission : Emission) : emission.endSpan.edges = emission.edges := by
  unfold endSpan
  split <;> rfl

@[simp] theorem edges_moves (slot : Local) (count : Nat) (emission : Emission) :
    (count.repeat (Emission.emit (.move slot slot)) emission).edges = emission.edges := by
  induction count with
  | zero => rfl
  | succ count ih => exact ih

/-- `after` has recorded the calls `called` in addition, and takes the same arguments. -/
structure Calls (before after : Emission) (called : List UInt64) : Prop where
  tier : after.tier = before.tier
  linkable : after.linkable = before.linkable
  words : after.argWords = before.argWords
  callees : ∀ address, address ∈ after.callees ↔ address ∈ before.callees ∨ address ∈ called
  linked : ∀ address, address ∈ after.linked ↔
    address ∈ before.linked ∨ (address ∈ called ∧ before.tier = .tier1 ∧ before.linkable address = true)

theorem calls_of_edges {before after : Emission} (same : after.edges = before.edges) : Calls before after [] := by
  simp only [edges, Prod.mk.injEq] at same
  obtain ⟨tier, linkable, callees, linked, words⟩ := same
  exact ⟨tier, linkable, words, by simp [callees], by simp [linked]⟩

theorem Calls.trans {first second third : Emission} {early late : List UInt64} (left : Calls first second early)
    (right : Calls second third late) : Calls first third (early ++ late) := by
  refine ⟨right.tier.trans left.tier, right.linkable.trans left.linkable, right.words.trans left.words, ?_, ?_⟩
  · intro address
    rw [right.callees, left.callees, List.mem_append, or_assoc]
  · intro address
    rw [right.linked, left.linked, List.mem_append, left.tier, left.linkable]
    tauto

@[simp] theorem edges_callInPlace (target back : UInt64) (emission : Emission) :
    (emission.callInPlace target back).edges =
      (emission.tier, emission.linkable, emission.callees, emission.linked.insert target, emission.argWords) := by
  unfold callInPlace
  rw [edges_branch]
  simp [constant, temp, label, edges, emit, ret]

theorem calls_call (emission : Emission) (target back : UInt64) :
    Calls emission (emission.call target back) [target] := by
  have counted : ∀ address, address ∈ emission.callees.insert target ↔
      address ∈ emission.callees ∨ address ∈ [target] := by
    intro address
    rw [Std.TreeSet.mem_insert, Std.compare_eq_iff_eq, List.mem_singleton, eq_comm, or_comm]
  have edges : (emission.call target back).edges = (emission.tier, emission.linkable, emission.callees.insert target,
      if emission.tier = .tier1 ∧ emission.linkable target = true then emission.linked.insert target
      else emission.linked, emission.argWords) := by
    unfold call
    dsimp only
    split
    · rw [edges_callInPlace]
    · rw [edges_branch]
      rfl
  simp only [Emission.edges, Prod.mk.injEq] at edges
  obtain ⟨tier, linkable, callees, linked, words⟩ := edges
  refine ⟨tier, linkable, words, by rw [callees]; exact counted, ?_⟩
  intro address
  rw [linked, List.mem_singleton]
  split
  · next inPlace =>
    rw [Std.TreeSet.mem_insert, Std.compare_eq_iff_eq]
    constructor
    · rintro (rfl | old)
      · exact .inr ⟨rfl, inPlace⟩
      · exact .inl old
    · rintro (old | ⟨rfl, _⟩)
      · exact .inr old
      · exact .inl rfl
  · next leaves =>
    constructor
    · exact .inl
    · rintro (old | ⟨rfl, inPlace⟩)
      · exact old
      · exact absurd inPlace leaves

end Emission

namespace Emit
open Emission Effect

/-- What a finished piece of emission has recorded. -/
def Records {α : Type} (piece : Emit α) (called : List UInt64) : Prop :=
  ∀ before value after, piece.run before = (.ok value, after) → Calls before after called

theorem records_pure : Records (pure () : Emit Unit) [] := by
  intro before value after ran
  cases ran
  exact calls_of_edges rfl

theorem records_modify {change : Emission → Emission} (same : ∀ emission, (change emission).edges = emission.edges) :
    Records (modify change : Emit Unit) [] := by
  intro before value after ran
  cases ran
  exact calls_of_edges (same before)

theorem records_use (register : Register) : Records (use register) [] := by
  intro before value after ran
  cases ran
  exact calls_of_edges (edges_register register before)

theorem records_temp (kind : Ir.LocalKind) : Records (temp kind) [] := by
  intro before value after ran
  cases ran
  exact calls_of_edges (edges_temp kind before)

theorem records_constant (value : UInt64) : Records (constant value) [] := by
  intro before slot after ran
  cases ran
  exact calls_of_edges (edges_constant value before)

theorem records_target (instruction : Guest.Instruction) : Records (target instruction) [] := by
  intro before value after ran
  unfold target at ran
  split at ran
  · cases ran
    exact calls_of_edges rfl
  · cases ran

theorem Records.bind {α β : Type} {first : Emit α} {next : α → Emit β} {early late : List UInt64}
    (left : Records first early) (right : ∀ value, Records (next value) late) :
    Records (first >>= next) (early ++ late) := by
  intro before result after ran
  obtain ⟨value, middle, step, rest⟩ := of_run_bind ran
  exact (left before value middle step).trans (right value middle result after rest)

/-- Steps that record nothing may come before a piece. -/
theorem Records.after {α β : Type} {first : Emit α} {next : α → Emit β} {called : List UInt64}
    (left : Records first []) (right : ∀ value, Records (next value) called) : Records (first >>= next) called :=
  left.bind right

theorem records_put (op : Ir.Op) : Records (put op) [] := records_modify (edges_emit op)

theorem records_call (instruction : Guest.Instruction) (back : UInt64) :
    Records (target instruction >>= fun callee => modify (Emission.call callee back)) instruction.target.toList := by
  intro before value after ran
  unfold target at ran
  cases named : instruction.target with
  | none =>
    rw [named] at ran
    cases ran
  | some callee =>
    rw [named] at ran
    cases ran
    exact calls_call before callee back

theorem records_instruction (instruction : Guest.Instruction) :
    Records (Emit.instruction instruction) instruction.callee?.toList := by
  unfold Emit.instruction Guest.Instruction.callee? binary binaryImm
  cases instruction.form
  case bl =>
    exact (records_use .link).after fun link => (records_put (.const link instruction.next)).after fun _ =>
      records_call instruction instruction.next
  all_goals
    change Records _ []
    repeat with_reducible first
      | refine Records.after ?_ fun _ => ?_
      | exact records_use _
      | exact records_temp _
      | exact records_constant _
      | exact records_target _
      | exact records_put _
      | exact records_pure
      | exact records_modify (edges_branch _)
      | exact records_modify (edges_branchIf _ _)
      | exact records_modify edges_retToLink
      | exact records_modify (edges_moves _ _)

theorem records_forM {α : Type} {piece : α → Emit Unit} {called : α → List UInt64} (list : List α)
    (each : ∀ item ∈ list, Records (piece item) (called item)) :
    Records (list.forM piece) (list.flatMap called) := by
  induction list with
  | nil =>
    intro before value after ran
    cases ran
    exact calls_of_edges rfl
  | cons item rest ih =>
    exact (each item (by simp)).bind fun _ => ih fun other member => each other (by simp [member])

theorem records_spanned (instruction : Guest.Instruction) :
    Records (spanned instruction) instruction.callee?.toList := by
  have opens : Records (modify (beginSpan instruction) : Emit Unit) [] := records_modify fun _ => rfl
  have closes : Records (modify endSpan : Emit Unit) [] := records_modify edges_endSpan
  have rest := (records_instruction instruction).bind fun _ => closes
  rw [List.append_nil] at rest
  exact opens.after fun _ => rest

theorem records_block (block : Guest.Block) : Records (Emit.block block) block.callees := by
  have goes : Records (modify fun emission =>
      if emission.isTerminated then emission else emission.branch block.last : Emit Unit) [] := by
    refine records_modify fun emission => ?_
    split
    · rfl
    · exact edges_branch block.last emission
  have body := records_forM block.instructions fun instruction _ => records_spanned instruction
  have calls : block.instructions.flatMap (fun instruction => instruction.callee?.toList) = block.callees := by
    rw [Guest.Block.callees, List.filterMap_eq_flatMap_toList]
  rw [calls] at body
  have rest := body.bind fun _ => goes
  rw [List.append_nil] at rest
  refine Records.after (records_modify fun emission => ?_) fun _ => rest
  split <;> rfl

end Emit

namespace Emission

theorem edges_params (registers : List Register) (emission : Emission) : (registers.foldl param emission).edges =
    (emission.tier, emission.linkable, emission.callees, emission.linked,
      emission.argWords + (registers.map Register.words).sum) := by
  induction registers generalizing emission with
  | nil => rfl
  | cons register rest ih =>
    have first := edges_param emission register
    simp only [edges, Prod.mk.injEq] at first
    obtain ⟨tier, linkable, callees, linked, words⟩ := first
    rw [List.foldl_cons, ih, tier, linkable, callees, linked, words, List.map_cons, List.sum_cons, Nat.add_assoc]

theorem edges_start (name : String) (tier : Tier) (graph : Guest.Graph) (linkable : UInt64 → Bool)
    (params : List Register) : (start name tier graph linkable params).edges =
      (tier, linkable, ∅, ∅, (params.map Register.words).sum) := by
  unfold start
  rw [edges_emit, edges_params, announce_all]
  simp

end Emission

/-- A finished function's callees are the graph's, and its calls in place those that could be linked. -/
theorem Emitted.callees_ofGraph {name : String} {tier : Tier} {graph : Guest.Graph} {linkable : UInt64 → Bool}
    {params : List Register} {emitted : Emitted}
    (made : Emitted.ofGraph name tier graph linkable params = .ok emitted) (address : UInt64) :
    (address ∈ emitted.callees ↔ address ∈ graph.callees) ∧
      (address ∈ emitted.linked ↔ address ∈ graph.callees ∧ tier = .tier1 ∧ linkable address = true) := by
  unfold Emitted.ofGraph at made
  split at made
  · next emission ran =>
    cases made
    have calls := Emit.records_forM graph.blocks (fun block _ => Emit.records_block block) _ _ _ ran
    have started := Emission.edges_start name tier graph linkable params
    simp only [Emission.edges, Prod.mk.injEq] at started
    obtain ⟨sameTier, sameLinkable, callees, linked, _⟩ := started
    have counted := calls.callees address
    have placed := calls.linked address
    rw [callees] at counted
    rw [linked, sameTier, sameLinkable] at placed
    change (address ∈ emission.callees.toList ↔ _) ∧ (address ∈ emission.linked.toList ↔ _)
    rw [Std.TreeSet.mem_toList, Std.TreeSet.mem_toList, counted, placed]
    exact ⟨or_iff_right Std.TreeSet.not_mem_emptyc, or_iff_right Std.TreeSet.not_mem_emptyc⟩
  · cases made

/-- A finished function takes as many argument words as its parameters have. -/
theorem Emitted.argWords_ofGraph {name : String} {tier : Tier} {graph : Guest.Graph} {linkable : UInt64 → Bool}
    {params : List Register} {emitted : Emitted}
    (made : Emitted.ofGraph name tier graph linkable params = .ok emitted) :
    emitted.function.argWords = (params.map Register.words).sum := by
  unfold Emitted.ofGraph at made
  split at made
  · next emission ran =>
    cases made
    have calls := Emit.records_forM graph.blocks (fun block _ => Emit.records_block block) _ _ _ ran
    have started := Emission.edges_start name tier graph linkable params
    simp only [Emission.edges, Prod.mk.injEq] at started
    exact calls.words.trans started.2.2.2.2
  · cases made

end Dynarec
