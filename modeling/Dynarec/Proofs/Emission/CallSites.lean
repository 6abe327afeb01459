import Dynarec.Cache
import Dynarec.Proofs.Builder
import Dynarec.Proofs.Emission.Linking

/-!
What a build records of its calls is what its code does. The code calls in place exactly the targets that the build tells
it links to; each such call stands between stores and loads of all locals that hold registers, those too that are allotted
only behind it.
-/
namespace Dynarec

/-- The registers that an instruction reads or writes. -/
def Guest.Instruction.registers (instruction : Guest.Instruction) : List Register :=
  let x := instruction.x
  let v := instruction.v
  match instruction.form with
  | .movz | .cbnz => [x 0]
  | .add | .sub => [x 1, x 2, x 0]
  | .addImm | .subImm | .ldr | .str => [x 1, x 0]
  | .cmpImm => [x 0, .zero]
  | .b | .nop => []
  | .bEq => [.zero]
  | .bl | .ret => [.link]
  | .cas => [x 1, x 2, x 3, x 0]
  | .insPair => [x 1, x 2, v 0]
  | .eorV => [v 1, v 2, v 0]
  | .umovLo => [v 1, x 0]
  | .bloat => [.int 0]

theorem Guest.Instruction.callee?_eq_some {instruction : Guest.Instruction} {target : UInt64} :
    instruction.callee? = some target ↔ instruction.form = .bl ∧ instruction.target = some target := by
  unfold callee?
  cases instruction.form <;> simp [Form.flow]

theorem Guest.Graph.mem_callees {graph : Guest.Graph} {target : UInt64} : target ∈ graph.callees ↔
    ∃ instruction ∈ graph.instructions, instruction.form = .bl ∧ instruction.target = some target := by
  unfold callees Block.callees instructions
  simp only [List.mem_flatMap, List.mem_filterMap, Instruction.callee?_eq_some]
  constructor
  · rintro ⟨block, held, instruction, inside, calls⟩
    exact ⟨instruction, ⟨block, held, inside⟩, calls⟩
  · rintro ⟨instruction, ⟨block, held, inside⟩, calls⟩
    exact ⟨block, held, instruction, inside, calls⟩

namespace Ir

/-- The body starts with the register in the local: it was loaded, or taken from the words of a parameter. -/
def Function.Keeps (function : Function) (register : Register) (slot : Local) : Prop :=
  .loadRegister slot register ∈ function.ops.toList ∨
    ∃ index : Nat, function.params[index]? = some register ∧
      .loadArg slot ((function.params.take index).map Register.words).sum ∈ function.ops.toList

/-- Calls in place stand between stores and loads of all registers. -/
inductive Enclosed : List Op → Prop
  | nil : Enclosed []
  | plain {op : Op} {rest : List Op} : (∀ dst target, op ≠ .call dst target) → Enclosed rest → Enclosed (op :: rest)
  | call {dst : Local} {target : UInt64} {rest : List Op} :
      Enclosed rest → Enclosed (.spill :: .call dst target :: .reload :: rest)

theorem enclosed_of_plain {ops : List Op} (plain : ∀ op ∈ ops, ∀ dst target, op ≠ .call dst target) :
    Enclosed ops := by
  induction ops with
  | nil => exact .nil
  | cons op rest ih =>
    obtain ⟨first, others⟩ := List.forall_mem_cons.mp plain
    exact .plain first (ih others)

theorem Enclosed.append {front back : List Op} (early : Enclosed front) (late : Enclosed back) :
    Enclosed (front ++ back) := by
  induction early with
  | nil => exact late
  | plain other _ ih => exact .plain other ih
  | call _ ih => exact .call ih

namespace Expansion

/-- An operation that is not in the first part of a list is in the second. -/
theorem behind_of_not_mem {early rest front back : List Op} {op : Op} (same : early ++ rest = front ++ op :: back)
    (outside : op ∉ early) : ∃ middle, front = early ++ middle ∧ rest = middle ++ op :: back := by
  rcases List.append_eq_append_iff.mp same with found | ⟨others, rfl, split⟩
  · exact found
  · cases others with
    | nil => exact ⟨[], by simp, split.symm⟩
    | cons first others =>
      obtain rfl := (List.cons.inj split).1
      exact absurd (by simp) outside

/-- Expanded, the stores come right before a call and the loads right behind it. -/
theorem split_of_enclosed {ops : List Op} (enclosed : Enclosed ops) (bindings : List Binding) {front back : List Op}
    {dst : Local} {target : UInt64} (split : expand bindings ops = front ++ .call dst target :: back) :
    bindings.map store <:+ front ∧ bindings.map load <+: back := by
  induction enclosed generalizing front with
  | nil => exact absurd split (by simp [expand])
  | @plain op rest other _ ih =>
    have apart : .call dst target ∉ expand bindings [op] := by
      rw [call_mem_expand, List.mem_singleton]
      exact (other dst target).symm
    rw [← List.singleton_append, expand_append] at split
    obtain ⟨middle, rfl, later⟩ := behind_of_not_mem split apart
    obtain ⟨stores, loads⟩ := ih later
    exact ⟨stores.trans (List.suffix_append _ _), loads⟩
  | @call own callee rest _ ih =>
    have whole : bindings.map store ++ (.call own callee :: (bindings.map load ++ expand bindings rest)) =
        front ++ .call dst target :: back := split
    obtain ⟨middle, rfl, here⟩ := behind_of_not_mem whole (by simp [store])
    cases middle with
    | nil =>
      obtain ⟨_, rfl⟩ := List.cons.inj here
      exact ⟨by simp, List.prefix_append _ _⟩
    | cons first middle =>
      obtain ⟨_, behind⟩ := List.cons.inj here
      obtain ⟨later, rfl, inside⟩ := behind_of_not_mem behind (by simp [load])
      obtain ⟨stores, loads⟩ := ih inside
      refine ⟨stores.trans ?_, loads⟩
      exact (List.suffix_append _ later).trans ((List.suffix_cons _ _).trans (List.suffix_append _ _))

end Expansion
end Ir

namespace Emission
open Ir

variable {emission : Emission} {graph : Guest.Graph} {instruction : Guest.Instruction} {added : List Op}

theorem CodeOf.enclosed (code : emission.CodeOf instruction added) : Enclosed added := by
  by_cases calls : ∃ dst target, .call dst target ∈ added
  · obtain ⟨dst, target, member⟩ := calls
    obtain ⟨called, linkable⟩ := code.calls member
    obtain ⟨form, named⟩ := Guest.Instruction.callee?_eq_some.mp called
    unfold CodeOf at code
    simp only [form] at code
    obtain ⟨link, own, rest, same, _, rfl, goes⟩ := code
    obtain rfl : target = own := Option.some.inj (named.symm.trans same)
    rw [if_pos linkable] at goes
    obtain ⟨next, expected, returned, resume, behind, _, _, _, _, _, goes, rfl⟩ := goes
    refine .plain nofun (.call (enclosed_of_plain ?_))
    exact List.forall_mem_append.mpr ⟨by simp, fun op inside => (goes.plain op inside).1⟩
  · refine enclosed_of_plain ?_
    rintro _ member dst target rfl
    exact calls ⟨dst, target, member⟩

/-- Instructions leave it to placeholders to load registers. -/
theorem CodeOf.unloaded (code : emission.CodeOf instruction added) :
    ∀ op ∈ added, ∀ slot register, op ≠ .loadRegister slot register := by
  unfold CodeOf at code
  cases form : instruction.form <;> simp only [form] at code
  case b =>
    obtain ⟨_, _, goes⟩ := code
    exact fun op member => (goes.plain op member).2
  case bEq => obtain ⟨_, _, _, _, ⟨_, _, rfl⟩ | ⟨_, _, _, _, _, _, _, _, rfl⟩⟩ := code <;> simp
  case cbnz => obtain ⟨_, _, _, _, ⟨_, _, rfl⟩ | ⟨_, _, _, _, _, _, _, _, rfl⟩⟩ := code <;> simp
  case bl =>
    obtain ⟨link, target, rest, _, _, rfl, goes⟩ := code
    refine List.forall_mem_cons.mpr ⟨nofun, ?_⟩
    split at goes
    · obtain ⟨_, _, _, _, behind, _, _, _, _, _, goes, rfl⟩ := goes
      exact List.forall_mem_append.mpr ⟨by simp, fun op inside => (goes.plain op inside).2⟩
    · exact fun op inside => (goes.plain op inside).2
  all_goals grind

theorem CodeOf.binds (code : emission.CodeOf instruction added) :
    ∀ register ∈ instruction.registers, ∃ slot, emission.Binds register slot := by
  unfold CodeOf at code
  unfold Guest.Instruction.registers
  cases form : instruction.form <;> simp only [form] at code ⊢ <;> grind

section Parameters
variable {word : Nat} {registers : List Register}

theorem Takes.word_le (takes : emission.Takes word registers added) {slot : Local} {first : Nat}
    (member : .loadArg slot first ∈ added) : word ≤ first := by
  induction registers generalizing word added with
  | nil =>
    obtain rfl : added = [] := takes
    cases member
  | cons register rest ih =>
    obtain ⟨own, later, _, rfl, others⟩ := takes
    rcases List.mem_cons.mp member with same | inside
    · obtain ⟨_, rfl⟩ : slot = own ∧ first = word := by simpa using same
      exact Nat.le_refl _
    · exact (Nat.le_add_right _ _).trans (ih others inside)

/-- What is taken from the words of a parameter comes into the parameter's local. -/
theorem Takes.binds (takes : emission.Takes word registers added) {index : Nat} {register : Register} {slot : Local}
    (named : registers[index]? = some register)
    (member : .loadArg slot (word + ((registers.take index).map Register.words).sum) ∈ added) :
    emission.Binds register slot := by
  induction registers generalizing word added index with
  | nil => cases named
  | cons first rest ih =>
    obtain ⟨own, later, bound, rfl, others⟩ := takes
    have positive := first.words_pos
    cases index with
    | zero =>
      obtain rfl : first = register := by simpa using named
      rcases List.mem_cons.mp member with same | inside
      · obtain rfl : slot = own := by simpa using same
        exact bound
      · have above := others.word_le inside
        simp at above
        omega
    | succ index =>
      have words : word + (((first :: rest).take (index + 1)).map Register.words).sum =
          word + first.words + ((rest.take index).map Register.words).sum := by
        simp [Nat.add_assoc]
      rw [words] at member
      rcases List.mem_cons.mp member with same | inside
      · have equal : word + first.words + ((rest.take index).map Register.words).sum = word := by
          injection same
        omega
      · exact ih others (by simpa using named) inside

theorem Takes.taken (takes : emission.Takes word registers added) {register : Register}
    (member : register ∈ registers) : ∃ (index : Nat) (slot : Local), registers[index]? = some register ∧
      .loadArg slot (word + ((registers.take index).map Register.words).sum) ∈ added ∧
        emission.Binds register slot := by
  induction registers generalizing word added with
  | nil => cases member
  | cons first rest ih =>
    obtain ⟨own, later, bound, rfl, others⟩ := takes
    rcases List.mem_cons.mp member with rfl | inside
    · exact ⟨0, own, rfl, by simp, bound⟩
    · obtain ⟨index, slot, named, taken, binds⟩ := ih others inside
      refine ⟨index + 1, slot, named, List.mem_cons_of_mem _ ?_, binds⟩
      simpa [Nat.add_assoc] using taken

end Parameters

namespace Laid

variable (laid : emission.Laid graph)
include laid

theorem enclosed : Enclosed emission.ops.toList := by
  refine laid.of_pieces .nil (fun _ _ => .append) (fun added takes => enclosed_of_plain ?_) (.plain nofun .nil)
    (fun _ => .plain nofun .nil) (fun _ _ _ code => code.enclosed)
    fun _ _ goes => enclosed_of_plain fun op member => (goes.plain op member).1
  intro op member
  obtain ⟨_, _, rfl⟩ := takes.loadArg op member
  exact nofun

theorem unloaded : ∀ op ∈ emission.ops.toList, ∀ slot register, op ≠ .loadRegister slot register := by
  refine laid.forall_ops (fun added takes op member => ?_) nofun (fun _ => nofun)
    (fun _ _ _ code => code.unloaded) fun _ _ goes op member => (goes.plain op member).2
  obtain ⟨_, _, rfl⟩ := takes.loadArg op member
  exact nofun

/-- Every instruction of the graph has its code among the operations. -/
theorem code_of_mem (member : instruction ∈ graph.instructions) :
    ∃ added, emission.CodeOf instruction added ∧ added ⊆ emission.ops.toList := by
  obtain ⟨loads, codes, _, split, blocks⟩ := laid.code
  obtain ⟨block, held, inBlock⟩ := List.mem_flatMap.mp member
  obtain ⟨piece, ownPiece, label, bodies, rest, _, body, rfl, _⟩ := related_of_mem blocks.flip held
  obtain ⟨added, ownBody, code⟩ := related_of_mem body.flip inBlock
  refine ⟨added, code, fun op inside => ?_⟩
  have inPiece : op ∈ Op.place label :: (bodies.flatten ++ rest) :=
    List.mem_cons_of_mem _ (List.mem_append_left _ (List.mem_flatten.mpr ⟨added, ownBody, inside⟩))
  rw [split]
  exact List.mem_append_right _ (List.mem_cons_of_mem _ (List.mem_flatten.mpr ⟨_, ownPiece, inPiece⟩))

/-- The function calls in place exactly what the graph calls and can be called so. -/
theorem calls_iff (target : UInt64) : (∃ dst, .call dst target ∈ emission.finish.function.ops.toList) ↔
    target ∈ graph.callees ∧ emission.tier = .tier1 ∧ emission.linkable target = true := by
  constructor
  · rintro ⟨dst, member⟩
    exact laid.calls member
  · rintro ⟨callee, linkable⟩
    obtain ⟨instruction, inside, form, named⟩ := Guest.Graph.mem_callees.mp callee
    obtain ⟨added, code, within⟩ := laid.code_of_mem inside
    unfold CodeOf at code
    simp only [form] at code
    obtain ⟨link, own, rest, same, _, rfl, goes⟩ := code
    obtain rfl : target = own := Option.some.inj (named.symm.trans same)
    rw [if_pos linkable] at goes
    obtain ⟨next, expected, returned, resume, behind, _, _, _, _, _, _, rfl⟩ := goes
    exact ⟨next, Expansion.call_mem_expand.mpr (within (by simp))⟩

/-- The locals that hold registers where the body starts are those that emission allotted to them. -/
theorem keeps_iff {register : Register} {slot : Local} :
    emission.finish.function.Keeps register slot ↔ emission.Binds register slot := by
  obtain ⟨loads, codes, takes, split, blocks⟩ := laid.code
  constructor
  · rintro (loaded | ⟨index, named, taken⟩)
    · rcases Expansion.mem_expand loaded with ⟨origin, _⟩ | ⟨binding, known, same | same⟩
      · exact absurd rfl (laid.unloaded _ origin slot register)
      · obtain ⟨rfl, rfl⟩ : slot = binding.slot ∧ register = binding.register := by
          simpa [Expansion.load] using same
        exact ⟨binding, known, rfl, rfl⟩
      · cases same
    · rcases Expansion.mem_expand taken with ⟨origin, _⟩ | ⟨binding, _, same | same⟩
      · rw [split] at origin
        rcases List.mem_append.mp origin with early | late
        · exact takes.binds named (by rwa [Nat.zero_add])
        · rcases List.mem_cons.mp late with same | inside
          · cases same
          · obtain ⟨piece, own, within⟩ := List.mem_flatten.mp inside
            obtain ⟨block, _, shape⟩ := related_of_mem blocks own
            exact absurd trivial (shape.inner _ within)
      · cases same
      · cases same
  · rintro ⟨binding, known, rfl, rfl⟩
    cases given : binding.isParam with
    | true =>
      obtain ⟨index, slot, named, taken, other, there, same, rfl⟩ := takes.taken (laid.given binding known given)
      obtain rfl := laid.allotted.unique there known (.inr same)
      refine .inr ⟨index, named, List.mem_flatMap.mpr ⟨.loadArg other.slot _, ?_, List.mem_singleton_self _⟩⟩
      rw [split]
      rw [Nat.zero_add] at taken
      exact List.mem_append_left _ taken
    | false =>
      refine .inl (List.mem_flatMap.mpr ⟨.preload, by simp [split], ?_⟩)
      exact List.mem_map.mpr ⟨binding, List.mem_filter.mpr ⟨known, by simp [given]⟩, rfl⟩

/-- A parameter, or a register that an instruction of the graph reads or writes, has a local. -/
theorem binds {register : Register}
    (used : register ∈ emission.params ∨ ∃ instruction ∈ graph.instructions, register ∈ instruction.registers) :
    ∃ slot, emission.Binds register slot := by
  rcases used with given | ⟨instruction, inside, named⟩
  · obtain ⟨loads, _, takes, _⟩ := laid.code
    obtain ⟨_, slot, _, _, bound⟩ := takes.taken given
    exact ⟨slot, bound⟩
  · obtain ⟨added, code, _⟩ := laid.code_of_mem inside
    exact code.binds register named

end Laid
end Emission

namespace Builder
open Ir

variable {builder : Builder} {address : UInt64} {graph : Guest.Graph} {tier : Tier} {name : String} {build : Build}

theorem sorted_callees_build {linkable : UInt64 → Bool}
    (made : builder.build linkable address graph tier name = .ok build) :
    build.subroutine.callees.Pairwise (· < ·) := by
  obtain ⟨emitted, translated, assembled⟩ := Effect.of_bind made
  obtain ⟨_, _, whole⟩ := Effect.of_bind assembled
  obtain ⟨params, _, emits⟩ := Effect.of_bind translated
  cases whole
  unfold Emitted.ofGraph at emits
  split at emits
  · cases emits
    exact Std.TreeSet.ordered_toList.imp Std.compare_eq_lt.mp
  · cases emits

/-- Of a build in the sight of a cache: the callees are the targets of the calls of the graph, ascending; it links to those
of them where the cache holds code of tier 1, if it is of tier 1 itself; its code calls in place exactly what it links to;
and right before each such call all registers that the code holds in locals are stored, and right behind it loaded. -/
theorem calls_exact {cache : Cache} (made : builder.build cache.holdsTier1 address graph tier name = .ok build) :
    build.subroutine.callees.Pairwise (· < ·) ∧
      (∀ target, target ∈ build.subroutine.callees ↔
        ∃ instruction ∈ graph.instructions, instruction.form = .bl ∧ instruction.target = some target) ∧
      (∀ target, build.subroutine.linksTo target = true ↔ tier = .tier1 ∧ target ∈ build.subroutine.callees ∧
        ∃ callee, cache.get? target = some callee ∧ callee.tier = .tier1) ∧
      ∃ (function : Function) (held : List (Register × Local)), build.subroutine.code = .compiled function ∧
        (held.map Prod.fst).Nodup ∧ (held.map Prod.snd).Nodup ∧
        (∀ register slot, (register, slot) ∈ held ↔ function.Keeps register slot) ∧
        (∀ register, (register ∈ function.params ∨
          ∃ instruction ∈ graph.instructions, register ∈ instruction.registers) → ∃ slot, (register, slot) ∈ held) ∧
        (∀ target, (∃ dst, .call dst target ∈ function.ops.toList) ↔ build.subroutine.linksTo target = true) ∧
        ∀ front dst target back, function.ops.toList = front ++ .call dst target :: back →
          held.map (fun (register, slot) => .storeRegister register slot) <:+ front ∧
            held.map (fun (register, slot) => .loadRegister slot register) <+: back := by
  have linked := linksTo_build made
  have callees := mem_callees_build made
  have sorted := sorted_callees_build made
  obtain ⟨_, emission, builds, rfl, linkable⟩ := builds_of_build made
  have laid := builds.laid
  have mem_held : ∀ register slot, (register, slot) ∈ emission.bindings.map (fun binding =>
      (binding.register, binding.slot)) ↔ emission.Binds register slot := by
    intro register slot
    rw [List.mem_map]
    simp only [Prod.mk.injEq]
    rfl
  refine ⟨sorted, fun target => (callees target).trans Guest.Graph.mem_callees, fun target => ?_,
    emission.finish.function, emission.bindings.map fun binding => (binding.register, binding.slot), builds.code,
    ?_, ?_, fun register slot => ?_, fun register used => ?_, fun target => ?_, ?_⟩
  · rw [linked, callees]
    simp only [Cache.holdsTier1, Option.any_eq_true, beq_iff_eq]
    tauto
  · rw [List.map_map]
    exact laid.allotted.registers
  · rw [List.map_map]
    exact laid.allotted.slots
  · rw [mem_held, laid.keeps_iff]
  · obtain ⟨slot, bound⟩ := laid.binds used
    exact ⟨slot, (mem_held register slot).mpr bound⟩
  · rw [laid.calls_iff, linked, linkable]
  · intro front dst target back split
    rw [List.map_map, List.map_map]
    exact Expansion.split_of_enclosed laid.enclosed emission.bindings split

/-- Calls one address twice, the second time behind a register's first use, and its own start in between. -/
def revisiting : Guest.Graph where
  blocks :=
    [⟨0x1000, [⟨.movz, 0x1000, [1, 5], none, 4⟩, ⟨.bl, 0x1004, [], some 0x3000, 4⟩]⟩,
      ⟨0x1008, [⟨.bl, 0x1008, [], some 0x1000, 4⟩]⟩,
      ⟨0x100c, [⟨.addImm, 0x100c, [2, 1, 7], none, 4⟩, ⟨.bl, 0x1010, [], some 0x3000, 4⟩]⟩]

/-- A cache with host code, which counts as tier 1. -/
def hosting : Cache :=
  let (handle, cache) := ({} : Cache).add (.host 0x3000 "sum" [] (.probe (.const 0)))
  (cache.publish 0x3000 handle 0).2

theorem calls_exact_revisiting : ∃ build,
    ({ liveIn := fun _ => ⟨0x2, 0⟩ } : Builder).build hosting.holdsTier1 0x1000 revisiting .tier1 "Sub" = .ok build ∧
      build.subroutine.callees = [0x1000, 0x3000] ∧ build.subroutine.linksTo 0x3000 = true ∧
      build.subroutine.linksTo 0x1000 = false ∧
      ∃ function, build.subroutine.code = .compiled function ∧ (∃ dst, .call dst 0x3000 ∈ function.ops.toList) ∧
        (∀ dst, .call dst 0x1000 ∉ function.ops.toList) ∧
        ∃ slot, function.Keeps (.int 2) slot ∧
          ∀ front dst back, function.ops.toList = front ++ .call dst 0x3000 :: back →
            .storeRegister (.int 2) slot ∈ front ∧ .loadRegister slot (.int 2) ∈ back := by
  have ran : (({ liveIn := fun _ => ⟨0x2, 0⟩ } : Builder).build hosting.holdsTier1 0x1000 revisiting .tier1 "Sub").map
      (fun build => (build.subroutine.callees, build.subroutine.linksTo 0x3000, build.subroutine.linksTo 0x1000)) =
        .ok ([0x1000, 0x3000], true, false) := by cbv
  cases made : ({ liveIn := fun _ => ⟨0x2, 0⟩ } : Builder).build hosting.holdsTier1 0x1000 revisiting .tier1 "Sub" with
  | error cause =>
    rw [made] at ran
    cases ran
  | ok build =>
    rw [made] at ran
    obtain ⟨callees, linked, unlinked⟩ : build.subroutine.callees = [0x1000, 0x3000] ∧
        build.subroutine.linksTo 0x3000 = true ∧ build.subroutine.linksTo 0x1000 = false := by
      simpa [Except.map] using ran
    obtain ⟨_, _, _, function, held, code, _, _, keeps, uses, calls, around⟩ := calls_exact made
    obtain ⟨slot, member⟩ := uses (.int 2) (.inr ⟨⟨.addImm, 0x100c, [2, 1, 7], none, 4⟩, by decide, by decide⟩)
    refine ⟨build, rfl, callees, linked, unlinked, function, code, (calls 0x3000).mpr linked, fun dst again => ?_, slot,
      (keeps _ _).mp member, fun front dst back split => ?_⟩
    · exact absurd ((calls 0x1000).mp ⟨dst, again⟩) (by simp [unlinked])
    · obtain ⟨stores, loads⟩ := around front dst 0x3000 back split
      exact ⟨stores.subset (List.mem_map_of_mem member), loads.subset (List.mem_map_of_mem member)⟩

end Builder
end Dynarec
