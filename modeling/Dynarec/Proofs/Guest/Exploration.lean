import Dynarec.Guest.Program
import Dynarec.Proofs.Effect
import Mathlib.Data.Set.Finite.List

/-!
The graphs of a program. All blocks of a graph are blocks of the program at distinct addresses that control can
come to from the entry, which is the first of them.
-/
namespace Dynarec.Guest
namespace Program

variable {program : Program}

/-- Control can come to an address by the blocks from `origin` on. -/
inductive Reaches (program : Program) (origin : UInt64) : UInt64 → Prop
  | refl : Reaches program origin origin
  | step {address next : UInt64} {block : Block} : Reaches program origin address →
      program.block address = .ok block → next ∈ block.successors → Reaches program origin next

theorem Reaches.trans {first second third : UInt64} (left : program.Reaches first second)
    (right : program.Reaches second third) : program.Reaches first third := by
  induction right with
  | refl => exact left
  | step _ block leads ih => exact ih.step block leads

theorem run_of_block {address : UInt64} {block : Block} (found : program.block address = .ok block) :
    block.address = address ∧ block.instructions = program.run program.size address ∧ block.instructions ≠ [] := by
  unfold Program.block at found
  cases instructions : program.run program.size address with
  | nil => simp [instructions] at found
  | cons first rest =>
    simp only [instructions, Except.ok.injEq] at found
    subst found
    exact ⟨rfl, rfl, by simp⟩

theorem contains_iff {address : UInt64} :
    program.contains address = true ↔ ∃ instruction, program.at? address = some instruction := by
  unfold Program.contains
  rw [Std.TreeMap.contains_eq_isSome_getElem?]
  exact Option.isSome_iff_exists

/-- A block starts at an instruction. -/
theorem contains_of_block {address : UInt64} {block : Block} (found : program.block address = .ok block) :
    program.contains address = true := by
  obtain ⟨_, instructions, nonempty⟩ := run_of_block found
  rw [instructions] at nonempty
  rw [contains_iff]
  cases size : program.size with
  | zero => simp [size, run] at nonempty
  | succ bound =>
    rw [size, run] at nonempty
    cases there : program.at? address with
    | none => simp [there] at nonempty
    | some instruction => exact ⟨instruction, rfl⟩

theorem block_ok {address : UInt64} (scripted : program.contains address = true) :
    ∃ block, program.block address = .ok block := by
  obtain ⟨instruction, there⟩ := contains_iff.mp scripted
  have size : program.size ≠ 0 := by
    intro empty
    have none : program.table.isEmpty = true := by
      rw [Std.TreeMap.isEmpty_eq_size_eq_zero]
      exact beq_iff_eq.mpr empty
    have absent := Std.TreeMap.contains_of_isEmpty (a := address) none
    rw [Program.contains, absent] at scripted
    cases scripted
  obtain ⟨bound, some⟩ := Nat.exists_eq_succ_of_ne_zero size
  unfold Program.block
  rw [some, run, there]
  dsimp only
  cases instruction.endsBlock with
  | true => exact ⟨_, rfl⟩
  | false => exact ⟨_, rfl⟩

/-- There is no block where nothing is scripted. -/
theorem block_error {address : UInt64} (unscripted : program.at? address = none) :
    program.block address = .error (.decode address "no instruction scripted") := by
  have none : program.run program.size address = [] := by
    cases program.size with
    | zero => rfl
    | succ bound => rw [run, unscripted]
  unfold Program.block
  rw [none]

/-- What is explored from an address on is its block and what is explored behind it. -/
theorem explore_cons {known : UInt64 → Bool} {bound : Nat} {address : UInt64} {waiting seen : List UInt64}
    {blocks : List Block} (found : program.explore known (bound + 1) (address :: waiting) seen = .ok blocks) :
    ∃ block rest, program.block address = .ok block ∧ blocks = block :: rest ∧
      let new := (block.successors.filter fun next =>
        program.contains next && !known next && !seen.contains next).eraseDups
      program.explore known bound (waiting ++ new) (new ++ seen) = .ok rest := by
  obtain ⟨block, decoded, later⟩ := Effect.of_bind found
  obtain ⟨rest, explored, same⟩ := Effect.of_bind later
  cases same
  exact ⟨block, rest, decoded, rfl, explored⟩

theorem mem_new {known : UInt64 → Bool} {block : Block} {seen : List UInt64} {next : UInt64} :
    next ∈ (block.successors.filter fun next =>
        program.contains next && !known next && !seen.contains next).eraseDups ↔
      next ∈ block.successors ∧ program.contains next = true ∧ known next = false ∧ next ∉ seen := by
  simp [List.mem_eraseDups, and_assoc]

/-- Only scripted addresses are added to those that wait. -/
theorem explore_ok {known : UInt64 → Bool} (bound : Nat) {waiting : List UInt64} (seen : List UInt64)
    (scripted : ∀ address ∈ waiting, program.contains address = true) :
    ∃ blocks, program.explore known bound waiting seen = .ok blocks := by
  induction bound generalizing waiting seen with
  | zero => exact ⟨[], rfl⟩
  | succ bound ih =>
    cases waiting with
    | nil => exact ⟨[], rfl⟩
    | cons address waiting =>
      obtain ⟨block, decoded⟩ := block_ok (scripted address (by simp))
      let new := (block.successors.filter fun next =>
        program.contains next && !known next && !seen.contains next).eraseDups
      have later : ∀ next ∈ waiting ++ new, program.contains next = true := by
        intro next member
        rcases List.mem_append.mp member with already | added
        · exact scripted next (by simp [already])
        · exact (mem_new.mp added).2.1
      obtain ⟨rest, explored⟩ := ih (new ++ seen) later
      refine ⟨block :: rest, ?_⟩
      rw [explore, decoded]
      change (program.explore known bound (waiting ++ new) (new ++ seen) >>= fun rest => .ok (block :: rest)) = _
      rw [explored]
      rfl

theorem graph_ok {known : UInt64 → Bool} {address : UInt64} (scripted : program.contains address = true) :
    ∃ graph, program.graph known address = .ok graph := by
  obtain ⟨blocks, explored⟩ : ∃ blocks, program.explore known (program.size + 1) [address] [address] = .ok blocks :=
    explore_ok _ _ (by simpa using scripted)
  refine ⟨⟨blocks⟩, ?_⟩
  unfold Program.graph
  rw [explored]
  rfl

theorem nodup_eraseDups (addresses : List UInt64) : addresses.eraseDups.Nodup := by
  induction size : addresses.length using Nat.strong_induction_on generalizing addresses with
  | _ length ih =>
    cases addresses with
    | nil => simp
    | cons address rest =>
      have shorter : (rest.filter fun other => !other == address).length < length := by
        have filtered := List.length_filter_le (fun other => !other == address) rest
        rw [List.length_cons] at size
        omega
      rw [List.eraseDups_cons, List.nodup_cons]
      exact ⟨by simp [List.mem_eraseDups], ih _ shorter _ rfl⟩

theorem explored {known : UInt64 → Bool} {bound : Nat} {waiting seen : List UInt64} {blocks : List Block}
    (found : program.explore known bound waiting seen = .ok blocks) :
    ∀ block ∈ blocks, program.block block.address = .ok block ∧
      ∃ origin ∈ waiting, program.Reaches origin block.address := by
  induction bound generalizing waiting seen blocks with
  | zero =>
    cases found
    simp
  | succ bound ih =>
    cases waiting with
    | nil =>
      cases found
      simp
    | cons address waiting =>
      obtain ⟨first, rest, decoded, rfl, later⟩ := explore_cons found
      have here := (run_of_block decoded).1
      intro block member
      rcases List.mem_cons.mp member with rfl | behind
      · exact ⟨by rw [here]; exact decoded, address, by simp, by rw [here]; exact .refl⟩
      · obtain ⟨own, origin, waits, reaches⟩ := ih later block behind
        refine ⟨own, ?_⟩
        rcases List.mem_append.mp waits with already | new
        · exact ⟨origin, by simp [already], reaches⟩
        · have leads := (mem_new.mp new).1
          exact ⟨address, by simp, (Reaches.refl.step decoded leads).trans reaches⟩

/-- No address is explored twice: what waits has been seen, and only once. -/
theorem explored_nodup {known : UInt64 → Bool} {bound : Nat} {waiting seen : List UInt64} {blocks : List Block}
    (found : program.explore known bound waiting seen = .ok blocks) (once : waiting.Nodup)
    (noted : ∀ address ∈ waiting, address ∈ seen) :
    (blocks.map Block.address).Nodup ∧ ∀ block ∈ blocks, block.address ∈ waiting ∨ block.address ∉ seen := by
  induction bound generalizing waiting seen blocks with
  | zero =>
    cases found
    simp
  | succ bound ih =>
    cases waiting with
    | nil =>
      cases found
      simp
    | cons address waiting =>
      obtain ⟨first, rest, decoded, rfl, later⟩ := explore_cons found
      have here := (run_of_block decoded).1
      obtain ⟨absent, others⟩ := List.nodup_cons.mp once
      have apart : ∀ next ∈ waiting, ∀ new ∈ (first.successors.filter fun next =>
          program.contains next && !known next && !seen.contains next).eraseDups, next ≠ new := by
        rintro next waits _ new rfl
        exact (mem_new.mp new).2.2.2 (noted next (by simp [waits]))
      obtain ⟨distinct, places⟩ := ih later (List.nodup_append.mpr ⟨others, nodup_eraseDups _, apart⟩) (by
        intro next member
        rcases List.mem_append.mp member with already | new
        · exact List.mem_append_right _ (noted next (by simp [already]))
        · exact List.mem_append_left _ new)
      have seenHere : address ∈ seen := noted address (by simp)
      refine ⟨?_, ?_⟩
      · rw [List.map_cons, List.nodup_cons, here]
        refine ⟨?_, distinct⟩
        intro again
        obtain ⟨block, member, same⟩ := List.mem_map.mp again
        rcases places block member with waits | unseen
        · rw [same] at waits
          rcases List.mem_append.mp waits with already | new
          · exact absent already
          · exact (mem_new.mp new).2.2.2 seenHere
        · rw [same] at unseen
          exact unseen (List.mem_append_right _ seenHere)
      · intro block member
        rcases List.mem_cons.mp member with rfl | behind
        · exact .inl (by simp [here])
        · rcases places block behind with waits | unseen
          · rcases List.mem_append.mp waits with already | new
            · exact .inl (by simp [already])
            · exact .inr (mem_new.mp new).2.2.2
          · exact .inr fun inside => unseen (List.mem_append_right _ inside)

/-- What the graph of an address is. -/
structure IsGraph (program : Program) (address : UInt64) (graph : Graph) : Prop where
  entry : graph.entry? = some address
  distinct : (graph.blocks.map Block.address).Nodup
  blocks : ∀ block ∈ graph.blocks, program.block block.address = .ok block
  reached : ∀ block ∈ graph.blocks, program.Reaches address block.address

theorem IsGraph.first {address : UInt64} {graph : Graph} (isGraph : program.IsGraph address graph) :
    ∃ block ∈ graph.blocks, program.block address = .ok block := by
  obtain ⟨block, head, rfl⟩ := Option.map_eq_some_iff.mp isGraph.entry
  have member := List.mem_of_mem_head? head
  exact ⟨block, member, isGraph.blocks block member⟩

theorem IsGraph.contains {address : UInt64} {graph : Graph} (isGraph : program.IsGraph address graph) :
    graph.contains address = true := by
  obtain ⟨block, head, rfl⟩ := Option.map_eq_some_iff.mp isGraph.entry
  exact List.any_eq_true.mpr ⟨block, List.mem_of_mem_head? head, beq_self_eq_true _⟩

theorem isGraph_graph {known : UInt64 → Bool} {address : UInt64} {graph : Graph}
    (found : program.graph known address = .ok graph) : program.IsGraph address graph := by
  unfold Program.graph at found
  cases ran : program.explore known (program.size + 1) [address] [address] with
  | error cause => simp [ran, Except.map] at found
  | ok blocks =>
    simp only [ran, Except.map, Except.ok.injEq] at found
    subst found
    obtain ⟨first, rest, decoded, rfl, _⟩ := explore_cons ran
    refine ⟨?_, (explored_nodup ran (by simp) (by simp)).1, fun block member => (explored ran block member).1, ?_⟩
    · simp [Graph.entry?, (run_of_block decoded).1]
    · intro block member
      obtain ⟨_, origin, waits, reaches⟩ := explored ran block member
      rwa [List.mem_singleton.mp waits] at reaches

theorem isGraph_single {address : UInt64} {block : Block} (found : program.block address = .ok block) :
    program.IsGraph address (.single block) := by
  have here := (run_of_block found).1
  refine ⟨by simp [Graph.entry?, Graph.single, here], by simp [Graph.single], ?_, ?_⟩
  · intro other member
    obtain rfl := List.mem_singleton.mp member
    rwa [here]
  · intro other member
    obtain rfl := List.mem_singleton.mp member
    rw [here]
    exact .refl

theorem at?_of_mem_run {bound : Nat} {address : UInt64} {instruction : Instruction}
    (member : instruction ∈ program.run bound address) : ∃ place, program.at? place = some instruction := by
  induction bound generalizing address with
  | zero => cases member
  | succ bound ih =>
    unfold run at member
    split at member
    · cases member
    · next first found =>
      split at member
      · obtain rfl := List.mem_singleton.mp member
        exact ⟨address, found⟩
      · rcases List.mem_cons.mp member with rfl | later
        · exact ⟨address, found⟩
        · exact ih later

/-- Instructions in a row are sequential but for the last. -/
theorem sequential_of_mem_dropLast {bound : Nat} {address : UInt64} {instruction : Instruction}
    (member : instruction ∈ (program.run bound address).dropLast) : instruction.endsBlock = false := by
  induction bound generalizing address with
  | zero => cases member
  | succ bound ih =>
    unfold run at member
    split at member
    · cases member
    · next first found =>
      split at member
      · cases member
      · next goesOn =>
        cases rest : program.run bound first.next with
        | nil =>
          rw [rest] at member
          cases member
        | cons second later =>
          rw [rest, List.dropLast_cons_of_ne_nil (by simp), ← rest] at member
          rcases List.mem_cons.mp member with rfl | behind
          · simpa using goesOn
          · exact ih behind

theorem straight_of_block (named : ∀ address instruction, program.at? address = some instruction → instruction.Named)
    {address : UInt64} {block : Block} (found : program.block address = .ok block) : block.Straight := by
  obtain ⟨_, instructions, nonempty⟩ := run_of_block found
  refine ⟨nonempty, ?_, ?_⟩
  · rw [instructions]
    exact fun _ => sequential_of_mem_dropLast
  · intro instruction member
    rw [instructions] at member
    obtain ⟨place, there⟩ := at?_of_mem_run member
    exact named place instruction there

theorem IsGraph.sound (named : ∀ address instruction, program.at? address = some instruction → instruction.Named)
    {address : UInt64} {graph : Graph} (isGraph : program.IsGraph address graph) : graph.Sound := by
  obtain ⟨block, member, _⟩ := isGraph.first
  exact ⟨List.ne_nil_of_mem member, isGraph.distinct, fun block member =>
    straight_of_block named (isGraph.blocks block member)⟩

/-- A call of code that returns at once. -/
def calling : Program := .ofList [⟨.bl, 0x1000, [], some 0x2000, 4⟩, ⟨.ret, 0x2000, [], none, 4⟩]

theorem at?_calling (address : UInt64) : calling.at? address =
    if 0x2000 = address then some ⟨.ret, 0x2000, [], none, 4⟩
    else if 0x1000 = address then some ⟨.bl, 0x1000, [], some 0x2000, 4⟩ else none := by
  simp [calling, ofList, at?, Std.TreeMap.getElem?_insert]

theorem size_calling : calling.size = 2 := by
  simp [calling, ofList, size, Std.TreeMap.size_insert]

theorem block_calling : calling.block 0x1000 = .ok ⟨0x1000, [⟨.bl, 0x1000, [], some 0x2000, 4⟩]⟩ ∧
    calling.block 0x2000 = .ok ⟨0x2000, [⟨.ret, 0x2000, [], none, 4⟩]⟩ := by
  simp [block, run, size_calling, at?_calling, Instruction.endsBlock, Form.flow, Flow.endsBlock]

theorem graph_calling (known : UInt64 → Bool) :
    calling.graph known 0x1000 = .ok (.single ⟨0x1000, [⟨.bl, 0x1000, [], some 0x2000, 4⟩]⟩) ∧
      calling.graph known 0x2000 = .ok (.single ⟨0x2000, [⟨.ret, 0x2000, [], none, 4⟩]⟩) := by
  have outside : calling.contains 0x1004 = false := by
    simp [contains, calling, ofList]
  constructor <;> simp [graph, explore, size_calling, block_calling, Block.successors, Instruction.successors, Form.flow,
    Instruction.next, outside, Graph.single, bind, Except.bind, pure, Except.pure, Except.map]

/-- A call of code that returns at once, and behind it one way on and one way out. -/
def roaming : Program := .ofList [
  ⟨.bl, 0x1000, [], some 0x2000, 4⟩, ⟨.b, 0x1004, [], some 0x3000, 4⟩,
  ⟨.ret, 0x2000, [], none, 4⟩,
  ⟨.cbnz, 0x3000, [2], some 0x4000, 4⟩, ⟨.movz, 0x3004, [30, 0], none, 4⟩, ⟨.ret, 0x3008, [], none, 4⟩,
  ⟨.ret, 0x4000, [], none, 4⟩]

end Program
end Dynarec.Guest
