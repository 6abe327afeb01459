import Dynarec.Proofs.Guest.Closure

/-!
Programs with some of their instructions taken away. Where no row of instructions runs on into what is taken away, every
graph is what it was that has no block there.
-/
namespace Dynarec.Guest
namespace Program

/-- The program without what is scripted at the addresses that are gone. -/
def without (program : Program) (gone : UInt64 → Bool) : Program :=
  ⟨program.table.filter fun address _ => !gone address⟩

/-- No row of instructions runs on into one at an address that is gone. -/
def Skirts (program : Program) (gone : UInt64 → Bool) : Prop :=
  ∀ address instruction, program.at? address = some instruction → instruction.endsBlock = false →
    gone instruction.next = true → program.at? instruction.next = none

variable {program : Program} {gone known : UInt64 → Bool} {address : UInt64}

theorem at?_without (program : Program) (gone : UInt64 → Bool) (address : UInt64) :
    (program.without gone).at? address = if gone address then none else program.at? address := by
  unfold without at?
  rw [Std.TreeMap.getElem?_filter]
  simp only [Std.TreeMap.getKey_eq, Option.pfilter_eq_filter]
  cases gone address <;> cases program.table[address]? <;> rfl

theorem at?_without_of_stays (stays : gone address = false) : (program.without gone).at? address = program.at? address := by
  rw [at?_without, stays]
  rfl

theorem at?_of_without {instruction : Instruction} (there : (program.without gone).at? address = some instruction) :
    gone address = false ∧ program.at? address = some instruction := by
  rw [at?_without] at there
  split at there
  · cases there
  · next stays => exact ⟨by simpa using stays, there⟩

theorem contains_without : (program.without gone).contains address = (program.contains address && !gone address) := by
  rw [Bool.eq_iff_iff, contains_iff, Bool.and_eq_true, contains_iff, at?_without]
  cases gone address <;> simp

/-- Rows of instructions come to an end no later. -/
theorem Ends.without (ends : program.Ends) (gone : UInt64 → Bool) : (program.without gone).Ends := by
  intro address
  obtain ⟨_, scan⟩ := ends address
  induction scan with
  | @gap address nothing => exact ⟨[], .gap (by rw [at?_without, nothing, ite_self])⟩
  | @last address instruction there last =>
    cases past : gone address with
    | true => exact ⟨[], .gap (by rw [at?_without, if_pos past])⟩
    | false => exact ⟨_, .last ((at?_without_of_stays past).trans there) last⟩
  | @goesOn address instruction _ there sequential _ ih =>
    obtain ⟨_, later⟩ := ih
    cases past : gone address with
    | true => exact ⟨[], .gap (by rw [at?_without, if_pos past])⟩
    | false => exact ⟨_, .goesOn ((at?_without_of_stays past).trans there) sequential later⟩

/-- A scan from an address that stays does not come to one that is gone. -/
theorem Scan.without (skirts : program.Skirts gone) {instructions : List Instruction}
    (scan : program.Scan address instructions) (stays : gone address = false ∨ program.at? address = none) :
    (program.without gone).Scan address instructions := by
  have same : (program.without gone).at? address = program.at? address := by
    rw [at?_without]
    rcases stays with stays | nothing
    · rw [stays, if_neg Bool.false_ne_true]
    · rw [nothing, ite_self]
  induction scan with
  | gap nothing => exact .gap (same.trans nothing)
  | last there ends => exact .last (same.trans there) ends
  | @goesOn address instruction rest there sequential _ ih =>
    have behind : gone instruction.next = false ∨ program.at? instruction.next = none := by
      cases past : gone instruction.next with
      | false => exact .inl rfl
      | true => exact .inr (skirts address instruction there sequential past)
    refine .goesOn (same.trans there) sequential (ih behind ?_)
    rw [at?_without]
    rcases behind with stays | nothing
    · rw [stays, if_neg Bool.false_ne_true]
    · rw [nothing, ite_self]

/-- Where control came to all starts before, it comes to them still. -/
theorem Explores.without (skirts : program.Skirts gone) {waiting seen : List UInt64} {blocks : List Block}
    (explores : program.Explores known waiting seen blocks)
    (stay : ∀ block ∈ blocks, gone block.address = false) : (program.without gone).Explores known waiting seen blocks := by
  induction explores with
  | done => exact .done
  | @visit start waiting seen instructions later scan nonempty further ih =>
    obtain ⟨kept, others⟩ := List.forall_mem_cons.mp stay
    have same : (program.without gone).fresh known seen ⟨start, instructions⟩ =
        program.fresh known seen ⟨start, instructions⟩ := by
      unfold fresh
      refine congrArg List.eraseDups (List.filter_congr fun next successor => ?_)
      rw [contains_without]
      cases past : gone next with
      | false => simp
      | true =>
        -- it would have been found, and have a block
        by_contra found
        have fresh : next ∈ program.fresh known seen ⟨start, instructions⟩ := by
          rw [mem_fresh]
          refine ⟨successor, ?_⟩
          simpa using found
        have visited := further.complete.1 next (List.mem_append_right _ fresh)
        obtain ⟨block, member, rfl⟩ := List.mem_map.mp visited
        cases past.symm.trans (others block member)
    refine .visit (scan.without skirts (.inl kept)) nonempty ?_
    rw [same]
    exact ih others

theorem Explores.unique {waiting seen : List UInt64} {left right : List Block}
    (explores : program.Explores known waiting seen left) (other : program.Explores known waiting seen right) :
    left = right := by
  induction explores generalizing right with
  | done =>
    cases other
    rfl
  | visit scan _ _ ih =>
    cases other with
    | visit scanToo _ further =>
      cases scan.unique scanToo
      rw [ih further]

theorem graph_without (ends : program.Ends) (skirts : program.Skirts gone) {graph : Graph}
    (found : program.graph known address = .ok graph) (stay : ∀ block ∈ graph.blocks, gone block.address = false) :
    (program.without gone).graph known address = .ok graph := by
  have explores := ends.explores_graph found
  have isGraph := isGraph_graph found
  obtain ⟨first, member, scripted⟩ := isGraph.first
  have here := (run_of_block scripted).1
  have contains : (program.without gone).contains address = true := by
    rw [contains_without, contains_of_block scripted, ← here, stay first member]
    rfl
  obtain ⟨other, foundToo⟩ : ∃ other, (program.without gone).graph known address = .ok other := graph_ok contains
  have same := (explores.without skirts stay).unique ((ends.without gone).explores_graph foundToo)
  obtain ⟨_⟩ := graph
  obtain ⟨_⟩ := other
  cases same
  exact foundToo

/-- But for the entry, no block of a graph starts at an address that is known. -/
theorem unknown_of_graph (ends : program.Ends) {graph : Graph} (found : program.graph known address = .ok graph) :
    ∀ block ∈ graph.blocks, block.address = address ∨ known block.address = false := by
  intro block member
  have closed : program.Closed known address {start | start = address ∨ known start = false} :=
    ⟨.inl rfl, fun _ _ _ _ _ _ _ unknown => .inr unknown⟩
  exact (ends.explores_graph found).isLeast.2 closed (List.mem_map.mpr ⟨block, member, rfl⟩)

/-- A block by itself is the graph of its address where all others are known. -/
theorem graph_known {block : Block} (found : program.block address = .ok block) :
    program.graph (fun _ => true) address = .ok (.single block) := by
  have alone : ∀ bound seen, program.explore (fun _ => true) bound [] seen = .ok [] := by
    intro bound seen
    cases bound <;> rfl
  unfold Program.graph
  rw [explore, found]
  simp [bind, Except.bind, pure, Except.pure, alone, Graph.single, Except.map]

end Program
end Dynarec.Guest
