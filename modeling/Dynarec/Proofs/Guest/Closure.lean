import Dynarec.Proofs.Guest.Exploration
import Mathlib.Data.Finset.Card
import Mathlib.Order.Bounds.Defs

/-!
Graphs of a program, told without bounds. Where instructions take up space below the top of the address space a scan
goes up, so that it comes to an end; exploration comes to one because no address waits twice. The graph of an address
has the least set of blocks that holds the entry and all that its blocks lead to, but for addresses known elsewhere.
-/
namespace Dynarec.Guest
namespace Program

/-- The instructions in a row from an address on, up to the first that transfers control or up to the first gap. -/
inductive Scan (program : Program) : UInt64 → List Instruction → Prop
  | gap {address : UInt64} : program.at? address = none → Scan program address []
  | last {address : UInt64} {instruction : Instruction} : program.at? address = some instruction →
      instruction.endsBlock = true → Scan program address [instruction]
  | goesOn {address : UInt64} {instruction : Instruction} {rest : List Instruction} :
      program.at? address = some instruction → instruction.endsBlock = false → Scan program instruction.next rest →
        Scan program address (instruction :: rest)

/-- The successors of a block that are scripted, not known elsewhere and not seen so far, each once. -/
def fresh (program : Program) (known : UInt64 → Bool) (seen : List UInt64) (block : Block) : List UInt64 :=
  (block.successors.filter fun next => program.contains next && !known next && !seen.contains next).eraseDups

/-- The blocks found from the addresses that wait, first come first served, where some addresses have been seen. -/
inductive Explores (program : Program) (known : UInt64 → Bool) : List UInt64 → List UInt64 → List Block → Prop
  | done {seen : List UInt64} : Explores program known [] seen []
  | visit {start : UInt64} {waiting seen : List UInt64} {instructions : List Instruction} {later : List Block} :
      program.Scan start instructions → instructions ≠ [] →
        Explores program known (waiting ++ program.fresh known seen ⟨start, instructions⟩)
          (program.fresh known seen ⟨start, instructions⟩ ++ seen) later →
            Explores program known (start :: waiting) seen (⟨start, instructions⟩ :: later)

/-- The entry is one of the starts, and each start leads to others alone, to unscripted addresses or to known ones. -/
structure Closed (program : Program) (known : UInt64 → Bool) (entry : UInt64) (starts : Set UInt64) : Prop where
  entry : entry ∈ starts
  successors : ∀ start ∈ starts, ∀ instructions, program.Scan start instructions →
    ∀ next ∈ Block.successors ⟨start, instructions⟩, program.contains next = true → known next = false →
      next ∈ starts

/-- Every row of instructions comes to an end. -/
def Ends (program : Program) : Prop := ∀ address, ∃ instructions, program.Scan address instructions

/-- Instructions stand at their own addresses, take up space, and end below the top of the address space. -/
structure Climbs (program : Program) : Prop where
  placed : ∀ address instruction, program.at? address = some instruction → instruction.address = address
  sized : ∀ address instruction, program.at? address = some instruction → instruction.size ≠ 0
  below : ∀ address instruction, program.at? address = some instruction →
    address.toNat + instruction.size.toNat < 2 ^ 64

variable {program : Program} {known : UInt64 → Bool}

/-- What a list has at an address is an instruction of the list, at its own address. -/
theorem of_at?_ofList {instructions : List Instruction} {address : UInt64} {instruction : Instruction}
    (there : (ofList instructions).at? address = some instruction) :
    instruction ∈ instructions ∧ instruction.address = address := by
  have grow : ∀ (rest : List Instruction) (table : Std.TreeMap UInt64 Instruction),
      (∀ address instruction, table[address]? = some instruction →
        instruction ∈ instructions ∧ instruction.address = address) → (∀ next ∈ rest, next ∈ instructions) →
          ∀ address instruction, (rest.foldl (fun table next => table.insert next.address next) table)[address]? =
            some instruction → instruction ∈ instructions ∧ instruction.address = address := by
    intro rest
    induction rest with
    | nil => exact fun table placed _ => placed
    | cons first rest ih =>
      intro table placed inside
      obtain ⟨member, others⟩ := List.forall_mem_cons.mp inside
      refine ih _ (fun other found at? => ?_) others
      rw [Std.TreeMap.getElem?_insert] at at?
      split at at?
      · next here =>
        cases at?
        exact ⟨member, Std.LawfulEqCmp.eq_of_compare here⟩
      · exact placed other found at?
  exact grow instructions ∅ (by simp) (fun _ member => member) address instruction there

/-- A list of instructions that take up space below the top makes up a program that climbs. -/
theorem climbs_ofList {instructions : List Instruction} (sized : ∀ instruction ∈ instructions, instruction.size ≠ 0)
    (below : ∀ instruction ∈ instructions, instruction.address.toNat + instruction.size.toNat < 2 ^ 64) :
    (ofList instructions).Climbs where
  placed _ _ there := (of_at?_ofList there).2
  sized _ instruction there := sized instruction (of_at?_ofList there).1
  below _ instruction there := by
    obtain ⟨member, rfl⟩ := of_at?_ofList there
    exact below instruction member

theorem Climbs.next_gt (climbs : program.Climbs) {address : UInt64} {instruction : Instruction}
    (there : program.at? address = some instruction) : address < instruction.next := by
  have placed := climbs.placed _ _ there
  have below := climbs.below _ _ there
  have sized : instruction.size.toNat ≠ 0 := fun zero =>
    climbs.sized _ _ there (UInt32.toNat_inj.mp zero)
  rw [UInt64.lt_iff_toNat_lt, Instruction.next, placed, UInt64.toNat_add, UInt32.toNat_toUInt64,
    Nat.mod_eq_of_lt below]
  omega

/-- The scripted addresses. -/
def addresses (program : Program) : Finset UInt64 := program.table.keys.toFinset

theorem mem_addresses {address : UInt64} : address ∈ program.addresses ↔ program.contains address = true := by
  rw [addresses, List.mem_toFinset, Std.TreeMap.mem_keys]
  exact Std.TreeMap.contains_iff_mem.symm

theorem card_addresses_le (program : Program) : program.addresses.card ≤ program.size := by
  rw [size, ← Std.TreeMap.length_keys]
  exact List.toFinset_card_le _

theorem contains_of_at? {address : UInt64} {instruction : Instruction}
    (there : program.at? address = some instruction) : program.contains address = true :=
  contains_iff.mpr ⟨instruction, there⟩

/-- A scan comes to its end within as many instructions as stand further up. -/
theorem Climbs.scan_run (climbs : program.Climbs) (bound : Nat) (address : UInt64)
    (enough : (program.addresses.filter (address ≤ ·)).card ≤ bound) :
    program.Scan address (program.run bound address) := by
  induction bound generalizing address with
  | zero =>
    refine .gap (Option.eq_none_iff_forall_not_mem.mpr fun instruction there => ?_)
    have none := Finset.card_eq_zero.mp (Nat.le_zero.mp enough)
    have here : address ∈ program.addresses.filter (address ≤ ·) :=
      Finset.mem_filter.mpr ⟨mem_addresses.mpr (contains_of_at? there), UInt64.le_refl _⟩
    simp [none] at here
  | succ bound ih =>
    rw [run]
    cases there : program.at? address with
    | none => exact .gap there
    | some instruction =>
      dsimp only
      cases ends : instruction.endsBlock with
      | true => exact .last there ends
      | false =>
        have further := climbs.next_gt there
        have fewer : program.addresses.filter (instruction.next ≤ ·) ⊂ program.addresses.filter (address ≤ ·) := by
          refine Finset.ssubset_iff_subset_ne.mpr ⟨?_, fun same => ?_⟩
          · intro other member
            obtain ⟨scripted, beyond⟩ := Finset.mem_filter.mp member
            exact Finset.mem_filter.mpr ⟨scripted, UInt64.le_of_lt (UInt64.lt_of_lt_of_le further beyond)⟩
          · have here : address ∈ program.addresses.filter (instruction.next ≤ ·) := by
              rw [same]
              exact Finset.mem_filter.mpr ⟨mem_addresses.mpr (contains_of_at? there), UInt64.le_refl _⟩
            exact absurd (Finset.mem_filter.mp here).2 (UInt64.not_le.mpr further)
        have less := Finset.card_lt_card fewer
        exact .goesOn there ends (ih instruction.next (by omega))

/-- One scan alone starts at an address. -/
theorem Scan.unique {address : UInt64} {left right : List Instruction} (scan : program.Scan address left)
    (other : program.Scan address right) : left = right := by
  induction scan generalizing right with
  | gap nothing =>
    cases other with
    | gap => rfl
    | last there | goesOn there => cases nothing.symm.trans there
  | last there ends =>
    cases other with
    | gap nothing => cases nothing.symm.trans there
    | last same =>
      cases there.symm.trans same
      rfl
    | goesOn same sequential =>
      cases there.symm.trans same
      cases ends.symm.trans sequential
  | goesOn there sequential _ ih =>
    cases other with
    | gap nothing => cases nothing.symm.trans there
    | last same ends =>
      cases there.symm.trans same
      cases ends.symm.trans sequential
    | goesOn same _ rest =>
      cases there.symm.trans same
      rw [ih rest]

theorem Climbs.ends (climbs : program.Climbs) : program.Ends := fun address =>
  ⟨_, climbs.scan_run program.addresses.card address (Finset.card_filter_le program.addresses (address ≤ ·))⟩

/-- Within as many instructions as it holds a scan is run. -/
theorem Scan.run {address : UInt64} {instructions : List Instruction} (scan : program.Scan address instructions)
    {bound : Nat} (enough : instructions.length ≤ bound) : program.run bound address = instructions := by
  induction scan generalizing bound with
  | gap nothing =>
    cases bound with
    | zero => rfl
    | succ bound => rw [Program.run, nothing]
  | last there ends =>
    obtain ⟨bound, rfl⟩ := Nat.exists_eq_add_of_lt enough
    rw [Program.run, there]
    exact if_pos ends
  | goesOn there sequential _ ih =>
    rw [List.length_cons] at enough
    obtain ⟨bound, rfl⟩ := Nat.exists_eq_add_of_lt enough
    rw [Program.run, there]
    dsimp only
    rw [sequential, if_neg Bool.false_ne_true, ih (by omega)]

/-- The places of the instructions of a scan. None is passed twice, as a scan from there would come round to itself. -/
theorem Scan.places {address : UInt64} {instructions : List Instruction} (scan : program.Scan address instructions) :
    ∃ places : List UInt64, places.length = instructions.length ∧ places.Nodup ∧
      ∀ place ∈ places, place ∈ program.addresses ∧
        ∃ rest, program.Scan place rest ∧ rest.length ≤ instructions.length := by
  induction scan with
  | gap => exact ⟨[], rfl, List.nodup_nil, nofun⟩
  | @last address instruction there ends =>
    refine ⟨[address], rfl, List.nodup_singleton _, List.forall_mem_singleton.mpr ⟨?_, _, .last there ends, le_rfl⟩⟩
    exact mem_addresses.mpr (contains_of_at? there)
  | @goesOn address instruction rest there sequential scan ih =>
    obtain ⟨places, length, distinct, inside⟩ := ih
    have whole := Scan.goesOn there sequential scan
    refine ⟨address :: places, by simp [length], List.nodup_cons.mpr ⟨fun again => ?_, distinct⟩,
      List.forall_mem_cons.mpr ⟨⟨mem_addresses.mpr (contains_of_at? there), _, whole, le_rfl⟩, ?_⟩⟩
    · obtain ⟨_, shorter, scanToo, fewer⟩ := inside address again
      rw [scanToo.unique whole, List.length_cons] at fewer
      omega
    · intro place member
      obtain ⟨scripted, later, scanToo, fewer⟩ := inside place member
      exact ⟨scripted, later, scanToo, fewer.trans (Nat.le_succ _)⟩

/-- A scan holds no more instructions than the program. -/
theorem Scan.length_le {address : UInt64} {instructions : List Instruction} (scan : program.Scan address instructions) :
    instructions.length ≤ program.size := by
  obtain ⟨places, length, distinct, inside⟩ := scan.places
  have subset : places.toFinset ⊆ program.addresses := fun place member => (inside place (List.mem_toFinset.mp member)).1
  have fewer := (Finset.card_le_card subset).trans program.card_addresses_le
  rwa [List.toFinset_card_of_nodup distinct, length] at fewer

/-- The block at an address holds what is scanned there. -/
theorem Ends.scan_block (ends : program.Ends) {address : UInt64} {block : Block}
    (found : program.block address = .ok block) :
    block.address = address ∧ program.Scan address block.instructions ∧ block.instructions ≠ [] := by
  obtain ⟨here, instructions, nonempty⟩ := run_of_block found
  obtain ⟨scanned, scan⟩ := ends address
  rw [scan.run scan.length_le] at instructions
  exact ⟨here, instructions ▸ scan, nonempty⟩

theorem mem_fresh {seen : List UInt64} {block : Block} {next : UInt64} : next ∈ program.fresh known seen block ↔
    next ∈ block.successors ∧ program.contains next = true ∧ known next = false ∧ next ∉ seen := mem_new

/-- With what it adds to those that wait, a visit sees as many addresses that had not been seen. -/
theorem card_unseen_fresh (seen : List UInt64) (block : Block) :
    (program.addresses \ (program.fresh known seen block ++ seen).toFinset).card +
      (program.fresh known seen block).length = (program.addresses \ seen.toFinset).card := by
  have once : (program.fresh known seen block).Nodup := nodup_eraseDups _
  have inside : (program.fresh known seen block).toFinset ⊆ program.addresses \ seen.toFinset := by
    intro next member
    obtain ⟨_, scripted, _, unseen⟩ := mem_fresh.mp (List.mem_toFinset.mp member)
    exact Finset.mem_sdiff.mpr ⟨mem_addresses.mpr scripted, by rwa [List.mem_toFinset]⟩
  have parts : program.addresses \ (program.fresh known seen block ++ seen).toFinset =
      (program.addresses \ seen.toFinset) \ (program.fresh known seen block).toFinset := by
    rw [List.toFinset_append, Finset.union_comm, sdiff_sdiff_left]
    rfl
  rw [parts, ← List.toFinset_card_of_nodup once]
  exact Finset.card_sdiff_add_card_eq_card inside

/-- Exploration comes to its end within as many visits as there are addresses waiting or unseen. -/
theorem Ends.explores (ends : program.Ends) {bound : Nat} {waiting seen : List UInt64} {blocks : List Block}
    (found : program.explore known bound waiting seen = .ok blocks)
    (enough : waiting.length + (program.addresses \ seen.toFinset).card ≤ bound) :
    program.Explores known waiting seen blocks := by
  induction bound generalizing waiting seen blocks with
  | zero =>
    obtain rfl : waiting = [] := List.eq_nil_of_length_eq_zero (by omega)
    cases found
    exact .done
  | succ bound ih =>
    cases waiting with
    | nil =>
      cases found
      exact .done
    | cons start waiting =>
      obtain ⟨⟨here, instructions⟩, later, decoded, rfl, rest⟩ := explore_cons found
      obtain ⟨rfl, scan, nonempty⟩ := ends.scan_block decoded
      have balance := @card_unseen_fresh program known seen ⟨here, instructions⟩
      refine .visit scan nonempty (ih rest ?_)
      simp only [List.length_cons, List.length_append] at enough ⊢
      omega

theorem Explores.scans {waiting seen : List UInt64} {blocks : List Block}
    (explores : program.Explores known waiting seen blocks) :
    ∀ block ∈ blocks, program.Scan block.address block.instructions := by
  induction explores with
  | done => simp
  | visit scan _ _ ih => exact List.forall_mem_cons.mpr ⟨scan, ih⟩

/-- What waits is visited, and what is visited leads to what has been seen by then or is visited later. -/
theorem Explores.complete {waiting seen : List UInt64} {blocks : List Block}
    (explores : program.Explores known waiting seen blocks) :
    (∀ start ∈ waiting, start ∈ blocks.map Block.address) ∧
      ∀ block ∈ blocks, ∀ next ∈ block.successors, program.contains next = true → known next = false →
        next ∈ seen ∨ next ∈ blocks.map Block.address := by
  induction explores with
  | done => simp
  | @visit start waiting seen instructions later scan _ _ ih =>
    obtain ⟨visited, leads⟩ := ih
    rw [List.map_cons]
    refine ⟨List.forall_mem_cons.mpr ⟨List.mem_cons_self, fun other waits => ?_⟩, List.forall_mem_cons.mpr ⟨?_, ?_⟩⟩
    · exact List.mem_cons_of_mem _ (visited other (List.mem_append_left _ waits))
    · intro next successor scripted unknown
      by_cases before : next ∈ seen
      · exact .inl before
      · have new := mem_fresh.mpr ⟨successor, scripted, unknown, before⟩
        exact .inr (List.mem_cons_of_mem _ (visited next (List.mem_append_right _ new)))
    · intro block member next successor scripted unknown
      rcases leads block member next successor scripted unknown with noted | visitedLater
      · rcases List.mem_append.mp noted with new | before
        · exact .inr (List.mem_cons_of_mem _ (visited next (List.mem_append_right _ new)))
        · exact .inl before
      · exact .inr (List.mem_cons_of_mem _ visitedLater)

/-- Nothing is visited but what a closed set that holds those that wait holds too. -/
theorem Explores.inside {waiting seen : List UInt64} {blocks : List Block}
    (explores : program.Explores known waiting seen blocks) {entry : UInt64} {starts : Set UInt64}
    (closed : program.Closed known entry starts) (waits : ∀ start ∈ waiting, start ∈ starts) :
    ∀ start ∈ blocks.map Block.address, start ∈ starts := by
  induction explores with
  | done => simp
  | @visit start waiting seen instructions later scan _ _ ih =>
    obtain ⟨here, others⟩ := List.forall_mem_cons.mp waits
    rw [List.map_cons]
    refine List.forall_mem_cons.mpr ⟨here, ih fun next member => ?_⟩
    rcases List.mem_append.mp member with already | new
    · exact others next already
    · obtain ⟨successor, scripted, unknown, _⟩ := mem_fresh.mp new
      exact closed.successors start here instructions scan next successor scripted unknown

/-- From an entry on, the starts of the blocks that are found make up the least closed set. -/
theorem Explores.isLeast {entry : UInt64} {blocks : List Block}
    (explores : program.Explores known [entry] [entry] blocks) :
    IsLeast {starts | program.Closed known entry starts} {start | start ∈ blocks.map Block.address} := by
  obtain ⟨visited, leads⟩ := explores.complete
  have first : entry ∈ blocks.map Block.address := visited entry List.mem_cons_self
  refine ⟨⟨first, ?_⟩, ?_⟩
  · intro start member instructions scan next successor scripted unknown
    obtain ⟨block, inside, rfl⟩ := List.mem_map.mp member
    rw [scan.unique (explores.scans block inside)] at successor
    rcases leads block inside next successor scripted unknown with noted | later
    · rw [List.mem_singleton.mp noted]
      exact first
    · exact later
  · intro starts closed start member
    exact explores.inside closed (by simpa using closed.entry) start member

theorem Ends.explores_graph (ends : program.Ends) {address : UInt64} {graph : Graph}
    (found : program.graph known address = .ok graph) : program.Explores known [address] [address] graph.blocks := by
  unfold Program.graph at found
  cases ran : program.explore known (program.size + 1) [address] [address] with
  | error cause => simp [ran, Except.map] at found
  | ok blocks =>
    simp only [ran, Except.map, Except.ok.injEq] at found
    subst found
    refine ends.explores ran ?_
    have unseen := Finset.card_le_card (Finset.sdiff_subset (s := program.addresses) (t := [address].toFinset))
    have size := program.card_addresses_le
    rw [List.length_singleton]
    omega

/-- There is no graph where nothing is scripted. -/
theorem graph_error_iff {address : UInt64} {cause : TranslationError} :
    program.graph known address = .error cause ↔
      program.at? address = none ∧ cause = .decode address "no instruction scripted" := by
  cases there : program.at? address with
  | none =>
    have failed : program.graph known address = .error (.decode address "no instruction scripted") := by
      unfold Program.graph
      rw [explore, block_error there]
      rfl
    rw [failed]
    simp [eq_comm]
  | some instruction =>
    obtain ⟨graph, found⟩ : ∃ graph, program.graph known address = .ok graph := graph_ok (contains_of_at? there)
    simp [found]

/-- The graph of an address is what unbounded exploration comes to: the entry's block first, and no block but those that
control can statically come to. -/
theorem graph_isLeast (instructions : List Instruction)
    (sized : ∀ address instruction, (ofList instructions).at? address = some instruction → instruction.size ≠ 0)
    (below : ∀ address instruction, (ofList instructions).at? address = some instruction →
      address.toNat + instruction.size.toNat < 2 ^ 64) (known : UInt64 → Bool) (address : UInt64) :
    (∀ cause, (ofList instructions).graph known address = .error cause ↔
      (ofList instructions).at? address = none ∧ cause = .decode address "no instruction scripted") ∧
    ((ofList instructions).at? address ≠ none → ∃ graph, (ofList instructions).graph known address = .ok graph ∧
      (ofList instructions).Explores known [address] [address] graph.blocks ∧ graph.entry? = some address ∧
      (graph.blocks.map Block.address).Nodup ∧
      IsLeast {starts | (ofList instructions).Closed known address starts}
        {start | start ∈ graph.blocks.map Block.address} ∧
      ∀ block ∈ graph.blocks, (ofList instructions).Scan block.address block.instructions) := by
  have climbs : (ofList instructions).Climbs := ⟨fun _ _ there => (of_at?_ofList there).2, sized, below⟩
  refine ⟨fun cause => graph_error_iff, fun scripted => ?_⟩
  obtain ⟨instruction, there⟩ := Option.ne_none_iff_exists'.mp scripted
  obtain ⟨graph, found⟩ : ∃ graph, (ofList instructions).graph known address = .ok graph :=
    graph_ok (contains_of_at? there)
  have explores := climbs.ends.explores_graph found
  have isGraph := isGraph_graph found
  exact ⟨graph, found, explores, isGraph.entry, isGraph.distinct, explores.isLeast, explores.scans⟩

/-- A block that goes back to its start or falls out of its end. -/
def looping : List Instruction := [⟨.cbnz, 0x100, [0], some 0x100, 4⟩, ⟨.ret, 0x104, [], none, 4⟩]

theorem at?_looping (address : UInt64) : (ofList looping).at? address =
    if 0x104 = address then some ⟨.ret, 0x104, [], none, 4⟩
    else if 0x100 = address then some ⟨.cbnz, 0x100, [0], some 0x100, 4⟩ else none := by
  simp [looping, ofList, at?, Std.TreeMap.getElem?_insert]

/-- The entry has its block although it is known. -/
theorem graph_isLeast_looping :
    (∀ address instruction, (ofList looping).at? address = some instruction → instruction.size ≠ 0) ∧
    (∀ address instruction, (ofList looping).at? address = some instruction →
      address.toNat + instruction.size.toNat < 2 ^ 64) ∧
    ∃ graph, (ofList looping).graph (· == 0x100) 0x100 = .ok graph ∧ graph.entry? = some 0x100 ∧
      IsLeast {starts | (ofList looping).Closed (· == 0x100) 0x100 starts}
        {start | start ∈ graph.blocks.map Block.address} ∧ 0x104 ∈ graph.blocks.map Block.address := by
  have climbs : (ofList looping).Climbs := climbs_ofList (by decide) (by decide)
  have scripted : (ofList looping).at? 0x100 = some ⟨.cbnz, 0x100, [0], some 0x100, 4⟩ := by simp [at?_looping]
  obtain ⟨graph, found, _, entry, _, least, _⟩ :=
    (graph_isLeast looping climbs.sized climbs.below (· == 0x100) 0x100).2 (by simp [scripted])
  have behind : (ofList looping).contains 0x104 = true :=
    contains_iff.mpr ⟨⟨.ret, 0x104, [], none, 4⟩, by simp [at?_looping]⟩
  have closed := least.1
  exact ⟨climbs.sized, climbs.below, graph, found, entry, least,
    closed.successors 0x100 closed.entry _ (.last scripted rfl) 0x104 (by decide) behind rfl⟩

end Program
end Dynarec.Guest
