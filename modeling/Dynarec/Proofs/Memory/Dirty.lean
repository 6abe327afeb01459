import Dynarec.Proofs.Memory.Bytewise

/-!
What dirty-page queries tell. A page is fresh for a tracking id exactly if a byte was stored through it since the last
query with this id that met the page. Every operation keeps this up, and an answer is made of the fresh pages.
-/
namespace Dynarec
namespace Memory

/-- Neither a page nor what a tracking id was told is ahead of the count of writes. -/
structure Bounded (memory : Memory) : Prop where
  versions : ∀ page, memory.versions.getD page 0 ≤ memory.generation
  seen : ∀ tracker page, memory.seen.getD (tracker, page) 0 ≤ memory.generation

/-- Since the last query with a tracking id that met a page, a byte was stored through the page. -/
def Dirty (start : Memory) (operations : List Operation) (tracker : UInt32) (page : UInt64) : Prop :=
  ∃ front op back, operations = front ++ op :: back ∧ op.Stores (start.after front) page ∧
    ∀ later ∈ back, ¬ later.Asks tracker page

variable {memory before after : Memory} {touched : UInt64 → Prop} {address size page : UInt64} {tracker asker : UInt32}
  {op : Operation}

theorem isFresh_iff : memory.isFresh tracker page = true ↔
    memory.seen.getD (tracker, page) 0 < memory.versions.getD page 0 := by
  rw [isFresh, decide_eq_true_eq]

theorem Bounded.marks (bounded : before.Bounded) (marks : Marks touched before after) : after.Bounded := by
  constructor
  · intro page
    by_cases marked : touched page
    · exact marks.bounded page marked
    · rw [marks.others page marked]
      exact (bounded.versions page).trans marks.generation
  · intro tracker page
    rw [marks.seen]
    exact (bounded.seen tracker page).trans marks.generation

/-- What is marked is later than all that anyone was told. -/
theorem Bounded.isFresh_marks (bounded : before.Bounded) (marks : Marks touched before after) :
    after.isFresh tracker page = true ↔ touched page ∨ before.isFresh tracker page = true := by
  rw [isFresh_iff, isFresh_iff, marks.seen]
  by_cases marked : touched page
  · exact iff_of_true ((bounded.seen tracker page).trans_lt (marks.later page marked)) (.inl marked)
  · rw [marks.others page marked, or_iff_right marked]

theorem getD_told (versions : Std.HashMap UInt64 Nat) (told : List UInt64) (seen : Std.HashMap (UInt32 × UInt64) Nat) :
    (told.foldl (fun seen page => seen.insert (asker, page) (versions.getD page 0)) seen).getD (tracker, page) 0 =
      if asker = tracker ∧ page ∈ told then versions.getD page 0 else seen.getD (tracker, page) 0 := by
  induction told generalizing seen with
  | nil => simp
  | cons first rest ih =>
    rw [List.foldl_cons, ih]
    by_cases again : asker = tracker ∧ page ∈ rest
    · rw [if_pos again, if_pos ⟨again.1, List.mem_cons_of_mem _ again.2⟩]
    · rw [if_neg again, Std.HashMap.getD_insert]
      by_cases same : asker = tracker ∧ first = page
      · obtain ⟨rfl, rfl⟩ := same
        simp
      · have other : ¬ (asker = tracker ∧ page ∈ first :: rest) := by
          rintro ⟨own, member⟩
          rcases List.mem_cons.mp member with rfl | member
          · exact same ⟨own, rfl⟩
          · exact again ⟨own, member⟩
        rw [if_neg other, if_neg (by simpa using same)]

theorem mem_told : page ∈ (pagesOf address size).filter (memory.isFresh asker) ↔
    Meets address size page ∧ memory.isFresh asker page = true := by
  rw [List.mem_filter, mem_pagesOf]

theorem seen_modified (told : asker = tracker ∧ Meets address size page ∧ memory.isFresh asker page = true) :
    (memory.modified address size asker).2.seen.getD (tracker, page) 0 = memory.versions.getD page 0 := by
  rw [modified, getD_told, if_pos ⟨told.1, mem_told.mpr told.2⟩]

theorem seen_modified_other (other : ¬ (asker = tracker ∧ Meets address size page ∧ memory.isFresh asker page = true)) :
    (memory.modified address size asker).2.seen.getD (tracker, page) 0 = memory.seen.getD (tracker, page) 0 := by
  rw [modified, getD_told, if_neg]
  rintro ⟨same, member⟩
  exact other ⟨same, mem_told.mp member⟩

theorem isFresh_modified : (memory.modified address size asker).2.isFresh tracker page = true ↔
    memory.isFresh tracker page = true ∧ ¬ (asker = tracker ∧ Meets address size page) := by
  have versions : (memory.modified address size asker).2.versions = memory.versions := rfl
  by_cases told : asker = tracker ∧ Meets address size page ∧ memory.isFresh asker page = true
  · rw [isFresh_iff, seen_modified told, versions]
    exact iff_of_false (Nat.lt_irrefl _) fun ⟨_, unasked⟩ => unasked ⟨told.1, told.2.1⟩
  · rw [isFresh_iff, seen_modified_other told, versions, ← isFresh_iff]
    refine ⟨fun fresh => ⟨fresh, ?_⟩, fun ⟨fresh, _⟩ => fresh⟩
    rintro ⟨rfl, meets⟩
    exact told ⟨rfl, meets, fresh⟩

theorem Bounded.modified (bounded : memory.Bounded) (address size : UInt64) (asker : UInt32) :
    (memory.modified address size asker).2.Bounded := by
  refine ⟨bounded.versions, fun tracker page => ?_⟩
  by_cases told : asker = tracker ∧ Meets address size page ∧ memory.isFresh asker page = true
  · rw [seen_modified told]
    exact bounded.versions page
  · rw [seen_modified_other told]
    exact bounded.seen tracker page

theorem Bounded.run (bounded : memory.Bounded) (sound : memory.Sound) (op : Operation) : (op.run memory).Bounded := by
  cases behaves sound op with
  | access marks => exact bounded.marks marks
  | remap pages remapped =>
    rw [remapped]
    exact ⟨bounded.versions, bounded.seen⟩
  | query address size asker => exact bounded.modified address size asker

/-- Behind an operation a page is fresh if a byte was stored through it, or if it was fresh before and not asked for. -/
theorem isFresh_run (sound : memory.Sound) (bounded : memory.Bounded) (op : Operation) :
    (op.run memory).isFresh tracker page = true ↔
      op.Stores memory page ∨ (memory.isFresh tracker page = true ∧ ¬ op.Asks tracker page) := by
  cases behaves sound op with
  | access marks silent => rw [bounded.isFresh_marks marks, and_iff_left (silent tracker page)]
  | remap pages remapped _ idle silent =>
    rw [remapped, or_iff_right (idle page), and_iff_left (silent tracker page)]
    rfl
  | query address size asker =>
    have idle : ¬ (Operation.modified address size asker).Stores memory page := by simp [Operation.Stores, Operation.stored]
    rw [or_iff_right idle]
    exact isFresh_modified

theorem Origin.bounded (origin : Origin) : origin.memory.Bounded := by
  cases origin <;> exact ⟨by simp [memory, Memory.empty, Memory.identity], by simp [memory, Memory.empty, Memory.identity]⟩

theorem Origin.not_isFresh (origin : Origin) : origin.memory.isFresh tracker page = false := by
  cases origin <;> simp [memory, Memory.empty, Memory.identity, isFresh]

theorem bounded_after (sound : memory.Sound) (bounded : memory.Bounded) (operations : List Operation) :
    (memory.after operations).Bounded := by
  induction operations generalizing memory with
  | nil => exact bounded
  | cons op rest ih => exact ih (sound_run sound op) (bounded.run sound op)

/-- An operation more stores through a page, or leaves it dirty unless it asks for it. -/
theorem dirty_snoc {start : Memory} {operations : List Operation} :
    Dirty start (operations ++ [op]) tracker page ↔
      op.Stores (start.after operations) page ∨ (Dirty start operations tracker page ∧ ¬ op.Asks tracker page) := by
  constructor
  · rintro ⟨front, store, back, parts, stores, quiet⟩
    -- the byte was stored by the last operation, or by one that the last one comes behind
    rcases List.eq_nil_or_concat' back with rfl | ⟨back, last, rfl⟩
    · obtain ⟨rfl, same⟩ := List.append_inj' parts rfl
      cases same
      exact .inl stores
    · rw [← List.cons_append, ← List.append_assoc] at parts
      obtain ⟨rfl, same⟩ := List.append_inj' parts rfl
      cases same
      obtain ⟨earlier, silent⟩ := List.forall_mem_append.mp quiet
      exact .inr ⟨⟨front, store, back, rfl, stores, earlier⟩, silent op (List.mem_singleton_self op)⟩
  · rintro (stores | ⟨⟨front, store, back, rfl, stores, quiet⟩, silent⟩)
    · exact ⟨operations, op, [], rfl, stores, by simp⟩
    · refine ⟨front, store, back ++ [op], by simp, stores, List.forall_mem_append.mpr ⟨quiet, ?_⟩⟩
      simpa using silent

/-- Behind every history the fresh pages are the dirty ones. -/
theorem isFresh_after (origin : Origin) (operations : List Operation) :
    (origin.memory.after operations).isFresh tracker page = true ↔ Dirty origin.memory operations tracker page := by
  -- from the back, since each operation decides anew what the ones before it left
  induction operations using List.reverseRecOn with
  | nil =>
    rw [after_nil, origin.not_isFresh]
    refine iff_of_false Bool.false_ne_true ?_
    rintro ⟨front, op, back, parts, _⟩
    simp at parts
  | append_singleton operations op ih =>
    have sound := sound_after origin.sound operations
    have bounded := bounded_after origin.sound origin.bounded operations
    rw [after_append, dirty_snoc, ← ih]
    exact isFresh_run sound bounded op

theorem modified_spec (memory : Memory) (address size : UInt64) (tracker : UInt32) :
    Tidy (memory.modified address size tracker).1 ∧
      ∀ byte, Covers (memory.modified address size tracker).1 byte ↔
        Meets address size (pageOf byte) ∧ memory.isFresh tracker (pageOf byte) = true := by
  have joined := coalesce_spec ((pagesOf address size).filter (memory.isFresh tracker))
    (fun page member => inPage_of_mem_pagesOf (List.mem_of_mem_filter member))
    ((pairwise_pagesOf address size).sublist List.filter_sublist)
  exact ⟨joined.1, fun byte => (joined.2 byte).trans mem_told⟩

theorem modified_congr (same : ∀ page, Meets address size page → before.isFresh tracker page = after.isFresh tracker page) :
    (before.modified address size tracker).1 = (after.modified address size tracker).1 :=
  congrArg coalesce (List.filter_congr fun page member => same page (mem_pagesOf.mp member))

/-- A query tells exactly of the pages its range meets through which a byte was stored since its tracking id last asked for
them, in ascending whole-page ranges with gaps between them. An operation that neither stores through these pages nor asks
for them with this tracking id leaves the answer as it is: other queries, dropped writes, failed swaps, changes of the page
table. -/
theorem modified_exact (history : History) (address size : UInt64) (tracker : UInt32) :
    let memory := history.memory
    let ranges := (memory.modified address size tracker).1
    (∀ byte, Covers ranges byte ↔
      Meets address size (pageOf byte) ∧ Dirty history.origin.memory history.operations tracker (pageOf byte)) ∧
    Tidy ranges ∧
    ∀ op : Operation, (∀ page, Meets address size page → ¬ op.Stores memory page ∧ ¬ op.Asks tracker page) →
      ((op.run memory).modified address size tracker).1 = ranges := by
  intro memory ranges
  have sound : memory.Sound := history.sound
  have bounded : memory.Bounded := bounded_after history.origin.sound history.origin.bounded history.operations
  obtain ⟨tidy, covers⟩ := modified_spec memory address size tracker
  refine ⟨fun byte => ?_, tidy, fun op away => ?_⟩
  · rw [covers, ← isFresh_after]
    rfl
  · refine modified_congr fun page meets => Bool.eq_iff_iff.mpr ?_
    obtain ⟨idle, silent⟩ := away page meets
    rw [isFresh_run sound bounded, or_iff_right idle, and_iff_left silent]

/-- Two pages that share a frame, and bytes written over their border. -/
def crossed : History := ⟨.empty 0x1000, doubled.operations ++ [.write 0x3ff8 (List.replicate 16 1)]⟩

/-- The later page is told as a whole, also when another tracking id has asked before. -/
theorem modified_exact_crossed :
    Covers ((crossed.memory.modified 0x4000 1 7).2.modified 0x4000 1 8).1 0x4fff ∧
      ((crossed.memory.modified 0x4000 1 7).2.modified 0x4000 1 8).1 = (crossed.memory.modified 0x4000 1 8).1 := by
  obtain ⟨covers, _, kept⟩ := modified_exact crossed 0x4000 1 8
  have same := kept (.modified 0x4000 1 7) fun page _ => ⟨by simp [Operation.Stores, Operation.stored], fun asks => by
    cases asks.1⟩
  have page : pageOf 0x4fff = 0x4000 := by simp [← UInt64.toNat_inj, toNat_pageOf]
  have border : pageOf 0x4000 = 0x4000 := by simp [← UInt64.toNat_inj, toNat_pageOf]
  have member : 0x4000 ∈ span 0x3ff8 16 := mem_span.mpr ⟨8, by decide, by simp⟩
  have room : 0x1000 ≤ crossed.origin.memory.capacity := by
    simp [Origin.memory, crossed, capacity, empty, wholePages, pageSize]
  have stores : (Operation.write 0x3ff8 (List.replicate 16 1)).Stores (crossed.origin.memory.after doubled.operations) 0x4000 :=
    ⟨0x4000, List.mem_filter.mpr ⟨by rwa [List.length_replicate], isMapped_doubled room _ member⟩, border⟩
  refine ⟨?_, same⟩
  change Covers ((Operation.run crossed.memory (.modified 0x4000 1 7)).modified 0x4000 1 8).1 0x4fff
  rw [same, covers, page]
  exact ⟨⟨0x4000, UInt64.le_refl _, by simp, border⟩, doubled.operations, _, [], rfl, stores, by simp⟩

end Memory
end Dynarec
