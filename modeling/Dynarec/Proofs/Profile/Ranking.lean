import Dynarec.Profile.Report
import Dynarec.Proofs.Effect
import Dynarec.Proofs.Profile.History

/-!
Reports as rankings. The order in which the tables come to a report does not show in it: rows are sorted by their texts
first, which are distinct, and every ranking is a stable sort of these rows.
-/
namespace Dynarec.Profile

/-- Where a sort finds two items equal it leaves them in the order they had. -/
theorem pairwise_mergeSort_stable {α : Type} (le : α → α → Bool) {before : α → α → Prop} {items : List α}
    (trans : ∀ first second third, le first second = true → le second third = true → le first third = true)
    (total : ∀ left right, (le left right || le right left) = true) (ordered : items.Pairwise before) :
    (items.mergeSort le).Pairwise fun left right =>
      le left right = true ∧ (le right left = true → before left right) := by
  -- the sort is that of the items with their positions, which decide where the items do not
  rw [← List.mergeSort_zipIdx, List.pairwise_map]
  have perm := List.mergeSort_perm items.zipIdx (List.zipIdxLE le)
  have sorted := List.pairwise_mergeSort (List.zipIdxLE_trans trans) (List.zipIdxLE_total total) items.zipIdx
  have distinct : ((items.zipIdx.mergeSort (List.zipIdxLE le)).map Prod.snd).Nodup := by
    rw [(perm.map Prod.snd).nodup_iff, List.zipIdx_map_snd]
    exact List.nodup_range'
  refine (sorted.and (List.pairwise_map.mp distinct)).imp_of_mem ?_
  rintro ⟨left, early⟩ ⟨right, late⟩ leftMember rightMember ⟨ranked, apart⟩
  obtain ⟨leftBound, here⟩ := List.getElem?_eq_some_iff.mp (List.mem_zipIdx_iff_getElem?.mp (perm.subset leftMember))
  obtain ⟨rightBound, there⟩ := List.getElem?_eq_some_iff.mp (List.mem_zipIdx_iff_getElem?.mp (perm.subset rightMember))
  unfold List.zipIdxLE at ranked
  split at ranked
  · next below =>
    refine ⟨below, fun above => ?_⟩
    rw [if_pos above, decide_eq_true_eq] at ranked
    rw [← here, ← there]
    exact List.pairwise_iff_getElem.mp ordered _ _ leftBound rightBound (lt_of_le_of_ne ranked apart)
  · cases ranked

/-- The rows, those of the largest values first and those of one value in the order of their names. -/
structure Ranks {α κ : Type} [LT κ] (value : α → Nat) (name : α → κ) (rows ranking : List α) : Prop where
  perm : ranking.Perm rows
  order : ranking.Pairwise fun left right =>
    value right < value left ∨ (value left = value right ∧ name left < name right)

/-- Rows have one ranking, in whatever order they come. -/
theorem Ranks.unique {α κ : Type} [LT κ] [Std.Asymm (α := κ) (· < ·)] {value : α → Nat} {name : α → κ}
    {rows others ranking other : List α} (ranks : Ranks value name rows ranking)
    (ranksToo : Ranks value name others other) (perm : rows.Perm others) : ranking = other := by
  refine List.Perm.eq_of_pairwise ?_ ranks.order ranksToo.order ((ranks.perm.trans perm).trans ranksToo.perm.symm)
  rintro left right - - (more | ⟨same, first⟩) (less | ⟨sameToo, second⟩)
  · omega
  · omega
  · omega
  · exact absurd second (Std.Asymm.asymm _ _ first)

namespace OpcodeRow

/-- The row of a kind of instruction whose times have a mean. -/
def shown (entry : OpcodeKey × OpcodeProfile) : OpcodeRow where
  opcode := entry.1.render
  occurrences := entry.2.occurrences
  maxSize := entry.2.maxSize
  average := column (entry.2.times.toList.sum / entry.2.times.toList.length)

theorem of_eq_shown {entry : OpcodeKey × OpcodeProfile}
    (representable : entry.2.times.toList.sum < 2 ^ 64 * 10 ^ 9) : OpcodeRow.of entry.1 entry.2 = .ok (shown entry) := by
  unfold OpcodeRow.of
  rw [entry.2.average_eq representable]
  rfl

theorem ranks_rankBy {rows : List OpcodeRow} (distinct : (rows.map opcode).Nodup) (value : OpcodeRow → Nat) :
    Ranks value opcode rows (rankBy value (rows.mergeSort fun left right => left.opcode ≤ right.opcode)) := by
  have texts := List.mergeSort_perm rows fun left right => decide (left.opcode ≤ right.opcode)
  have sorted := @List.pairwise_mergeSort _ (fun left right : OpcodeRow => decide (left.opcode ≤ right.opcode))
    (by simpa using fun first second third : OpcodeRow => le_trans)
    (by simpa using fun left right : OpcodeRow => le_total _ _) rows
  have apart := List.pairwise_map.mp ((texts.map opcode).nodup_iff.mpr distinct)
  have ordered := (sorted.and apart).imp fun {left right : OpcodeRow} both =>
    lt_of_le_of_ne (of_decide_eq_true both.1) both.2
  refine ⟨(List.mergeSort_perm _ _).trans texts, ?_⟩
  have stable := pairwise_mergeSort_stable (fun left right : OpcodeRow => decide (value right ≤ value left))
    (by simpa using fun first second third => fun above below => le_trans below above)
    (by simpa using fun left right => le_total _ _) ordered
  refine stable.imp fun {left right} both => ?_
  obtain ⟨above, tied⟩ := both
  simp only [decide_eq_true_eq] at above tied
  rcases above.lt_or_eq with more | same
  · exact .inl more
  · exact .inr ⟨same.symm, tied same.ge⟩

end OpcodeRow

namespace SubroutineRow

theorem backend_of (address : UInt64) (times : SubroutineTimes) :
    (SubroutineRow.of address times).backend = times.backend.getD 0 / 1000 % 2 ^ 64 := by
  unfold SubroutineRow.of
  cases times.backend <;> rfl

/-- The sort by time and address, both of which it compares. -/
theorem ranks_mergeSort {rows : List SubroutineRow} (distinct : (rows.map address).Nodup) :
    Ranks backend address rows (rows.mergeSort fun left right =>
      right.backend < left.backend || right.backend == left.backend && left.address ≤ right.address) := by
  have perm := List.mergeSort_perm rows fun left right : SubroutineRow =>
    right.backend < left.backend || right.backend == left.backend && left.address ≤ right.address
  have sorted := @List.pairwise_mergeSort _ (fun left right : SubroutineRow =>
    right.backend < left.backend || right.backend == left.backend && left.address ≤ right.address) ?_ ?_ rows
  · refine ⟨perm, ?_⟩
    have apart := List.pairwise_map.mp ((perm.map address).nodup_iff.mpr distinct)
    refine (sorted.and apart).imp fun {left right} both => ?_
    obtain ⟨ranked, apart⟩ := both
    simp only [Bool.or_eq_true, Bool.and_eq_true, decide_eq_true_eq, beq_iff_eq] at ranked
    exact ranked.imp_right fun ⟨same, below⟩ => ⟨same.symm, UInt64.lt_of_le_of_ne below apart⟩
  · intro first second third
    simp only [Bool.or_eq_true, Bool.and_eq_true, decide_eq_true_eq, beq_iff_eq, UInt64.le_iff_toNat_le]
    omega
  · intro left right
    simp only [Bool.or_eq_true, Bool.and_eq_true, decide_eq_true_eq, beq_iff_eq, UInt64.le_iff_toNat_le]
    omega

end SubroutineRow

namespace Report

/-- The four lists of a report on these entries. -/
structure Ranked (opcodes : List (OpcodeKey × OpcodeProfile)) (subroutines : List (UInt64 × SubroutineTimes))
    (report : Report) : Prop where
  byFrequency : Ranks OpcodeRow.occurrences OpcodeRow.opcode (opcodes.map OpcodeRow.shown) report.byFrequency
  bySize : Ranks OpcodeRow.maxSize OpcodeRow.opcode (opcodes.map OpcodeRow.shown) report.bySize
  byTime : Ranks OpcodeRow.average OpcodeRow.opcode (opcodes.map OpcodeRow.shown) report.byTime
  byBackend : Ranks SubroutineRow.backend SubroutineRow.address
    (subroutines.map fun entry => SubroutineRow.of entry.1 entry.2) report.byBackend
  times : ∀ row ∈ report.byBackend, ∃ times, (row.address, times) ∈ subroutines ∧
    row.backend = times.backend.getD 0 / 1000 % 2 ^ 64

variable {opcodes otherOpcodes : List (OpcodeKey × OpcodeProfile)}
  {subroutines otherSubroutines : List (UInt64 × SubroutineTimes)} {report other : Report}

theorem Ranked.unique (ranked : report.Ranked opcodes subroutines) (rankedToo : other.Ranked otherOpcodes otherSubroutines)
    (same : opcodes.Perm otherOpcodes) (sameToo : subroutines.Perm otherSubroutines) : report = other := by
  have frequency := ranked.byFrequency.unique rankedToo.byFrequency (same.map _)
  have size := ranked.bySize.unique rankedToo.bySize (same.map _)
  have time := ranked.byTime.unique rankedToo.byTime (same.map _)
  have backend := ranked.byBackend.unique rankedToo.byBackend (sameToo.map _)
  cases report
  cases other
  simp only at frequency size time backend
  rw [frequency, size, time, backend]

theorem ofEntries_ranked (texts : (opcodes.map fun entry => entry.1.render).Nodup)
    (addresses : (subroutines.map Prod.fst).Nodup)
    (representable : ∀ entry ∈ opcodes, entry.2.times.toList.sum < 2 ^ 64 * 10 ^ 9) :
    ∃ report, ofEntries opcodes subroutines = .ok report ∧ report.Ranked opcodes subroutines := by
  have rows := Effect.mapM_ok fun entry member => OpcodeRow.of_eq_shown (representable entry member)
  have distinct : ((opcodes.map OpcodeRow.shown).map OpcodeRow.opcode).Nodup := by
    rw [List.map_map]
    exact texts
  have distinctToo : ((subroutines.map fun entry => SubroutineRow.of entry.1 entry.2).map SubroutineRow.address).Nodup := by
    rw [List.map_map]
    exact addresses
  refine ⟨?report, ?made, ?ranked⟩
  case made =>
    unfold ofEntries
    dsimp only at rows ⊢
    rw [rows]
    rfl
  case ranked =>
    have backend := SubroutineRow.ranks_mergeSort distinctToo
    refine ⟨OpcodeRow.ranks_rankBy distinct _, OpcodeRow.ranks_rankBy distinct _, OpcodeRow.ranks_rankBy distinct _,
      backend, fun row member => ?_⟩
    obtain ⟨⟨address, times⟩, inside, rfl⟩ := List.mem_map.mp (backend.perm.subset member)
    exact ⟨times, inside, SubroutineRow.backend_of address times⟩

/-- Where kinds differ in their texts and their times have means, a report does not depend on the order in which the tables
come. It ranks one row for each kind of instruction by count, by largest size and by mean time, and one for each address by
its column of whole microseconds in the backend. The column is a word of 64 bits, in which a longer time wraps around. Ties
stand in the order of texts or addresses. -/
theorem of_ranked (tables : Tables)
    (texts : ∀ key ∈ tables.opcodes, ∀ other ∈ tables.opcodes, key.render = other.render → key = other)
    (representable : ∀ key profile, tables.opcode? key = some profile →
      profile.times.toList.sum < 2 ^ 64 * 10 ^ 9) :
    ∃ report, Report.of tables = .ok report ∧
      (∀ opcodes subroutines, opcodes.Perm tables.opcodes.toList → subroutines.Perm tables.subroutines.toList →
        ofEntries opcodes subroutines = .ok report) ∧
      report.Ranked tables.opcodes.toList tables.subroutines.toList := by
  have held {entry : OpcodeKey × OpcodeProfile} (member : entry ∈ tables.opcodes.toList) :
      entry.1 ∈ tables.opcodes := by
    rw [Std.HashMap.mem_iff_isSome_getElem?, Std.HashMap.mem_toList_iff_getElem?_eq_some.mp member]
    rfl
  have keys : (tables.opcodes.toList.map fun entry => entry.1.render).Nodup := by
    refine List.pairwise_map.mpr (Std.HashMap.distinct_keys_toList.imp_of_mem ?_)
    rintro ⟨left, profile⟩ ⟨right, profileToo⟩ here there apart same
    have equal := texts left (held here) right (held there) same
    simp [equal] at apart
  have addresses : (tables.subroutines.toList.map Prod.fst).Nodup := by
    refine List.pairwise_map.mpr (Std.HashMap.distinct_keys_toList.imp fun apart same => ?_)
    simp [same] at apart
  have means : ∀ entry ∈ tables.opcodes.toList, entry.2.times.toList.sum < 2 ^ 64 * 10 ^ 9 := fun entry member =>
    representable entry.1 entry.2 (Std.HashMap.mem_toList_iff_getElem?_eq_some.mp member)
  obtain ⟨report, made, ranked⟩ := ofEntries_ranked keys addresses means
  refine ⟨report, made, fun opcodes subroutines same sameToo => ?_, ranked⟩
  obtain ⟨other, madeToo, rankedToo⟩ := ofEntries_ranked ((same.map _).nodup_iff.mpr keys)
    ((sameToo.map _).nodup_iff.mpr addresses) fun entry member => means entry (same.subset member)
  rw [madeToo, rankedToo.unique ranked same sameToo]

/-- Two kinds that were emitted once each, and two addresses that took as many whole microseconds. -/
def tied : Tables where
  opcodes := (Std.HashMap.emptyWithCapacity.insert ⟨"emit_mem", "ldr"⟩ (.recorded [(50, 9)])).insert
    ⟨"emit_alu", "add"⟩ (.recorded [(10, 2)])
  subroutines := (Std.HashMap.emptyWithCapacity.insert 0x20 (.observe none none (some 7999) none)).insert 0x10
    (.observe none none (some 7000) none)

theorem toList_opcodes_tied : tied.opcodes.toList.Perm
    [(⟨"emit_alu", "add"⟩, .recorded [(10, 2)]), (⟨"emit_mem", "ldr"⟩, .recorded [(50, 9)])] := by
  refine Std.HashMap.toList_insert_perm.trans (.cons _ ((Std.HashMap.toList_insert_perm.filter _).trans ?_))
  simp

theorem toList_subroutines_tied : tied.subroutines.toList.Perm
    [(0x10, .observe none none (some 7000) none), (0x20, .observe none none (some 7999) none)] := by
  refine Std.HashMap.toList_insert_perm.trans (.cons _ ((Std.HashMap.toList_insert_perm.filter _).trans ?_))
  simp

theorem of_ranked_tied : Report.of tied = .ok
    { byFrequency := [⟨"add (emit_alu)", 1, 2, 10⟩, ⟨"ldr (emit_mem)", 1, 9, 50⟩]
      bySize := [⟨"ldr (emit_mem)", 1, 9, 50⟩, ⟨"add (emit_alu)", 1, 2, 10⟩]
      byTime := [⟨"ldr (emit_mem)", 1, 9, 50⟩, ⟨"add (emit_alu)", 1, 2, 10⟩]
      byBackend := [⟨0x10, none, none, 7, none, 1⟩, ⟨0x20, none, none, 7, none, 1⟩] } := by
  have texts : ∀ key ∈ tied.opcodes, ∀ other ∈ tied.opcodes, key.render = other.render → key = other := by
    simp only [tied, Std.HashMap.mem_insert, beq_iff_eq, Std.HashMap.not_mem_emptyWithCapacity, or_false]
    rintro key (rfl | rfl) other (rfl | rfl) <;> decide
  have representable : ∀ key profile, tied.opcode? key = some profile → profile.times.toList.sum < 2 ^ 64 * 10 ^ 9 := by
    intro key profile found
    have inside := toList_opcodes_tied.subset (Std.HashMap.mem_toList_iff_getElem?_eq_some.mpr found)
    simp only [List.mem_cons, Prod.mk.injEq, List.not_mem_nil, or_false] at inside
    rcases inside with ⟨-, rfl⟩ | ⟨-, rfl⟩ <;> decide
  obtain ⟨report, made, -, ranked⟩ := of_ranked tied texts representable
  rw [made]
  refine congrArg Except.ok (ranked.unique ?_ toList_opcodes_tied toList_subroutines_tied)
  have size (time size : Nat) : (OpcodeProfile.recorded [(time, size)]).maxSize = size :=
    (OpcodeProfile.recorded_keeps [(time, size)]).maxSize
  have rows : [(⟨"emit_alu", "add"⟩, .recorded [(10, 2)]), (⟨"emit_mem", "ldr"⟩, .recorded [(50, 9)])].map
      OpcodeRow.shown = [⟨"add (emit_alu)", 1, 2, 10⟩, ⟨"ldr (emit_mem)", 1, 9, 50⟩] := by
    simp only [List.map_cons, List.map_nil, OpcodeRow.shown, size]
    rfl
  refine ⟨?_, ?_, ?_, ⟨.refl _, by decide⟩, by simp [SubroutineTimes.observe]⟩ <;> rw [rows] <;>
    exact ⟨by decide, by decide⟩

end Report

end Dynarec.Profile
