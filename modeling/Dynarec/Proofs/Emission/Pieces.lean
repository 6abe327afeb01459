import Dynarec.Proofs.Emission.Growth

/-!
The pieces of code that leave a function or move within it: what each of them adds, with the locals it uses for
itself alone. Whether control stays in the function is decided by the label of the target's block.
-/
namespace Dynarec.Emission
open Ir

/-- Code that comes to `target`: a jump to its block, or the way out. -/
def Continues (emission : Emission) (target : UInt64) (added : List Op) : Prop :=
  (∃ label, emission.jumpTarget? target = some label ∧ added = [.jump label]) ∨
    (emission.jumpTarget? target = none ∧
      ∃ next, emission.Scratch next ∧ added = [.const next target, .spill, .ret next])

/-- Code that comes to `target` when the local is not zero, and behind itself otherwise. -/
def ContinuesIf (emission : Emission) (cond : Local) (target : UInt64) (added : List Op) : Prop :=
  (∃ label, emission.jumpTarget? target = some label ∧ added = [.branchIf cond label]) ∨
    (emission.jumpTarget? target = none ∧ ∃ nought untaken next skip,
      emission.Scratch nought ∧ emission.Scratch untaken ∧ emission.Scratch next ∧
        added = [.const nought 0, .compare .eq untaken cond nought, .branchIf untaken skip,
          .const next target, .spill, .ret next, .place skip])

/-- Code that calls `target` in place and goes on at `back` when it came back there. -/
def CallsInPlace (emission : Emission) (target back : UInt64) (added : List Op) : Prop :=
  ∃ next expected returned resume rest,
    emission.Scratch next ∧ emission.Scratch expected ∧ emission.Scratch returned ∧
      next ≠ expected ∧ next ≠ returned ∧ emission.Continues back rest ∧
        added = [.spill, .call next target, .reload, .const expected back, .compare .eq returned next expected,
          .branchIf returned resume, .spill, .ret next, .place resume] ++ rest

theorem Extends.jumpTarget? {before after : Emission} (grown : Extends before after) (target : UInt64) :
    after.jumpTarget? target = before.jumpTarget? target := by
  simp [Emission.jumpTarget?, blockLabel?, grown.tier, grown.blockLabels]

theorem Continues.mono {before after : Emission} {target : UInt64} {added : List Op}
    (goes : before.Continues target added) (grown : Extends before after) : after.Continues target added := by
  rcases goes with ⟨label, found, code⟩ | ⟨outside, next, free, code⟩
  · exact .inl ⟨label, by rw [grown.jumpTarget?, found], code⟩
  · exact .inr ⟨by rw [grown.jumpTarget?, outside], next, free.mono grown, code⟩

theorem ContinuesIf.mono {before after : Emission} {cond : Local} {target : UInt64} {added : List Op}
    (goes : before.ContinuesIf cond target added) (grown : Extends before after) :
    after.ContinuesIf cond target added := by
  rcases goes with ⟨label, found, code⟩ | ⟨outside, nought, untaken, next, skip, first, second, third, code⟩
  · exact .inl ⟨label, by rw [grown.jumpTarget?, found], code⟩
  · exact .inr ⟨by rw [grown.jumpTarget?, outside], nought, untaken, next, skip, first.mono grown,
      second.mono grown, third.mono grown, code⟩

theorem CallsInPlace.mono {before after : Emission} {target back : UInt64} {added : List Op}
    (calls : before.CallsInPlace target back added) (grown : Extends before after) :
    after.CallsInPlace target back added := by
  obtain ⟨next, expected, returned, resume, rest, first, second, third, left, right, goes, code⟩ := calls
  exact ⟨next, expected, returned, resume, rest, first.mono grown, second.mono grown, third.mono grown, left,
    right, goes.mono grown, code⟩

/-- A label found for a target is one of the block labels. -/
theorem Allotted.jumpTarget?_lt {emission : Emission} (sound : emission.Allotted) {target : UInt64}
    {label : Label} (found : emission.jumpTarget? target = some label) : label < emission.labels := by
  unfold Emission.jumpTarget? at found
  split at found
  · cases found
  · obtain ⟨front, back, split, _⟩ := List.lookup_eq_some_iff.mp found
    exact sound.targets (target, label) (by simp [split])

section Pieces
variable {emission : Emission} (sound : emission.Allotted)
include sound

/-- Callees, spans and the argument words taken so far are kept beside the code. -/
theorem adds_aside (argWords : Nat) (callees linked : Std.TreeSet UInt64) (spans : Array Span)
    (opened : Option OpenSpan) : Adds emission { emission with argWords, callees, linked, spans, opened } [] where
  tier := rfl
  name := rfl
  params := rfl
  linkable := rfl
  blockLabels := rfl
  ops := List.prefix_rfl
  locals := List.prefix_rfl
  labels := Nat.le_refl _
  bindings := ⟨[], by simp⟩
  appended := by simp
  fits := by simp
  placed := by simp
  allotted := ⟨sound.kinds, sound.registers, sound.slots, sound.targets⟩

/-- A new label to skip to keeps what registers and block labels there are. -/
theorem allotted_skip (cond : Local) :
    Allotted (emission.label.2.emit (.branchIf cond emission.label.1)) :=
  ⟨sound.kinds, sound.registers, sound.slots,
    fun entry member => (sound.targets entry member).trans (Nat.lt_succ_self _)⟩

theorem adds_ret (next : Local) (known : next < emission.locals.size) :
    Adds emission (emission.ret next) [.spill, .ret next] := by
  have stored := adds_emit sound (.spill) ⟨by simp [Op.locals], by simp [Op.target?]⟩ rfl
  have left := adds_emit stored.allotted (.ret next)
    ⟨by simpa [Op.locals, emit] using known, by simp [Op.target?]⟩ rfl
  exact stored.trans left

theorem adds_leave (target : UInt64) :
    ∃ next, (emission.leave target).Scratch next ∧
      Adds emission (emission.leave target) [.const next target, .spill, .ret next] := by
  obtain ⟨made, free⟩ := adds_constant sound target
  have left := adds_ret made.allotted _ free.lt
  exact ⟨_, free.mono left.toExtends, made.trans left⟩

theorem adds_branch (target : UInt64) :
    ∃ added, Adds emission (emission.branch target) added ∧ (emission.branch target).Continues target added ∧
      added.filterMap Op.placed? = [] := by
  unfold branch
  split
  · next label found =>
    have jumps := adds_emit sound (.jump label)
      ⟨by simp [Op.locals], by simpa [Op.target?] using sound.jumpTarget?_lt found⟩ rfl
    exact ⟨_, jumps, .inl ⟨label, by rw [jumps.jumpTarget?, found], rfl⟩, rfl⟩
  · next outside =>
    obtain ⟨next, free, leaves⟩ := adds_leave sound target
    exact ⟨_, leaves, .inr ⟨by rw [leaves.jumpTarget?, outside], next, free, rfl⟩, rfl⟩

theorem adds_branchIf {cond : Local} (known : cond < emission.locals.size) (target : UInt64) :
    ∃ added, Adds emission (emission.branchIf cond target) added ∧
      (emission.branchIf cond target).ContinuesIf cond target added := by
  unfold branchIf
  split
  · next label found =>
    have jumps := adds_emit sound (.branchIf cond label)
      ⟨by simpa [Op.locals] using known, by simpa [Op.target?] using sound.jumpTarget?_lt found⟩ rfl
    exact ⟨_, jumps, .inl ⟨label, by rw [jumps.jumpTarget?, found], rfl⟩⟩
  · next outside =>
    obtain ⟨first, nought⟩ := adds_constant sound 0
    have second := adds_temp first.allotted .i64
    have untaken := scratch_temp first.allotted
    have compares := adds_emit second.allotted
      (.compare .eq ((emission.constant 0).2.temp .i64).1 cond (emission.constant 0).1)
      ⟨by
        simp only [Op.locals, List.mem_cons, List.not_mem_nil, or_false, forall_eq_or_imp, forall_eq]
        exact ⟨untaken.lt, known.trans_le (first.trans second).size_le, (nought.mono second.toExtends).lt⟩,
        by simp [Op.target?]⟩ rfl
    have ready := (first.trans second).trans compares
    obtain ⟨next, free, leaves⟩ := adds_leave (allotted_skip ready.allotted _) target
    have skips := adds_skip (untaken.mono compares.toExtends).lt leaves rfl
    have whole := ready.trans skips
    refine ⟨_, whole, .inr ⟨(whole.jumpTarget? target).trans outside, _, _, next, _, ?_, ?_, ?_, rfl⟩⟩
    · exact nought.mono ((second.trans compares).trans skips).toExtends
    · exact untaken.mono (compares.trans skips).toExtends
    · exact ⟨free.word, free.unbound⟩

theorem adds_retToLink :
    ∃ next, Adds emission emission.retToLink [.spill, .ret next] ∧ emission.retToLink.Binds .link next := by
  obtain ⟨made, bound⟩ := adds_register sound .link
  have left := adds_ret made.allotted _ (bound.lt made.allotted)
  exact ⟨_, made.trans left, bound.mono left.toExtends⟩

theorem adds_callInPlace (target back : UInt64) :
    ∃ added, Adds emission (emission.callInPlace target back) added ∧
      (emission.callInPlace target back).CallsInPlace target back added := by
  have linked := adds_aside sound emission.argWords emission.callees (emission.linked.insert target)
    emission.spans emission.opened
  unfold callInPlace
  dsimp only
  generalize { emission with linked := emission.linked.insert target } = started at linked ⊢
  have held := adds_temp linked.allotted .i64
  have next := scratch_temp linked.allotted
  generalize started.temp .i64 = pair at held next ⊢
  obtain ⟨nextSlot, holding⟩ := pair
  dsimp only at held next ⊢
  have stored := adds_emit held.allotted (.spill) ⟨by simp [Op.locals], by simp [Op.target?]⟩ rfl
  have called := adds_emit stored.allotted (.call nextSlot target)
    ⟨by simpa [Op.locals] using (next.mono stored.toExtends).lt, by simp [Op.target?]⟩ rfl
  have loaded := adds_emit called.allotted (.reload) ⟨by simp [Op.locals], by simp [Op.target?]⟩ rfl
  have around := (stored.trans called).trans loaded
  have kept := next.mono around.toExtends
  generalize ((holding.emit .spill).emit (.call nextSlot target)).emit .reload = loading at around kept loaded ⊢
  obtain ⟨made, expected⟩ := adds_constant loaded.allotted back
  have expectedValue : (loading.constant back).1 = loading.locals.size := rfl
  generalize loading.constant back = pair at made expected expectedValue ⊢
  obtain ⟨expectedSlot, expecting⟩ := pair
  dsimp only at made expected expectedValue ⊢
  have counted := adds_temp made.allotted .i64
  have returned := scratch_temp made.allotted
  have returnedValue : (expecting.temp .i64).1 = expecting.locals.size := rfl
  generalize expecting.temp .i64 = pair at counted returned returnedValue ⊢
  obtain ⟨returnedSlot, comparing⟩ := pair
  dsimp only at counted returned returnedValue ⊢
  have compared := adds_emit counted.allotted (.compare .eq returnedSlot nextSlot expectedSlot)
    ⟨by
      simp only [Op.locals, List.mem_cons, List.not_mem_nil, or_false, forall_eq_or_imp, forall_eq]
      exact ⟨returned.lt, (kept.mono (made.trans counted).toExtends).lt, (expected.mono counted.toExtends).lt⟩,
      by simp [Op.target?]⟩ rfl
  have ready := ((linked.trans held).trans around).trans ((made.trans counted).trans compared)
  have nextKept := kept.mono ((made.trans counted).trans compared).toExtends
  have returnedKept := returned.mono compared.toExtends
  have expectedKept := (expected.mono counted.toExtends).mono compared.toExtends
  generalize comparing.emit (.compare .eq returnedSlot nextSlot expectedSlot) = branching at *
  have left := adds_ret (allotted_skip ready.allotted returnedSlot) nextSlot nextKept.lt
  have skipped := adds_skip returnedKept.lt left rfl
  obtain ⟨rest, goes, continued, _⟩ := adds_branch skipped.allotted back
  have finished := skipped.trans goes
  refine ⟨_, ready.trans finished, nextSlot, expectedSlot, returnedSlot, _, rest, nextKept.mono finished.toExtends,
    expectedKept.mono finished.toExtends, returnedKept.mono finished.toExtends, ?_, ?_, continued, rfl⟩
  · exact (expectedValue ▸ next.lt.trans_le around.size_le).ne
  · exact (returnedValue ▸ kept.lt.trans_le made.size_le).ne

theorem adds_call (target back : UInt64) :
    ∃ added, Adds emission (emission.call target back) added ∧
      if emission.tier = .tier1 ∧ emission.linkable target then
        (emission.call target back).CallsInPlace target back added
      else (emission.call target back).Continues target added := by
  have counted := adds_aside sound emission.argWords (emission.callees.insert target) emission.linked
    emission.spans emission.opened
  unfold call
  by_cases inPlace : emission.tier = .tier1 ∧ emission.linkable target = true
  · obtain ⟨added, adds, calls⟩ := adds_callInPlace counted.allotted target back
    simp only [if_pos inPlace]
    exact ⟨added, counted.trans adds, calls⟩
  · obtain ⟨added, adds, continues, _⟩ := adds_branch counted.allotted target
    simp only [if_neg inPlace]
    exact ⟨added, counted.trans adds, continues⟩

theorem adds_moves (slot : Local) (known : slot < emission.locals.size) (count : Nat) :
    Adds emission (count.repeat (Emission.emit (.move slot slot)) emission)
      (List.replicate count (.move slot slot)) := by
  induction count with
  | zero => exact .refl sound
  | succ count ih =>
    have last := adds_emit ih.allotted (.move slot slot)
      ⟨by simpa [Op.locals] using known.trans_le ih.size_le, by simp [Op.target?]⟩ rfl
    rw [List.replicate_succ']
    exact ih.trans last

end Pieces
end Dynarec.Emission
