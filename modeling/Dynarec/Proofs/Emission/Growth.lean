import Dynarec.Emission
import Mathlib

/-!
How an emission grows. Nothing that has been emitted is taken back: operations, locals and bindings are only
added at the end, and a binding made later has a local of its own. A piece of emitted code is described by the
operations it adds, every one of which fits the locals and labels there are, and by the labels it places, which
are exactly those it has made.
-/
namespace Dynarec.Emission
open Ir

/-- What every later state of an emission has kept of an earlier one. -/
structure Extends (before after : Emission) : Prop where
  tier : after.tier = before.tier
  name : after.name = before.name
  params : after.params = before.params
  linkable : after.linkable = before.linkable
  blockLabels : after.blockLabels = before.blockLabels
  ops : before.ops.toList <+: after.ops.toList
  locals : before.locals.toList <+: after.locals.toList
  labels : before.labels ≤ after.labels
  bindings : ∃ fresh, after.bindings = before.bindings ++ fresh ∧
    ∀ binding ∈ fresh, before.locals.size ≤ binding.slot ∧
      (binding.isParam = true → binding.register ∈ before.params)

/-- Registers have locals of their kinds, no two the same, and block labels have been made. -/
structure Allotted (emission : Emission) : Prop where
  kinds : ∀ binding ∈ emission.bindings, emission.locals[binding.slot]? = some (.of binding.register)
  registers : (emission.bindings.map Binding.register).Nodup
  slots : (emission.bindings.map Binding.slot).Nodup
  targets : ∀ entry ∈ emission.blockLabels, entry.2 < emission.labels

/-- The local `slot` holds `register`. -/
def Binds (emission : Emission) (register : Register) (slot : Local) : Prop :=
  ∃ binding ∈ emission.bindings, binding.register = register ∧ binding.slot = slot

/-- A local for words that holds no register. -/
structure Scratch (emission : Emission) (slot : Local) : Prop where
  word : emission.locals[slot]? = some .i64
  unbound : ∀ binding ∈ emission.bindings, binding.slot ≠ slot

/-- The locals and the target of an operation exist. -/
def Fits (emission : Emission) (op : Op) : Prop :=
  (∀ slot ∈ op.locals, slot < emission.locals.size) ∧ ∀ label ∈ op.target?, label < emission.labels

/-- `after` is `before` with a finished piece of code added. -/
structure Adds (before after : Emission) (added : List Op) : Prop extends Extends before after where
  appended : after.ops.toList = before.ops.toList ++ added
  fits : ∀ op ∈ added, after.Fits op
  placed : added.filterMap Op.placed? = List.range' before.labels (after.labels - before.labels)
  allotted : after.Allotted

theorem Extends.refl (emission : Emission) : Extends emission emission :=
  ⟨rfl, rfl, rfl, rfl, rfl, List.prefix_rfl, List.prefix_rfl, Nat.le_refl _, [], by simp⟩

theorem Extends.size_le {before after : Emission} (grown : Extends before after) :
    before.locals.size ≤ after.locals.size := by
  simpa using grown.locals.length_le

theorem Extends.trans {first second third : Emission} (left : Extends first second)
    (right : Extends second third) : Extends first third := by
  obtain ⟨more, leftBindings, leftFresh⟩ := left.bindings
  obtain ⟨others, rightBindings, rightFresh⟩ := right.bindings
  refine
    { tier := right.tier.trans left.tier
      name := right.name.trans left.name
      params := right.params.trans left.params
      linkable := right.linkable.trans left.linkable
      blockLabels := right.blockLabels.trans left.blockLabels
      ops := left.ops.trans right.ops
      locals := left.locals.trans right.locals
      labels := left.labels.trans right.labels
      bindings := ⟨more ++ others, by rw [rightBindings, leftBindings, List.append_assoc], ?_⟩ }
  intro binding member
  rcases List.mem_append.mp member with inside | inside
  · exact leftFresh binding inside
  · have later := rightFresh binding inside
    rw [left.params] at later
    exact ⟨left.size_le.trans later.1, later.2⟩

theorem Extends.mem {before after : Emission} (grown : Extends before after) {binding : Binding}
    (member : binding ∈ before.bindings) : binding ∈ after.bindings := by
  obtain ⟨fresh, same, _⟩ := grown.bindings
  rw [same]
  exact List.mem_append_left _ member

theorem Binds.mono {before after : Emission} {register : Register} {slot : Local}
    (bound : before.Binds register slot) (grown : Extends before after) : after.Binds register slot := by
  obtain ⟨binding, member, holds⟩ := bound
  exact ⟨binding, grown.mem member, holds⟩

theorem Scratch.lt {emission : Emission} {slot : Local} (free : emission.Scratch slot) :
    slot < emission.locals.size :=
  (Array.getElem?_eq_some_iff.mp free.word).1

theorem Extends.local {before after : Emission} (grown : Extends before after) {slot : Local} {kind : LocalKind}
    (held : before.locals[slot]? = some kind) : after.locals[slot]? = some kind := by
  rw [← Array.getElem?_toList] at held ⊢
  obtain ⟨bound, here⟩ := List.getElem?_eq_some_iff.mp held
  rw [List.prefix_iff_getElem?.mp grown.locals slot bound, here]

theorem Scratch.mono {before after : Emission} {slot : Local} (free : before.Scratch slot)
    (grown : Extends before after) : after.Scratch slot := by
  obtain ⟨fresh, same, later⟩ := grown.bindings
  refine ⟨grown.local free.word, ?_⟩
  intro binding member
  rw [same] at member
  rcases List.mem_append.mp member with inside | inside
  · exact free.unbound binding inside
  · exact (free.lt.trans_le (later binding inside).1).ne'

theorem Fits.mono {before after : Emission} {op : Op} (fit : before.Fits op) (grown : Extends before after) :
    after.Fits op :=
  ⟨fun slot member => (fit.1 slot member).trans_le grown.size_le,
    fun label member => (fit.2 label member).trans_le grown.labels⟩

theorem Allotted.slot_lt {emission : Emission} (sound : emission.Allotted) {binding : Binding}
    (member : binding ∈ emission.bindings) : binding.slot < emission.locals.size :=
  (Array.getElem?_eq_some_iff.mp (sound.kinds binding member)).1

/-- Locals and registers are bound one to one. -/
theorem Allotted.unique {emission : Emission} (sound : emission.Allotted) {left right : Binding}
    (here : left ∈ emission.bindings) (there : right ∈ emission.bindings)
    (same : left.slot = right.slot ∨ left.register = right.register) :
    left = right := by
  rcases same with slots | registers
  · exact List.inj_on_of_nodup_map sound.slots here there slots
  · exact List.inj_on_of_nodup_map sound.registers here there registers

theorem Binds.lt {emission : Emission} {register : Register} {slot : Local} (bound : emission.Binds register slot)
    (sound : emission.Allotted) : slot < emission.locals.size := by
  obtain ⟨binding, member, _, rfl⟩ := bound
  exact sound.slot_lt member

theorem Adds.refl {emission : Emission} (sound : emission.Allotted) : Adds emission emission [] :=
  { Extends.refl emission with
    appended := by simp
    fits := by simp
    placed := by simp
    allotted := sound }

theorem Adds.trans {first second third : Emission} {front back : List Op} (left : Adds first second front)
    (right : Adds second third back) : Adds first third (front ++ back) := by
  have middle := left.labels
  have last := right.labels
  refine
    { left.toExtends.trans right.toExtends with
      appended := by rw [right.appended, left.appended, List.append_assoc]
      fits := ?_
      placed := ?_
      allotted := right.allotted }
  · intro op member
    rcases List.mem_append.mp member with inside | inside
    · exact (left.fits op inside).mono right.toExtends
    · exact right.fits op inside
  · have seam : first.labels + (second.labels - first.labels) = second.labels := by omega
    have total : third.labels - first.labels =
        second.labels - first.labels + (third.labels - second.labels) := by omega
    rw [List.filterMap_append, left.placed, right.placed, total, List.range'_append_1.symm, seam]

/-- The labels a piece without placements has made: none. -/
theorem Adds.labels_eq {before after : Emission} {added : List Op} (adds : Adds before after added)
    (bare : added.filterMap Op.placed? = []) : after.labels = before.labels := by
  have least := adds.labels
  have none := adds.placed
  rw [bare, eq_comm, List.range'_eq_nil_iff] at none
  omega

section Primitives
variable {emission : Emission} (sound : emission.Allotted)
include sound

theorem adds_emit (op : Op) (fit : emission.Fits op) (plain : op.placed? = none) :
    Adds emission (emission.emit op) [op] where
  tier := rfl
  name := rfl
  params := rfl
  linkable := rfl
  blockLabels := rfl
  ops := by simp [emit]
  locals := List.prefix_rfl
  labels := Nat.le_refl _
  bindings := ⟨[], by simp [emit]⟩
  appended := by simp [emit]
  fits := by simpa [Fits, emit] using fit
  placed := by simp [plain, emit]
  allotted := ⟨sound.kinds, sound.registers, sound.slots, sound.targets⟩

theorem scratch_temp : (emission.temp .i64).2.Scratch (emission.temp .i64).1 := by
  refine ⟨by simp [temp], ?_⟩
  intro binding member
  exact (sound.slot_lt member).ne

theorem adds_temp (kind : LocalKind) : Adds emission (emission.temp kind).2 [] where
  tier := rfl
  name := rfl
  params := rfl
  linkable := rfl
  blockLabels := rfl
  ops := List.prefix_rfl
  locals := by simp [temp]
  labels := Nat.le_refl _
  bindings := ⟨[], by simp [temp]⟩
  appended := by simp [temp]
  fits := by simp
  placed := by simp [temp]
  allotted := by
    refine ⟨?_, sound.registers, sound.slots, sound.targets⟩
    intro binding member
    have inside := sound.slot_lt member
    have kept := sound.kinds binding member
    simpa [temp, Array.getElem?_push, inside.ne] using kept

theorem allotted_bind (register : Register) (isParam : Bool) :
    (emission.bind register isParam).2.Allotted ∧
      (emission.bind register isParam).2.Binds register (emission.bind register isParam).1 := by
  unfold bind
  split
  · next binding found =>
    have same : binding.register = register := by simpa using List.find?_some found
    exact ⟨sound, binding, List.mem_of_find?_eq_some found, same, rfl⟩
  · next missing =>
    have fresh : ∀ binding ∈ emission.bindings, binding.register ≠ register := by
      simpa using List.find?_eq_none.mp missing
    have kept := (adds_temp sound (.of register)).allotted
    refine ⟨⟨?_, ?_, ?_, sound.targets⟩, ⟨register, emission.locals.size, isParam⟩, by simp [temp]⟩
    · intro binding member
      rcases List.mem_append.mp member with inside | inside
      · exact kept.kinds binding inside
      · simp only [List.mem_singleton] at inside
        subst inside
        simp [temp]
    · rw [List.map_append, List.nodup_append]
      refine ⟨sound.registers, by simp, ?_⟩
      simpa [temp] using fresh
    · rw [List.map_append, List.nodup_append]
      refine ⟨sound.slots, by simp, ?_⟩
      have small : ∀ binding ∈ emission.bindings, binding.slot ≠ emission.locals.size :=
        fun binding member => (sound.slot_lt member).ne
      simpa [temp] using small

theorem adds_bind (register : Register) {isParam : Bool}
    (given : isParam = true → register ∈ emission.params) :
    Adds emission (emission.bind register isParam).2 [] ∧
      (emission.bind register isParam).2.Binds register (emission.bind register isParam).1 := by
  obtain ⟨allotted, bound⟩ := allotted_bind sound register isParam
  refine ⟨?_, bound⟩
  unfold bind at allotted ⊢
  cases found : emission.bindings.find? (·.register == register) with
  | some binding => exact .refl sound
  | none =>
    rw [found] at allotted
    exact
      { adds_temp sound (.of register) with
        bindings := ⟨[⟨register, emission.locals.size, isParam⟩], by simp [temp], by simpa using given⟩
        allotted := allotted }

theorem adds_register (register : Register) :
    Adds emission (emission.register register).2 [] ∧
      (emission.register register).2.Binds register (emission.register register).1 :=
  adds_bind sound register (by simp)

theorem adds_constant (value : UInt64) :
    Adds emission (emission.constant value).2 [.const (emission.constant value).1 value] ∧
      (emission.constant value).2.Scratch (emission.constant value).1 := by
  have made := adds_temp sound .i64
  have free := scratch_temp sound
  have put := adds_emit made.allotted (.const (emission.temp .i64).1 value)
    ⟨by simpa [Op.locals] using free.lt, by simp [Op.target?]⟩ rfl
  exact ⟨made.trans put, free.mono put.toExtends⟩

end Primitives

/-- A piece that a branch to a new label skips, with that label behind it. -/
theorem adds_skip {emission : Emission} {cond : Local} (known : cond < emission.locals.size) {after : Emission}
    {added : List Op} (adds : Adds (emission.label.2.emit (.branchIf cond emission.label.1)) after added)
    (bare : added.filterMap Op.placed? = []) :
    Adds emission (after.emit (.place emission.labels))
      (.branchIf cond emission.labels :: (added ++ [.place emission.labels])) := by
  have count : after.labels = emission.labels + 1 := adds.labels_eq bare
  have branches : after.Fits (.branchIf cond emission.labels) := by
    refine ⟨?_, ?_⟩
    · simpa [Op.locals] using known.trans_le (adds.size_le)
    · simp [Op.target?, count]
  refine
    { tier := adds.tier
      name := adds.name
      params := adds.params
      linkable := adds.linkable
      blockLabels := adds.blockLabels
      ops := ?_
      locals := adds.locals
      labels := ?_
      bindings := adds.bindings
      appended := ?_
      fits := ?_
      placed := ?_
      allotted := ⟨adds.allotted.kinds, adds.allotted.registers, adds.allotted.slots, adds.allotted.targets⟩ }
  · have front := adds.appended
    simp only [emit, label, Array.toList_push] at front ⊢
    simp [front]
  · simp only [emit, count]
    omega
  · have front := adds.appended
    simp only [emit, label, Array.toList_push] at front ⊢
    simp [front]
  · intro op member
    simp only [List.mem_cons, List.mem_append, List.not_mem_nil, or_false] at member
    rcases member with rfl | inside | rfl
    · exact branches
    · exact adds.fits op inside
    · exact ⟨by simp [Op.locals], by simp [Op.target?]⟩
  · simp [emit, count, List.filterMap_cons, Op.placed?, bare]

end Dynarec.Emission
