import Dynarec.Proofs.Emission.Validity
import Dynarec.Proofs.Ir.Typing

/-!
The function of a graph is typed: registers are kept in locals of their kinds, and what code keeps for itself are words.
-/
namespace Dynarec
namespace Emission
open Ir

variable {emission : Emission}

theorem Binds.has {register : Register} {slot : Local} (bound : emission.Binds register slot)
    (sound : emission.Allotted) : emission.finish.function.Has (.of register) slot := by
  obtain ⟨binding, member, rfl, rfl⟩ := bound
  exact sound.kinds binding member

theorem Scratch.has {slot : Local} (free : emission.Scratch slot) : emission.finish.function.Has .i64 slot :=
  free.word

/-- Integer registers and flags are kept in words, vector registers in vectors. -/
theorem Binds.word {cls : RegisterClass} {index : Nat} {slot : Local}
    (bound : emission.Binds (.ofNat cls index) slot) (sound : emission.Allotted) (narrow : cls ≠ .vector) :
    emission.finish.function.Has .i64 slot := by
  have has := bound.has sound
  cases cls with
  | vector => exact absurd rfl narrow
  | integer | flag => exact has

theorem Continues.typed {target : UInt64} {added : List Op} (goes : emission.Continues target added) :
    ∀ op ∈ added, emission.finish.function.Typed op := by
  rcases goes with ⟨label, _, rfl⟩ | ⟨_, next, free, rfl⟩
  · simp [Function.Typed, Op.locals]
  · simpa [Function.Typed, Op.locals] using free.has

theorem ContinuesIf.typed {cond : Local} {target : UInt64} {added : List Op}
    (goes : emission.ContinuesIf cond target added) (word : emission.finish.function.Has .i64 cond) :
    ∀ op ∈ added, emission.finish.function.Typed op := by
  rcases goes with ⟨label, _, rfl⟩ | ⟨_, nought, untaken, next, skip, first, second, third, rfl⟩
  · simpa [Function.Typed, Op.locals] using word
  · simp [Function.Typed, Op.locals, word, first.has, second.has, third.has]

theorem CallsInPlace.typed {target back : UInt64} {added : List Op}
    (calls : emission.CallsInPlace target back added) : ∀ op ∈ added, emission.finish.function.Typed op := by
  obtain ⟨next, expected, returned, resume, rest, first, second, third, _, _, goes, rfl⟩ := calls
  refine List.forall_mem_append.mpr ⟨?_, goes.typed⟩
  simp [Function.Typed, Op.locals, first.has, second.has, third.has]

theorem CodeOf.typed {instruction : Guest.Instruction} {added : List Op}
    (code : emission.CodeOf instruction added) (sound : emission.Allotted) :
    ∀ op ∈ added, emission.finish.function.Typed op := by
  have word : ∀ {index slot}, emission.Binds (instruction.x index) slot → emission.finish.function.Has .i64 slot :=
    fun bound => Binds.word bound sound (by decide)
  have wide : ∀ {index slot}, emission.Binds (instruction.v index) slot → emission.finish.function.Has .v128 slot :=
    fun bound => bound.has sound
  have flag : ∀ {slot}, emission.Binds .zero slot → emission.finish.function.Has .i64 slot :=
    fun bound => Binds.word bound sound (by decide)
  have link : ∀ {slot}, emission.Binds .link slot → emission.finish.function.Has .i64 slot :=
    fun bound => Binds.word bound sound (by decide)
  unfold CodeOf at code
  cases form : instruction.form <;> simp only [form] at code
  case b =>
    obtain ⟨_, _, goes⟩ := code
    exact goes.typed
  case bEq =>
    obtain ⟨_, _, _, bound, goes⟩ := code
    exact goes.typed (flag bound)
  case cbnz =>
    obtain ⟨_, _, _, bound, goes⟩ := code
    exact goes.typed (word bound)
  case bl =>
    obtain ⟨slot, _, rest, _, bound, rfl, goes⟩ := code
    refine List.forall_mem_cons.mpr ⟨by simpa [Function.Typed, Op.locals] using link bound, ?_⟩
    split at goes
    · exact goes.typed
    · exact goes.typed
  case bloat =>
    obtain ⟨slot, bound, rfl⟩ := code
    intro op member
    obtain rfl := List.eq_of_mem_replicate member
    exact ⟨_, bound.has sound, bound.has sound⟩
  case nop => simp [code]
  case movz =>
    obtain ⟨dst, result, rfl⟩ := code
    simp [Function.Typed, Op.locals, word result]
  case cmpImm =>
    obtain ⟨lhs, rhs, dst, left, right, result, rfl⟩ := code
    simp [Function.Typed, Op.locals, word left, right.has, flag result]
  case ret =>
    obtain ⟨next, bound, rfl⟩ := code
    simp [Function.Typed, Op.locals, link bound]
  case umovLo =>
    obtain ⟨src, scratch, dst, source, free, result, rfl⟩ := code
    simp only [List.mem_cons, List.not_mem_nil, or_false, forall_eq_or_imp, forall_eq]
    exact ⟨⟨free.has, wide source⟩, .i64, word result, free.has⟩
  case insPair =>
    obtain ⟨low, high, dst, first, second, result, rfl⟩ := code
    simp [Function.Typed, wide result, word first, word second]
  case eorV =>
    obtain ⟨lhs, rhs, dst, left, right, result, rfl⟩ := code
    simp [Function.Typed, wide result, wide left, wide right]
  case cas =>
    obtain ⟨address, expected, desired, dst, place, old, new, result, rfl⟩ := code
    simp [Function.Typed, Op.locals, word place, word old, word new, word result]
  case add | sub =>
    obtain ⟨lhs, rhs, dst, left, right, result, rfl⟩ := code
    simp [Function.Typed, Op.locals, word left, word right, word result]
  case addImm | subImm | ldr | str =>
    obtain ⟨first, second, left, right, rfl⟩ := code
    simp [Function.Typed, Op.locals, word left, word right]

theorem Takes.typed {word : Nat} {front registers : List Register} {added : List Op}
    (takes : emission.Takes word registers added) (sound : emission.Allotted)
    (split : emission.params = front ++ registers) (taken : word = (front.map Register.words).sum) :
    ∀ op ∈ added, emission.finish.function.Typed op := by
  induction registers generalizing word front added with
  | nil =>
    rw [takes]
    simp
  | cons register rest ih =>
    obtain ⟨slot, later, bound, rfl, others⟩ := takes
    refine List.forall_mem_cons.mpr ⟨⟨_, bound.has sound, front, register, rest, split, taken, rfl⟩, ?_⟩
    have splitBehind : emission.params = (front ++ [register]) ++ rest := by simp [split]
    exact ih others splitBehind (by simp [taken])

theorem Laid.typed {graph : Guest.Graph} (laid : emission.Laid graph) :
    ∀ op ∈ emission.finish.function.ops.toList, emission.finish.function.Typed op := by
  have emitted : ∀ op ∈ emission.ops.toList, emission.finish.function.Typed op := by
    refine laid.forall_ops ?_ ?_ ?_ (fun _ _ _ code => code.typed laid.allotted) fun _ _ goes => goes.typed
    · exact fun added takes => takes.typed laid.allotted (rfl : _ = [] ++ _) rfl
    · simp [Function.Typed, Op.locals]
    · simp [Function.Typed, Op.locals]
  intro op member
  rcases Expansion.mem_expand member with ⟨origin, _⟩ | ⟨binding, known, rfl | rfl⟩
  · exact emitted op origin
  · exact laid.allotted.kinds binding known
  · exact laid.allotted.kinds binding known

end Emission
end Dynarec
