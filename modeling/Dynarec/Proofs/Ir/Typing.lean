import Dynarec.Ir.Function
import Mathlib

/-!
Kinds of locals. An operation has locals of the kinds it works on: a word where it reads or writes a word, a vector where
it reads or writes a vector, and the kind of the register where it moves one.
-/
namespace Dynarec
namespace Ir.Function

/-- The local `slot` is there and of a kind. -/
def Has (function : Function) (kind : LocalKind) (slot : Local) : Prop := function.locals[slot]? = some kind

/-- The argument words from `word` on are those of a parameter, and `kind` is the kind of its class. -/
def Carries (function : Function) (word : Nat) (kind : LocalKind) : Prop :=
  ∃ front register rest, function.params = front ++ register :: rest ∧ word = (front.map Register.words).sum ∧
    kind = .of register

/-- The locals of an operation are of the kinds it works on. -/
def Typed (function : Function) : Op → Prop
  | .loadArg dst word => ∃ kind, function.Has kind dst ∧ function.Carries word kind
  | .move dst src => ∃ kind, function.Has kind dst ∧ function.Has kind src
  | .loadRegister slot register | .storeRegister register slot => function.Has (.of register) slot
  | .vector _ dst lhs rhs => function.Has .v128 dst ∧ function.Has .v128 lhs ∧ function.Has .v128 rhs
  | .vectorPack dst low high => function.Has .v128 dst ∧ function.Has .i64 low ∧ function.Has .i64 high
  | .vectorExtract dst src _ => function.Has .i64 dst ∧ function.Has .v128 src
  | .loadVector dst address => function.Has .v128 dst ∧ function.Has .i64 address
  | .storeVector address src => function.Has .i64 address ∧ function.Has .v128 src
  | op => ∀ slot ∈ op.locals, function.Has .i64 slot

/-- Every operation is typed, and the parameters have all argument words. -/
structure WellTyped (function : Function) : Prop where
  ops : ∀ op ∈ function.ops.toList, function.Typed op
  words : function.argWords = (function.params.map Register.words).sum

theorem Has.eq {function : Function} {left right : LocalKind} {slot : Local} (one : function.Has left slot)
    (other : function.Has right slot) : left = right :=
  Option.some.inj (Eq.trans (Eq.symm one) other)

/-- A parameter's words are among the argument words. -/
theorem Carries.le {function : Function} {word : Nat} {kind : LocalKind} (carries : function.Carries word kind) :
    word + kind.words ≤ (function.params.map Register.words).sum := by
  obtain ⟨front, register, rest, params, rfl, rfl⟩ := carries
  have words : (LocalKind.of register).words = register.words := by
    obtain ⟨cls, _⟩ := register
    cases cls <;> rfl
  rw [words, params, List.map_append, List.sum_append, List.map_cons, List.sum_cons]
  omega

end Ir.Function

end Dynarec
