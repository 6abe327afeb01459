import Dynarec.Error
import Dynarec.Ir.Op

/-!
A finished function and the check that code may be run: no placeholder is left, every local and label named
is one of the function's, each label is placed exactly once, and the last operation ends the function.
-/
namespace Dynarec.Ir

structure Function where
  name : String
  params : List Register := []
  /-- Argument words of all parameters together. -/
  argWords : Nat := 0
  locals : Array LocalKind := #[]
  labels : Nat := 0
  ops : Array Op := #[]
  deriving DecidableEq, Repr, Inhabited

namespace Function

/-- What a function can violate, with the first offender. -/
inductive Flaw
  | placeholder (op : Op)
  | unknownLocal (slot : Local)
  | unknownLabel (label : Label)
  | placedTwice (label : Label)
  | neverPlaced (label : Label)
  | openEnd
  deriving DecidableEq, Repr

def Flaw.reason : Flaw → String
  | .placeholder op => s!"unexpanded placeholder {op.render}"
  | .unknownLocal slot => s!"local l{slot} out of range"
  | .unknownLabel label => s!"label L{label} out of range"
  | .placedTwice label => s!"label L{label} placed twice"
  | .neverPlaced label => s!"label L{label} never placed"
  | .openEnd => "function does not end in a terminator"

/-- Whether the labels of one operation are sound, given those already placed. -/
def checkLabels (function : Function) (placed : List Label) (op : Op) : Except Flaw (List Label) :=
  match op with
  | .place label =>
    if function.labels ≤ label then .error (.unknownLabel label)
    else if placed.contains label then .error (.placedTwice label)
    else .ok (label :: placed)
  | .jump label | .branchIf _ label =>
    if function.labels ≤ label then .error (.unknownLabel label) else .ok placed
  | _ => .ok placed

/-- Checks one operation and yields the labels placed up to it. -/
def checkOp (function : Function) (placed : List Label) (op : Op) : Except Flaw (List Label) :=
  if op.isPlaceholder then .error (.placeholder op)
  else
    match op.locals.find? (function.locals.size ≤ ·) with
    | some slot => .error (.unknownLocal slot)
    | none => function.checkLabels placed op

/-- The lowest of `count` labels from `label` on that is not placed. -/
def firstUnplaced (placed : List Label) (label : Label) : Nat → Option Label
  | 0 => none
  | count + 1 => if placed.contains label then firstUnplaced placed (label + 1) count else some label

/-- The first flaw: operation by operation, then labels never placed, then the end. -/
def check (function : Function) : Except Flaw Unit := do
  let placed ← function.ops.toList.foldlM function.checkOp []
  match firstUnplaced placed 0 function.labels with
  | some label => throw (.neverPlaced label)
  | none => pure ()
  unless function.ops.back?.any Op.isTerminator do throw .openEnd

def validate (function : Function) : Except TranslationError Unit :=
  function.check.mapError fun flaw => .invalidIr function.name flaw.reason

def placement? (function : Function) (label : Label) : Option Nat :=
  function.ops.findIdx? (·.placed? == some label)

/-- The kinds of the locals, one letter each. -/
def localLetters (function : Function) : String :=
  String.ofList (function.locals.toList.map LocalKind.letter)

theorem firstUnplaced_eq_none_iff {placed : List Label} {label count : Nat} :
    firstUnplaced placed label count = none ↔
      ∀ other, label ≤ other → other < label + count → other ∈ placed := by
  induction count generalizing label with
  | zero =>
    simp only [firstUnplaced, true_iff]
    intro other low high
    omega
  | succ count ih =>
    simp only [firstUnplaced]
    split
    · next held =>
      rw [ih]
      constructor
      · intro rest other low high
        by_cases same : other = label
        · subst same
          simpa using held
        · exact rest other (by omega) (by omega)
      · intro all other low high
        exact all other (by omega) (by omega)
    · next missing =>
      simp only [reduceCtorEq, false_iff]
      intro all
      exact missing (by simpa using all label (Nat.le_refl _) (by omega))

end Function
end Dynarec.Ir
