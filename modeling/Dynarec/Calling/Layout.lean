import Dynarec.Calling.Value
import Dynarec.Text.Render

/-!
Where arguments travel: integers and flags in the first integer registers, vectors in the first vector
registers, each bank counted on its own. There are eight argument registers in a bank and none on a stack.
-/
namespace Dynarec.Calling

def maxArguments : Nat := 8

/-- The bank that carries arguments of a class. -/
def bank : RegisterClass → RegisterClass
  | .vector => .vector
  | .integer | .flag => .integer

/-- More arguments for one bank than it has registers. -/
structure TooManyArguments where
  cls : RegisterClass
  count : Nat
  deriving DecidableEq, Repr

def TooManyArguments.message (error : TooManyArguments) : String :=
  s!"{error.count} {error.cls.name} arguments do not fit in {maxArguments} registers"

structure Layout where
  registers : List Register := []
  deriving DecidableEq, Repr, Inhabited

namespace Layout

def load (classes : List RegisterClass) (cls : RegisterClass) : Nat :=
  classes.countP (bank · == bank cls)

/-- Registers for the classes still to come, when those before have theirs. -/
def assign (all before : List RegisterClass) : List RegisterClass → Except TooManyArguments (List Register)
  | [] => .ok []
  | cls :: rest =>
    let index := load before cls
    if maxArguments ≤ index then .error ⟨bank cls, load all cls⟩
    else do
      let registers ← assign all (before ++ [cls]) rest
      return .ofNat (bank cls) index :: registers

def ofClasses (classes : List RegisterClass) : Except TooManyArguments Layout :=
  (assign classes [] classes).map Layout.mk

def read (layout : Layout) (types : List ValueType) (regs : RegisterFile) : List Value :=
  (types.zip layout.registers).map fun (type, register) => Value.ofBits type (regs.read register)

/-- Puts arguments where a callee looks for them. -/
def write (layout : Layout) (values : List Value) (regs : RegisterFile) : RegisterFile :=
  regs.writeAll (layout.registers.zip (values.map Value.toBits))

def render (layout : Layout) : String :=
  Text.record "ArgLayout" [("registers", Text.list (layout.registers.map Register.render))]

theorem length_registers_of_ofClasses {classes : List RegisterClass} {layout : Layout}
    (ok : ofClasses classes = .ok layout) : layout.registers.length = classes.length := by
  have general : ∀ (rest before : List RegisterClass) (registers : List Register),
      assign classes before rest = .ok registers → registers.length = rest.length := by
    intro rest
    induction rest with
    | nil =>
      intro before registers found
      simp only [assign, Except.ok.injEq] at found
      simp [← found]
    | cons cls rest ih =>
      intro before registers found
      simp only [assign] at found
      split at found
      · simp at found
      · cases tail : assign classes (before ++ [cls]) rest with
        | error error => simp [tail, bind, Except.bind] at found
        | ok others =>
          simp only [tail, bind, Except.bind, pure, Except.pure, Except.ok.injEq] at found
          simp [← found, ih _ _ tail]
  unfold ofClasses at ok
  cases found : assign classes [] classes with
  | error error => simp [found, Except.map] at ok
  | ok registers =>
    simp only [found, Except.map, Except.ok.injEq] at ok
    simpa [← ok] using general _ _ _ found

end Layout
end Dynarec.Calling
