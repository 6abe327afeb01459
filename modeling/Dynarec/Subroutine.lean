import Dynarec.Calling.Host
import Dynarec.Ir.Function
import Dynarec.Subroutine.Promotion
import Dynarec.Text.Quoted

/-!
Translated subroutines: code for one entry address together with what the dispatcher and the cache need to
know of it, namely its parameters, the addresses it calls, those of them it calls in place, and its promotion.
-/
namespace Dynarec

/-- Code that answers one question about the context it is run in. -/
inductive Probe
  | const (value : UInt64)
  /-- Makes a linked call and yields its next address. -/
  | call (target : UInt64)
  /-- Yields an argument word, or `0xdead` when there is none. -/
  | arg (index : Nat)
  | args
  | depth
  /-- Yields 1 when the cache has an entry, else 0. -/
  | known (address : UInt64)
  | load (address : UInt64)
  /-- Adds one to an integer register and yields the sum. -/
  | increment (index : Nat)
  deriving DecidableEq, Repr, Inhabited

inductive Code
  | compiled (function : Ir.Function)
  | thunk (layout : Calling.Layout) (function : Calling.HostFunction)
  | probe (probe : Probe)
  deriving Inhabited

structure Subroutine where
  entry : UInt64
  name : String
  tier : Tier
  params : List Register := []
  code : Code
  callees : List UInt64 := []
  linked : List UInt64 := []
  generatedOps : Nat := 0
  threshold : Nat
  isHost : Bool := false
  promotion : Promotion := .start tier
  deriving Inhabited

namespace Subroutine

def nameOf (address : UInt64) : String := "Sub" ++ Text.hexPadded 16 address.toNat

/-- Host code counts as tier 1 and is never rebuilt. -/
def host (entry : UInt64) (name : String) (params : List Register) (code : Code) : Subroutine :=
  { entry, name, tier := .tier1, params, code, threshold := 0xffffffff, isHost := true }

/-- Code of no instructions that hands control back at once. -/
def stub (entry : UInt64) (tier : Tier) : Subroutine :=
  { entry, name := nameOf entry, tier, code := .probe (.const 0), threshold := ({} : Config).threshold }

/-- Code from a function that was checked elsewhere, with the defaults for the rest. -/
def ofFunction (entry : UInt64) (tier : Tier) (function : Ir.Function) : Subroutine :=
  { stub entry tier with
    name := function.name, params := function.params, code := .compiled function
    generatedOps := function.ops.size }

/-- Host code that runs a function; it reads its arguments and the link register. -/
def thunk (entry : UInt64) (function : Calling.HostFunction) :
    Except Calling.TooManyArguments Subroutine := do
  let layout ← Calling.Layout.ofClasses function.signature.classes
  return host entry function.name (layout.registers ++ [.link]) (.thunk layout function)

def linksTo (subroutine : Subroutine) (address : UInt64) : Bool := subroutine.linked.contains address

def arguments (subroutine : Subroutine) (regs : RegisterFile) : List UInt64 :=
  subroutine.params.flatMap regs.words

def checkPromotion (subroutine : Subroutine) : Bool × Subroutine :=
  let (due, promotion) := subroutine.promotion.check subroutine.threshold
  (due, { subroutine with promotion })

/-- Asks for a rebuild; host code is left alone. -/
def markForRejit (subroutine : Subroutine) : Subroutine :=
  if subroutine.isHost then subroutine else { subroutine with promotion := subroutine.promotion.mark }

def render (subroutine : Subroutine) : String :=
  Text.partialRecord "TranslatedSubroutine"
    [("entry", Text.hex subroutine.entry.toNat), ("name", Text.Quoted.render subroutine.name),
      ("tier", subroutine.tier.name), ("state", subroutine.promotion.stage.name),
      ("params", Text.list (subroutine.params.map Register.render)),
      ("callees", Text.list (subroutine.callees.map toString))]

@[simp] theorem tier_markForRejit (subroutine : Subroutine) :
    subroutine.markForRejit.tier = subroutine.tier := by
  unfold markForRejit; split <;> rfl

@[simp] theorem callees_markForRejit (subroutine : Subroutine) :
    subroutine.markForRejit.callees = subroutine.callees := by
  unfold markForRejit; split <;> rfl

@[simp] theorem tier_checkPromotion (subroutine : Subroutine) :
    subroutine.checkPromotion.2.tier = subroutine.tier := rfl

@[simp] theorem callees_checkPromotion (subroutine : Subroutine) :
    subroutine.checkPromotion.2.callees = subroutine.callees := rfl

end Subroutine
end Dynarec
