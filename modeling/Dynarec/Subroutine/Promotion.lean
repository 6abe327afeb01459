/-!
Tiers and the promotion of a subroutine. Tier-0 code counts the checks made on it and asks for a rebuild once
it has been checked as often as the threshold says; code of either tier asks for one after it was marked. Host
code never asks.
-/
namespace Dynarec

inductive Tier
  /-- One basic block, built quickly. -/
  | tier0
  /-- All blocks that can be reached, with linked calls. -/
  | tier1
  deriving DecidableEq, Repr, Inhabited

def Tier.name : Tier → String
  | .tier0 => "Tier0" | .tier1 => "Tier1"

/-- Where a subroutine stands on its way to a rebuild. -/
inductive Stage
  | tier0 | pending | tier1
  deriving DecidableEq, Repr, Inhabited

def Stage.name : Stage → String
  | .tier0 => "Tier0" | .pending => "PendingPromotion" | .tier1 => "Tier1"

def Stage.of : Tier → Stage
  | .tier0 => .tier0
  | .tier1 => .tier1

structure Promotion where
  stage : Stage
  dispatches : Nat := 0
  deriving DecidableEq, Repr, Inhabited

namespace Promotion

def start (tier : Tier) : Promotion := { stage := .of tier }

def check (threshold : Nat) (promotion : Promotion) : Bool × Promotion :=
  match promotion.stage with
  | .pending => (true, promotion)
  | .tier1 => (false, promotion)
  | .tier0 =>
    let due := threshold ≤ promotion.dispatches
    (due, ⟨if due then .pending else .tier0, promotion.dispatches + 1⟩)

def mark (promotion : Promotion) : Promotion := { promotion with stage := .pending }

@[simp] theorem check_mark (threshold : Nat) (promotion : Promotion) :
    promotion.mark.check threshold = (true, promotion.mark) := rfl

@[simp] theorem mark_mark (promotion : Promotion) : promotion.mark.mark = promotion.mark := rfl

theorem stage_check_eq_pending_of_due {threshold : Nat} {promotion : Promotion}
    (due : (promotion.check threshold).1 = true) : (promotion.check threshold).2.stage = .pending := by
  unfold check at due ⊢
  split <;> simp_all

end Promotion
end Dynarec
