/-!
Trace subscribers. Each is told of every address before it is dispatched, in the order the subscribers were
added, and may fail or cancel the thread that ran when it was added; a failure keeps the subscribers after it from
being told.
-/
namespace Dynarec

inductive Reaction
  | proceed
  | cancel
  | fail (reason : String)
  deriving DecidableEq, Repr, Inhabited

structure Subscriber where
  /-- What to do at an address, given those before it. -/
  react : Array UInt64 → UInt64 → Reaction
  seen : Array UInt64 := #[]
  deriving Inhabited

namespace Subscriber

def recorder : Subscriber := { react := fun _ _ => .proceed }

def failingAt (address : UInt64) (reason : String) : Subscriber :=
  { react := fun _ current => if current = address then .fail reason else .proceed }

/-- Cancels at the `count`-th address it is told of. -/
def cancellingAfter (count : Nat) : Subscriber :=
  { react := fun seen _ => if seen.size + 1 = count then .cancel else .proceed }

/-- The subscriber once its thread has gone: nothing is left for it to cancel. -/
def outlive (subscriber : Subscriber) : Subscriber :=
  { subscriber with
    react := fun seen address =>
      match subscriber.react seen address with
      | .cancel => .proceed
      | reaction => reaction }

structure Verdict where
  failure : Option String := none
  cancelled : Bool := false
  deriving DecidableEq, Repr, Inhabited

def tell (address : UInt64) : List Subscriber → Verdict × List Subscriber
  | [] => ({}, [])
  | subscriber :: rest =>
    let told := { subscriber with seen := subscriber.seen.push address }
    match subscriber.react subscriber.seen address with
    | .fail reason => ({ failure := some reason }, told :: rest)
    | .proceed =>
      let (verdict, rest) := tell address rest
      (verdict, told :: rest)
    | .cancel =>
      let (verdict, rest) := tell address rest
      ({ verdict with cancelled := true }, told :: rest)

theorem length_tell (address : UInt64) (subscribers : List Subscriber) :
    (tell address subscribers).2.length = subscribers.length := by
  induction subscribers with
  | nil => rfl
  | cons subscriber rest ih =>
    simp only [tell]
    split <;> simp [ih]

end Subscriber
end Dynarec
