/-!
What is kept for one subroutine address. Each time is that of the first observation that carries it; the
count grows with every observation.
-/
namespace Dynarec.Profile

structure SubroutineTimes where
  tier0 : Option Nat := none
  tier1 : Option Nat := none
  /-- Spent in the code backend. -/
  backend : Option Nat := none
  execution : Option Nat := none
  count : Nat := 0
  deriving DecidableEq, Repr, Inhabited

namespace SubroutineTimes

def observe (tier0 tier1 backend execution : Option Nat) : SubroutineTimes :=
  ⟨tier0, tier1, backend, execution, 1⟩

/-- Adds an observation; how many it counts for itself does not matter. -/
def merge (times observation : SubroutineTimes) : SubroutineTimes :=
  { tier0 := times.tier0 <|> observation.tier0
    tier1 := times.tier1 <|> observation.tier1
    backend := times.backend <|> observation.backend
    execution := times.execution <|> observation.execution
    count := times.count + 1 }

end SubroutineTimes
end Dynarec.Profile
