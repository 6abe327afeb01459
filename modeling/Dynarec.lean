import Dynarec.Backend.Helper
import Dynarec.Backend.Optimisation
import Dynarec.Config.Overrides
import Dynarec.Config.Reader
import Dynarec.Engine.GuestCall
import Dynarec.Notation.Calling
import Dynarec.Notation.Profile
import Dynarec.Notation.State
import Dynarec.Semantics.Guest
import Dynarec.Proofs.Emission.Growth
import Dynarec.Proofs.Emission.Pieces
import Dynarec.Proofs.Emission.Instruction
import Dynarec.Proofs.Emission.Graph
import Dynarec.Proofs.Emission.Layout
import Dynarec.Proofs.Emission.Callees
import Dynarec.Proofs.Emission.Validity
import Dynarec.Proofs.Interpreter.Agreement
import Dynarec.Proofs.Interpreter.Glide
import Dynarec.Proofs.Compilation.Tracking
import Dynarec.Proofs.Compilation.Instruction
import Dynarec.Proofs.Compilation.Transfer
import Dynarec.Semantics.Graph
import Dynarec.Proofs.Compilation.Block
import Dynarec.Proofs.Compilation.Prologue
import Dynarec.Proofs.Compilation.Graph
import Dynarec.Proofs.Register.LiveIn
import Dynarec.Proofs.Compilation.Simulation
import Dynarec.Proofs.Compilation.Builder
import Dynarec.Proofs.Cache.Callers
import Dynarec.Proofs.Cache.Entries
import Dynarec.Proofs.Cache.Lagging
import Dynarec.Proofs.Engine.Resolution
import Dynarec.Proofs.Engine.Dispatch
import Dynarec.Proofs.Engine.Evolution
import Dynarec.Proofs.Builder
import Dynarec.Proofs.Engine.Marks
import Dynarec.Proofs.Engine.Rebuilds
import Dynarec.Proofs.Semantics.Alike
import Dynarec.Proofs.Semantics.Steps
import Dynarec.Proofs.Compilation.Faithful
import Dynarec.Proofs.Cache.Publication
import Dynarec.Proofs.Engine.Verdict
import Dynarec.Proofs.Engine.Atomicity
import Dynarec.Proofs.Engine.Conservation
import Dynarec.Proofs.Engine.Instrumentation
import Dynarec.Proofs.Calling.RoundTrip
import Dynarec.Proofs.Engine.Lifecycle
import Dynarec.Proofs.Compilation.Discipline
import Dynarec.Proofs.Engine.Refinement
import Dynarec.Proofs.Interpreter.Safety
import Dynarec.Proofs.Memory.Mapping
import Dynarec.Proofs.Memory.Dirty
import Dynarec.Proofs.Engine.Handback
import Dynarec.Proofs.Memory.Wrapping
import Dynarec.Proofs.Engine.Registration
import Dynarec.Proofs.Interpreter.Nesting
import Dynarec.Proofs.Emission.Onward
import Dynarec.Proofs.Engine.Yielding
import Dynarec.Proofs.Emission.Attribution
import Dynarec.Proofs.Engine.Cancellation
import Dynarec.Proofs.Subroutine.Promotion
import Dynarec.Proofs.Calling.Banks
import Dynarec.Proofs.Profile.History
import Dynarec.Proofs.Emission.CallSites
import Dynarec.Proofs.Profile.Ranking
import Dynarec.Proofs.Memory.Atomic
import Dynarec.Proofs.Register.Masks
import Dynarec.Proofs.Emission.Body
import Dynarec.Proofs.Compilation.Arguments
