import Dynarec.Proofs.Guest.Removal
import Dynarec.Proofs.Semantics.Steps

/-!
Code whose host functions stand where instructions are scripted too. The guest machine does not come to instructions under
a host function, nor to anything at address 0; without them it runs as before.
-/
namespace Dynarec
namespace Semantics

/-- Where the guest machine comes to no instruction: at 0, and where there is a host function. -/
def Code.covers (code : Code) (address : UInt64) : Bool := address == 0 || (code.host address).isSome

/-- The code without what the guest machine does not come to. -/
def Code.bare (code : Code) : Code := ⟨code.program.without code.covers, Function.update code.host 0 none⟩

/-- Code as programs have it, which may have anything at 0 and host functions in the place of instructions. A row of
instructions is one block whatever has been registered, so that it would run on through what is covered; none does, and
each comes to an end. A direct transfer without a target has no meaning, and no block with one is built. -/
structure Code.Regular (code : Code) : Prop where
  named : ∀ address instruction, code.program.at? address = some instruction → instruction.Named
  tame : ∀ address layout function, code.host address = some (layout, function) → function.Tame
  ends : code.program.Ends
  skirts : code.program.Skirts code.covers

variable {code : Code}

theorem Code.covers_eq_false {address : UInt64} :
    code.covers address = false ↔ address ≠ 0 ∧ code.host address = none := by
  simp [Code.covers]

theorem Code.host_bare_zero : code.bare.host 0 = none := by
  simp only [Code.bare, Function.update_self]

theorem Code.host_bare {address : UInt64} (apart : address ≠ 0) : code.bare.host address = code.host address :=
  Function.update_of_ne apart ..

theorem Code.at?_bare {address : UInt64} (stays : code.covers address = false) :
    code.bare.program.at? address = code.program.at? address :=
  Guest.Program.at?_without_of_stays stays

theorem Code.Regular.plain (regular : code.Regular) : code.bare.Plain := by
  have held : ∀ {address : UInt64} {found : Calling.Layout × Calling.HostFunction},
      code.bare.host address = some found → code.host address = some found := by
    intro address found host
    by_cases zero : address = 0
    · subst zero
      cases Code.host_bare_zero.symm.trans host
    · exact (Code.host_bare zero).symm.trans host
  refine ⟨?_, ?_, ?_, ?_, ?_⟩
  · intro address instruction there
    exact regular.named address instruction (Guest.Program.at?_of_without there).2
  · intro address found host
    have covered : code.covers address = true := by simp [Code.covers, held host]
    exact (Guest.Program.at?_without ..).trans (if_pos covered)
  · intro address layout function host
    exact regular.tame address layout function (held host)
  · exact (Guest.Program.at?_without ..).trans (if_pos (by simp [Code.covers]))
  · exact Code.host_bare_zero

/-- Where there is no host function the machine runs what is scripted. -/
theorem step?_guest {state : State} {instruction : Guest.Instruction} (free : code.host state.address = none)
    (scripted : code.program.at? state.address = some instruction) : step? code state = execute? instruction state := by
  unfold step?
  rw [free, scripted]
  rfl

theorem step?_bare {state : State} (apart : state.address ≠ 0) : step? code.bare state = step? code state := by
  unfold step?
  rw [Code.host_bare apart]
  cases host : code.host state.address with
  | some found => rfl
  | none => rw [Code.at?_bare (Code.covers_eq_false.mpr ⟨apart, host⟩)]

theorem run_onward {state : State} {address : UInt64} {regs : RegisterFile} {world : World}
    (moves : step? code state = some ⟨address, regs, world⟩) (goesOn : address ≠ 0) (fuel : Nat) :
    run code (fuel + 1) state = run code fuel ⟨address, regs, world⟩ := by
  rw [run, moves]
  exact if_neg goesOn

theorem run_halted {state : State} {regs : RegisterFile} {world : World}
    (moves : step? code state = some ⟨0, regs, world⟩) (fuel : Nat) :
    run code (fuel + 1) state = some (.halted ⟨0, regs, world⟩) := by
  rw [run, moves]
  rfl

/-- A run is over where it comes to 0, so that it does not matter what is there. -/
theorem run_bare (fuel : Nat) {state : State} (apart : state.address ≠ 0) :
    run code.bare fuel state = run code fuel state := by
  induction fuel generalizing state with
  | zero => rfl
  | succ fuel ih =>
    rw [run, run, step?_bare apart]
    cases step? code state with
    | none => rfl
    | some next =>
      dsimp only
      split
      · rfl
      · next goesOn => exact ih goesOn

end Semantics
end Dynarec
