import Dynarec.Proofs.Interpreter.Comes
import Dynarec.Proofs.Interpreter.Locals

/-!
Flags stay 0 or 1. Code stores flags as bits, host code leaves its result elsewhere, and probes touch integer registers
alone, so that no run makes any other flag, whatever it calls.
-/
namespace Dynarec

/-- Every flag is 0 or 1. -/
def RegisterFile.Clean (file : RegisterFile) : Prop := ∀ index : Fin 32, file.flags[index] ≤ 1

namespace RegisterFile

variable {file : RegisterFile}

theorem Clean.write (clean : file.Clean) (register : Register) (bits : Wide) : (file.write register bits).Clean := by
  obtain ⟨cls, written⟩ := register
  cases cls with
  | integer => exact clean
  | vector => exact clean
  | flag =>
    intro index
    simp only [RegisterFile.write, Fin.getElem_fin, Vector.getElem_set]
    split
    · rw [UInt8.le_iff_toNat_le, UInt8.toNat_ofNat']
      have small : bits.toNat % 2 < 2 := Nat.mod_lt _ (by omega)
      have one : (1 : UInt8).toNat = 1 := rfl
      omega
    · exact clean index

theorem Clean.setWordAt (clean : file.Clean) {index : Nat} {word : UInt64} {after : RegisterFile}
    (ok : file.setWordAt index word = .ok after) : after.Clean := by
  unfold RegisterFile.setWordAt at ok
  split at ok
  · cases ok
    exact clean
  · cases ok

end RegisterFile

namespace Interpreter
open Effect

/-- Calls that keep flags clean. -/
def CallsClean (call : UInt64 → Context → Outcome (UInt64 × Context)) : Prop :=
  ∀ target context word after, context.regs.Clean → call target context = .ok (word, after) → after.regs.Clean

variable {cache : Cache} {call : UInt64 → Context → Outcome (UInt64 × Context)} {function : Ir.Function}
  {args : List UInt64} {frame next : Frame} {context after : Context}

theorem Goes.clean {op : Ir.Op} (goes : Goes call function op frame next context after) (calls : CallsClean call)
    (clean : context.regs.Clean) : after.regs.Clean := by
  rcases goes.regs with same | ⟨register, wide, stored⟩ | ⟨target, word, middle, called, same⟩
  · rwa [same]
  · rw [stored]
    exact clean.write register wide
  · rw [same]
    exact calls target context word middle clean called

theorem clean_step (calls : CallsClean call) (ok : step call function args frame context = .ok (.next next after))
    (clean : context.regs.Clean) : after.regs.Clean := by
  obtain ⟨op, _, goes⟩ := goes_step ok
  exact goes.clean calls clean

theorem clean_enter {host : Calling.HostFunction} {layout : Calling.Layout} {regs left : RegisterFile}
    {world worldAfter : World} {word : UInt64} (clean : regs.Clean)
    (ok : host.enter layout regs world = .ok (word, left, worldAfter)) : left.Clean := by
  obtain ⟨⟨result, _⟩, _, ok⟩ := of_bind ok
  cases ok
  cases result with
  | none => exact clean
  | some value => exact clean.write _ _

theorem clean_link {run : Activation → Context → Outcome (UInt64 × Context)}
    (runs : ∀ activation context word after, context.regs.Clean → run activation context = .ok (word, after) →
      after.regs.Clean) : CallsClean (link cache run) := by
  intro target context word after clean ok
  unfold link at ok
  split at ok
  · cases ok
    exact clean
  · split at ok
    · cases ok
      exact clean
    · obtain ⟨⟨_, left⟩, ran, ok⟩ := of_bind ok
      cases ok
      exact runs _ { context with depth := context.depth + 1 } _ left clean ran

theorem of_register {α : Type} {result : Except BadIndex α} {value : α}
    (ok : Outcome.ofRegister result = .ok value) : result = .ok value := by
  cases result with
  | error => cases ok
  | ok found =>
    cases ok
    rfl

theorem clean_answer (calls : CallsClean call) {probe : Probe} {word : UInt64} (clean : context.regs.Clean)
    (ok : answer cache call args context probe = .ok (word, after)) : after.regs.Clean := by
  cases probe with
  | call target => exact calls target context word after clean ok
  | load address =>
    obtain ⟨⟨_, loaded⟩, found, ok⟩ := of_bind ok
    cases ok
    rw [(load_keeps found).2]
    exact clean
  | increment index =>
    obtain ⟨_, _, ok⟩ := of_bind ok
    obtain ⟨regs, set, ok⟩ := of_bind ok
    cases ok
    exact clean.setWordAt (of_register set)
  | const value | arg index | args | depth | known address =>
    cases ok
    exact clean

theorem clean_exec (fuel : Nat) (activation : Activation) {word : UInt64} (clean : context.regs.Clean)
    (ok : exec cache fuel activation context = .ok (word, after)) : after.regs.Clean := by
  induction fuel generalizing activation context word after with
  | zero => cases ok
  | succ fuel ih =>
    have calls : CallsClean (link cache (exec cache fuel)) :=
      clean_link fun activation _ _ _ clean ok => ih activation clean ok
    cases activation with
    | compiled function args frame =>
      rw [exec] at ok
      split at ok
      · next stepped => exact ih _ (clean_step calls stepped clean) ok
      · next stepped =>
        cases ok
        rwa [step_done stepped]
      · cases ok
    | thunk layout host =>
      obtain ⟨⟨_, _, _⟩, entered, ok⟩ := of_bind ok
      cases ok
      exact clean_enter clean entered
    | probe probe args => exact clean_answer calls clean ok

/-- Flags are clean in all code that a run comes to, if they were at its start. -/
theorem Comes.clean {first activation : Activation} {start : Context}
    (comes : Comes cache first start activation context) (clean : start.regs.Clean) : context.regs.Clean := by
  induction comes with
  | start => exact clean
  | @step fuel _ _ _ _ _ _ _ moves ih =>
    exact clean_step (clean_link fun activation _ _ _ => clean_exec fuel activation) moves ih
  | enter _ _ _ _ ih => exact ih

end Interpreter
end Dynarec
