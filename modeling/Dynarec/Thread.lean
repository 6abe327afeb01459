import Dynarec.Register.File

/-!
A guest thread: its registers, the instruction set it is in, and the run flag that lets others stop it.
-/
namespace Dynarec

inductive Mode
  | aarch64 | aarch32Arm | aarch32Thumb
  deriving DecidableEq, Repr, Inhabited

def Mode.name : Mode → String
  | .aarch64 => "Aarch64" | .aarch32Arm => "Aarch32Arm" | .aarch32Thumb => "Aarch32Thumb"

def Mode.all : List Mode := [.aarch32Arm, .aarch32Thumb, .aarch64]

/-- What belongs to one guest thread alone. -/
structure Cpu where
  regs : RegisterFile := {}
  mode : Mode := .aarch64
  deriving DecidableEq, Inhabited

structure Thread extends Cpu where
  running : Bool := true
  deriving DecidableEq, Inhabited

namespace Thread

def stop (thread : Thread) : Thread := { thread with running := false }

def resume (thread : Thread) : Thread := { thread with running := true }

end Thread
end Dynarec
