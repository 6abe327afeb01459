import Dynarec.Ir.Op

/-!
Helpers that native code calls for what it does not do in place: memory accesses and linked calls. Each takes
the context first.
-/
namespace Dynarec

inductive Helper
  | read (width : Ir.Width)
  | write (width : Ir.Width)
  | readVector
  | writeVector
  | compareAndSwap
  | call
  deriving DecidableEq, Repr, Inhabited

namespace Helper

def all : List Helper :=
  Ir.Width.all.map .read ++ Ir.Width.all.map .write ++ [.readVector, .writeVector, .compareAndSwap, .call]

def name : Helper → String
  | .read width => s!"ReadU{width.bytes * 8}"
  | .write width => s!"WriteU{width.bytes * 8}"
  | .readVector => "ReadV128"
  | .writeVector => "WriteV128"
  | .compareAndSwap => "CompareAndSwap32"
  | .call => "CallSubroutine"

/-- The symbol that native code is linked against. -/
def symbol : Helper → String
  | .read width => s!"armada_rt_read_u{width.bytes * 8}"
  | .write width => s!"armada_rt_write_u{width.bytes * 8}"
  | .readVector => "armada_rt_read_v128"
  | .writeVector => "armada_rt_write_v128"
  | .compareAndSwap => "armada_rt_cas_u32"
  | .call => "armada_rt_call_subroutine"

/-- Parameters, the context among them. -/
def params : Helper → Nat
  | .read _ | .call => 2
  | .write _ | .readVector => 3
  | .writeVector | .compareAndSwap => 4

theorem mem_all (helper : Helper) : helper ∈ all := by
  rcases helper with ⟨⟨⟩⟩ | ⟨⟨⟩⟩ | _ | _ | _ | _ <;> decide

theorem nodup_all : all.Nodup := by decide

end Helper
end Dynarec
