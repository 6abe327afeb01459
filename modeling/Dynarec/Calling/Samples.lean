import Dynarec.Calling.Host
import Dynarec.Calling.Product

/-!
A small set of host functions: arithmetic of every value type, access to guest memory, the world's count, and
the cancellation of the running thread.
-/
namespace Dynarec.Calling.Samples

/-- A function that looks at its arguments alone. -/
def plain (name : String) (params : List ValueType) (result : ValueType) (apply : List Value → Option Value) :
    HostFunction :=
  ⟨name, ⟨params, some result⟩, fun values world => .ok (apply values, world)⟩

def sum : HostFunction := plain "sum" [.u64, .u64] .u64 fun
  | [.u64 a, .u64 b] => some (.u64 (a + b))
  | _ => none

def addi32 : HostFunction := plain "addi32" [.u64, .i32] .u64 fun
  | [.u64 a, .i32 b] => some (.u64 (a + b.toInt64.toUInt64))
  | _ => none

def scale : HostFunction := plain "scale" [.f64, .u32] .f64 fun
  | [.f64 a, .u32 b] => some (.f64 (Product.mul64 a (Product.ofWord32 b)))
  | _ => none

def half : HostFunction := plain "half" [.f32] .f32 fun
  | [.f32 a] => some (.f32 (Product.mul32 a Product.half))
  | _ => none

def idU8 : HostFunction := plain "id_u8" [.u8] .u8 fun
  | [.u8 a] => some (.u8 a)
  | _ => none

def negI16 : HostFunction := plain "neg_i16" [.i16] .i16 fun
  | [.i16 a] => some (.i16 (-a))
  | _ => none

def not : HostFunction := plain "not" [.bool] .bool fun
  | [.bool a] => some (.bool !a)
  | _ => none

def vswap : HostFunction := plain "vswap" [.v128] .v128 fun
  | [.v128 a] => some (.v128 (Wide.pack a.high a.low))
  | _ => none

def vpack : HostFunction := plain "vpack" [.u64, .u64] .v128 fun
  | [.u64 low, .u64 high] => some (.v128 (Wide.pack low high))
  | _ => none

/-- Each argument times its position, counted from one. -/
def sum8 : HostFunction := plain "sum8" (List.replicate 8 .u64) .u64 fun values =>
  some (.u64 ((values.zipIdx 1).foldl
    (fun total (value, index) => total + value.toBits.low * UInt64.ofNat index) 0))

def mix : HostFunction := plain "mix" [.i8, .f32, .bool, .u64, .f64, .v128] .u64 fun
  | [.i8 a, .f32 b, .bool c, .u64 d, .f64 e, .v128 f] =>
    some (.u64 (a.toInt64.toUInt64 ^^^ b.toUInt64 ^^^ ((if c then (1 : UInt64) else 0) <<< 63) ^^^ d ^^^ e
      ^^^ f.low ^^^ f.high))
  | _ => none

def noop : HostFunction := ⟨"noop", {}, fun _ world => .ok (none, world)⟩

def count : HostFunction :=
  ⟨"count", ⟨[], some .u64⟩, fun _ world =>
    .ok (some (.u64 (world.count + 1)), { world with count := world.count + 1 })⟩

def cancel : HostFunction := ⟨"cancel", {}, fun _ world => .ok (none, { world with running := false })⟩

def poke : HostFunction :=
  ⟨"poke", ⟨[.u64, .u16], none⟩, fun values world =>
    match values with
    | [.u64 address, .u16 value] => .ok (none, world.writeNat address 2 value.toNat)
    | _ => .ok (none, world)⟩

def peek : HostFunction :=
  ⟨"peek", ⟨[.u64], some .u32⟩, fun values world =>
    match values with
    | [.u64 address] => do
      let (found, world) := world.readNat address 4
      let word ← Outcome.ofAccess found
      return (some (.u32 (UInt32.ofNat word)), world)
    | _ => .ok (none, world)⟩

def all : List HostFunction :=
  [sum, addi32, scale, half, noop, idU8, negI16, not, vswap, vpack, sum8, mix, count, cancel, poke, peek]

def find? (name : String) : Option HostFunction := all.find? (·.name == name)

end Dynarec.Calling.Samples
