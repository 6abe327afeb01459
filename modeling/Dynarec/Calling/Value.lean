import Dynarec.Register.File

/-!
Values that cross between host and guest. Each travels in one register: integers and truth values in an
integer register, widened to 64 bits by their own sign, floating-point numbers and vectors in a vector
register. Floating-point numbers are their bit patterns.
-/
namespace Dynarec.Calling

inductive ValueType
  | u8 | u16 | u32 | u64 | i8 | i16 | i32 | i64 | bool | f32 | f64 | v128
  deriving DecidableEq, Repr, Inhabited

namespace ValueType

def all : List ValueType := [.u8, .u16, .u32, .u64, .i8, .i16, .i32, .i64, .bool, .f32, .f64, .v128]

def name : ValueType → String
  | .u8 => "u8" | .u16 => "u16" | .u32 => "u32" | .u64 => "u64"
  | .i8 => "i8" | .i16 => "i16" | .i32 => "i32" | .i64 => "i64"
  | .bool => "bool" | .f32 => "f32" | .f64 => "f64" | .v128 => "v128"

def ofName? (name : String) : Option ValueType := all.find? (·.name == name)

def cls : ValueType → RegisterClass
  | .f32 | .f64 | .v128 => .vector
  | _ => .integer

end ValueType

inductive Value
  | u8 (value : UInt8)
  | u16 (value : UInt16)
  | u32 (value : UInt32)
  | u64 (value : UInt64)
  | i8 (value : Int8)
  | i16 (value : Int16)
  | i32 (value : Int32)
  | i64 (value : Int64)
  | bool (value : Bool)
  | f32 (bits : UInt32)
  | f64 (bits : UInt64)
  | v128 (bits : Wide)
  deriving DecidableEq, Inhabited

namespace Value

def type : Value → ValueType
  | .u8 _ => .u8 | .u16 _ => .u16 | .u32 _ => .u32 | .u64 _ => .u64
  | .i8 _ => .i8 | .i16 _ => .i16 | .i32 _ => .i32 | .i64 _ => .i64
  | .bool _ => .bool | .f32 _ => .f32 | .f64 _ => .f64 | .v128 _ => .v128

def toBits : Value → Wide
  | .u8 value => .ofWord value.toUInt64
  | .u16 value => .ofWord value.toUInt64
  | .u32 value => .ofWord value.toUInt64
  | .u64 value => .ofWord value
  | .i8 value => .ofWord value.toInt64.toUInt64
  | .i16 value => .ofWord value.toInt64.toUInt64
  | .i32 value => .ofWord value.toInt64.toUInt64
  | .i64 value => .ofWord value.toUInt64
  | .bool value => .ofWord (if value then 1 else 0)
  | .f32 bits => .ofWord bits.toUInt64
  | .f64 bits => .ofWord bits
  | .v128 bits => bits

/-- The value register bits stand for; bits past its width are ignored. A truth value looks at one byte. -/
def ofBits (type : ValueType) (bits : Wide) : Value :=
  match type with
  | .u8 => .u8 bits.low.toUInt8
  | .u16 => .u16 bits.low.toUInt16
  | .u32 => .u32 bits.low.toUInt32
  | .u64 => .u64 bits.low
  | .i8 => .i8 bits.low.toInt64.toInt8
  | .i16 => .i16 bits.low.toInt64.toInt16
  | .i32 => .i32 bits.low.toInt64.toInt32
  | .i64 => .i64 bits.low.toInt64
  | .bool => .bool (bits.low.toUInt8 != 0)
  | .f32 => .f32 bits.low.toUInt32
  | .f64 => .f64 bits.low
  | .v128 => .v128 bits

def resultRegister (type : ValueType) : Register := .ofNat type.cls 0

/-- Leaves a result where a caller expects it; no result leaves the registers alone. -/
def store (result : Option Value) (regs : RegisterFile) : RegisterFile :=
  match result with
  | none => regs
  | some value => regs.write (resultRegister value.type) value.toBits

def load (type : Option ValueType) (regs : RegisterFile) : Option Value :=
  type.map fun type => ofBits type (regs.read (resultRegister type))

@[simp] theorem type_ofBits (type : ValueType) (bits : Wide) : (ofBits type bits).type = type := by
  cases type <;> rfl

theorem ofBits_toBits (value : Value) : ofBits value.type value.toBits = value := by
  cases value with
  | bool value => cases value <;> rfl
  | u8 value => simp [ofBits, toBits, type]
  | u16 value => simp [ofBits, toBits, type]
  | u32 value => simp [ofBits, toBits, type]
  | u64 value => simp [ofBits, toBits, type]
  | i8 value => simp [ofBits, toBits, type]
  | i16 value => simp [ofBits, toBits, type]
  | i32 value => simp [ofBits, toBits, type]
  | i64 value => simp [ofBits, toBits, type]
  | f32 bits => simp [ofBits, toBits, type]
  | f64 bits => simp [ofBits, toBits, type]
  | v128 bits => rfl

end Value
end Dynarec.Calling
