/-!
Integer and vector arithmetic of the guest: every operation is total on machine words. Sums, differences
and products wrap, shift amounts count modulo 64, and the signed comparisons read both words in two's
complement.
-/
namespace Dynarec

/-- A 128-bit register or local. -/
abbrev Wide := BitVec 128

namespace Wide

def ofWord (word : UInt64) : Wide := BitVec.ofNat 128 word.toNat

def low (wide : Wide) : UInt64 := UInt64.ofNat wide.toNat

def high (wide : Wide) : UInt64 := UInt64.ofNat (wide.toNat >>> 64)

def pack (low high : UInt64) : Wide := BitVec.ofNat 128 (low.toNat + high.toNat * 0x10000000000000000)

theorem toNat_ofWord (word : UInt64) : (ofWord word).toNat = word.toNat := by
  have bound := word.toNat_lt
  simp only [ofWord, BitVec.toNat_ofNat]
  omega

theorem toNat_pack (low high : UInt64) :
    (pack low high).toNat = low.toNat + high.toNat * 0x10000000000000000 := by
  have lowBound := low.toNat_lt
  have highBound := high.toNat_lt
  simp only [pack, BitVec.toNat_ofNat]
  omega

@[simp] theorem low_ofWord (word : UInt64) : (ofWord word).low = word := by
  simp [low, toNat_ofWord]

@[simp] theorem low_pack (low high : UInt64) : (pack low high).low = low := by
  apply UInt64.toNat_inj.1
  have bound := low.toNat_lt
  simp only [Wide.low, toNat_pack, UInt64.toNat_ofNat']
  omega

@[simp] theorem high_pack (low high : UInt64) : (pack low high).high = high := by
  apply UInt64.toNat_inj.1
  have lowBound := low.toNat_lt
  have highBound := high.toNat_lt
  simp only [Wide.high, toNat_pack, UInt64.toNat_ofNat', Nat.shiftRight_eq_div_pow]
  omega

theorem pack_low_high (wide : Wide) : pack wide.low wide.high = wide := by
  apply BitVec.eq_of_toNat_eq
  have bound := wide.isLt
  simp only [toNat_pack, low, high, UInt64.toNat_ofNat', Nat.shiftRight_eq_div_pow]
  omega

end Wide

inductive BinaryOp
  | add | sub | mul | and | or | xor | shl | lshr | ashr
  deriving DecidableEq, Repr, Inhabited

inductive UnaryOp
  | not | neg
  deriving DecidableEq, Repr, Inhabited

inductive Cond
  | eq | ne | ult | ule | ugt | uge | slt | sle | sgt | sge
  deriving DecidableEq, Repr, Inhabited

/-- Bitwise operations on vectors, whatever their lanes. -/
inductive VectorOp
  | and | or | xor
  deriving DecidableEq, Repr, Inhabited

def BinaryOp.apply (op : BinaryOp) (lhs rhs : UInt64) : UInt64 :=
  match op with
  | .add => lhs + rhs
  | .sub => lhs - rhs
  | .mul => lhs * rhs
  | .and => lhs &&& rhs
  | .or => lhs ||| rhs
  | .xor => lhs ^^^ rhs
  | .shl => lhs <<< rhs
  | .lshr => lhs >>> rhs
  | .ashr => UInt64.ofBitVec (lhs.toBitVec.sshiftRight (rhs.toNat % 64))

def UnaryOp.apply : UnaryOp → UInt64 → UInt64
  | .not, word => ~~~word
  | .neg, word => 0 - word

def Cond.holds (cond : Cond) (lhs rhs : UInt64) : Bool :=
  match cond with
  | .eq => lhs == rhs
  | .ne => lhs != rhs
  | .ult => lhs < rhs
  | .ule => lhs ≤ rhs
  | .ugt => rhs < lhs
  | .uge => rhs ≤ lhs
  | .slt => lhs.toInt64 < rhs.toInt64
  | .sle => lhs.toInt64 ≤ rhs.toInt64
  | .sgt => rhs.toInt64 < lhs.toInt64
  | .sge => rhs.toInt64 ≤ lhs.toInt64

def VectorOp.apply : VectorOp → Wide → Wide → Wide
  | .and, lhs, rhs => lhs &&& rhs
  | .or, lhs, rhs => lhs ||| rhs
  | .xor, lhs, rhs => lhs ^^^ rhs

def BinaryOp.name : BinaryOp → String
  | .add => "Add" | .sub => "Sub" | .mul => "Mul" | .and => "And" | .or => "Or" | .xor => "Xor"
  | .shl => "Shl" | .lshr => "LShr" | .ashr => "AShr"

def UnaryOp.name : UnaryOp → String
  | .not => "Not" | .neg => "Neg"

def Cond.name : Cond → String
  | .eq => "Eq" | .ne => "Ne" | .ult => "ULt" | .ule => "ULe" | .ugt => "UGt" | .uge => "UGe"
  | .slt => "SLt" | .sle => "SLe" | .sgt => "SGt" | .sge => "SGe"

def VectorOp.name : VectorOp → String
  | .and => "And" | .or => "Or" | .xor => "Xor"

def BinaryOp.all : List BinaryOp := [.add, .sub, .mul, .and, .or, .xor, .shl, .lshr, .ashr]

def UnaryOp.all : List UnaryOp := [.not, .neg]

def Cond.all : List Cond := [.eq, .ne, .ult, .ule, .ugt, .uge, .slt, .sle, .sgt, .sge]

def VectorOp.all : List VectorOp := [.and, .or, .xor]

/-- Left shifts count modulo the width. -/
theorem apply_shl_mod (lhs rhs : UInt64) :
    BinaryOp.shl.apply lhs rhs = BinaryOp.shl.apply lhs (rhs % 64) := by
  apply UInt64.toBitVec_inj.1
  simp [BinaryOp.apply]

end Dynarec
