/-!
Products of floating-point numbers given by their bit patterns. An operand that is no number is passed on with
its quiet bit set, the first one before the second; a product that has no value is the quiet pattern with the
sign set.
-/
namespace Dynarec.Calling.Product

/-- The exponent is all ones and the fraction is not zero. -/
def isNaN64 (bits : UInt64) : Bool := bits &&& 0x7fffffffffffffff > 0x7ff0000000000000

def isNaN32 (bits : UInt32) : Bool := bits &&& 0x7fffffff > 0x7f800000

def mul64 (lhs rhs : UInt64) : UInt64 :=
  if isNaN64 lhs then lhs ||| 0x0008000000000000
  else if isNaN64 rhs then rhs ||| 0x0008000000000000
  else
    let product := (Float.ofBits lhs * Float.ofBits rhs).toBits
    if isNaN64 product then 0xfff8000000000000 else product

def mul32 (lhs rhs : UInt32) : UInt32 :=
  if isNaN32 lhs then lhs ||| 0x00400000
  else if isNaN32 rhs then rhs ||| 0x00400000
  else
    let product := (Float32.ofBits lhs * Float32.ofBits rhs).toBits
    if isNaN32 product then 0xffc00000 else product

def ofWord32 (n : UInt32) : UInt64 := (Float.ofNat n.toNat).toBits

def half : UInt32 := 0x3f000000

end Dynarec.Calling.Product
