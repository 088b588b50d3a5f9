/-! Double-precision numbers, held as their 64 bits. A finite one is a significand times a power of
two, and every operation here is exact on that form and rounds once, to nearest with ties to the
even significand. -/
namespace EntityFeed

structure Binary64 where
  bits : UInt64
  deriving DecidableEq, Inhabited

namespace Binary64

def negative (x : Binary64) : Bool := Nat.pow 2 63 ≤ x.bits.toNat

/-- The bits without the sign. Among numbers of one sign they are in the order of the values. -/
def magnitude (x : Binary64) : Nat := x.bits.toNat % Nat.pow 2 63

def exponentField (x : Binary64) : Nat := x.magnitude / Nat.pow 2 52

def fraction (x : Binary64) : Nat := x.magnitude % Nat.pow 2 52

def isFinite (x : Binary64) : Bool := x.exponentField < 0x7FF

def isZero (x : Binary64) : Bool := x.magnitude == 0

def isNaN (x : Binary64) : Bool := !x.isFinite && x.fraction != 0

/-- A finite number is `significand * 2 ^ exponent` up to its sign. -/
def significand (x : Binary64) : Nat :=
  if x.exponentField = 0 then x.fraction else Nat.pow 2 52 + x.fraction

def exponent (x : Binary64) : Int := (max 1 x.exponentField : Nat) - 1075

def ofMagnitude (negative : Bool) (magnitude : Nat) : Binary64 :=
  ⟨UInt64.ofNat (if negative then Nat.pow 2 63 + magnitude else magnitude)⟩

def infinite : Nat := 0x7FF * Nat.pow 2 52

/-- The integer nearest to a quotient, of two the even one. -/
def roundDiv (num den : Nat) : Nat :=
  let q := num / den
  let r := num % den
  if 2 * r < den ∨ (2 * r = den ∧ q % 2 = 0) then q else q + 1

/-- The quotient divided by `2 ^ e`, again as a quotient. -/
def scaled (num den : Nat) (e : Int) : Nat × Nat :=
  if 0 ≤ e then (num, den * Nat.pow 2 e.toNat) else (num * Nat.pow 2 (-e).toNat, den)

/-- The exponent at which the quotient has a significand of 53 bits, or the least one there is. -/
def roundingExponent (num den : Nat) : Int :=
  let below : Int := (Nat.log2 num : Int) - Nat.log2 den - 53
  let (n, d) := scaled num den below
  max (-1074) (if Nat.pow 2 53 ≤ n / d then below + 1 else below)

/-- The magnitude nearest to `num / den`. A significand that rounds up to 54 bits carries into the
exponent by itself. -/
def nearest (num den : Nat) : Nat :=
  if num = 0 then 0
  else
    let e := roundingExponent num den
    let (n, d) := scaled num den e
    min infinite ((e + 1074).toNat * Nat.pow 2 52 + roundDiv n d)

/-- The number nearest to `num / den * 2 ^ e`. -/
def ofScaled (negative : Bool) (num den : Nat) (e : Int) : Binary64 :=
  let (n, d) := scaled num den (-e)
  ofMagnitude negative (nearest n d)

def ofNat (n : Nat) : Binary64 := ofMagnitude false (nearest n 1)

def mul (x y : Binary64) : Binary64 :=
  ofScaled (x.negative != y.negative) (x.significand * y.significand) 1 (x.exponent + y.exponent)

/-- The quotient of two finite numbers, rounded once; the divisor is not zero. -/
def div (x y : Binary64) : Binary64 :=
  ofScaled (x.negative != y.negative) x.significand y.significand (x.exponent - y.exponent)

def neg (x : Binary64) : Binary64 := ofMagnitude (!x.negative) x.magnitude

/-- Numerical equality: both zeros are one number, and what is no number equals nothing. -/
def same (x y : Binary64) : Bool :=
  !x.isNaN && !y.isNaN && (x.bits == y.bits || (x.isZero && y.isZero))

/-- The single-precision number with these bits, which is a double too; none if it is not finite. -/
def ofSingle? (bits : UInt32) : Option Binary64 :=
  let n := bits.toNat
  let field := n / Nat.pow 2 23 % Nat.pow 2 8
  let fraction := n % Nat.pow 2 23
  if field = 0xFF then none
  else
    let significand := if field = 0 then fraction else Nat.pow 2 23 + fraction
    some (ofScaled (Nat.pow 2 31 ≤ n) significand 1 ((max 1 field : Nat) - 150))

example : ofNat 1 = ⟨0x3FF0000000000000⟩ := by decide +kernel
example : (ofNat 1).div (ofNat 10) = ⟨0x3FB999999999999A⟩ := by decide +kernel
example : ofNat (2 ^ 53 + 1) = ofNat (2 ^ 53) := by decide +kernel
example : ofSingle? 0x3FC00000 = some ((ofNat 3).div (ofNat 2)) := by decide +kernel

end Binary64
end EntityFeed
