import EntityFeed.Binary64.Layout
import EntityFeed.Json.Basic

/-! Numbers in JSON text. A literal without point and exponent that fits 64 bits, with or without a
sign, is an integer. Every other one is read in two roundings: the leading digits that fit 64 bits
become a double, which a rounded power of ten then multiplies or divides. -/
namespace EntityFeed.Json

/-- Positional from `0.00001` up to sixteen digits before the point. -/
def numberLayout : Binary64.Layout := ⟨-5, 16⟩

structure Literal where
  negative : Bool
  whole : List Nat
  decimals : Option (List Nat)
  exponent : Option (Bool × List Nat)

def ofDigits (digits : List Nat) : Nat := digits.foldl (fun n d => 10 * n + d) 0

def digits? (cs : List Char) : Option (List Nat) :=
  if cs.isEmpty then none
  else cs.mapM fun c => if c.isDigit then some (c.toNat - 48) else none

def Literal.exponent? : List Char → Option (Bool × List Nat)
  | '-' :: rest => (digits? rest).map (true, ·)
  | '+' :: rest => (digits? rest).map (false, ·)
  | rest => (digits? rest).map (false, ·)

/-- Reads a literal; only `0` itself starts with a zero. -/
def Literal.read? (cs : List Char) : Option Literal := do
  let (negative, cs) := match cs with
    | '-' :: rest => (true, rest)
    | _ => (false, cs)
  let isExponent (c : Char) : Bool := c == 'e' || c == 'E'
  let mantissa := cs.takeWhile (!isExponent ·)
  let whole ← digits? (mantissa.takeWhile (· != '.'))
  guard (whole.length = 1 ∨ whole.head? ≠ some 0)
  let decimals ← match mantissa.dropWhile (· != '.') with
    | [] => some none
    | _ :: rest => (digits? rest).map some
  let exponent ← match cs.dropWhile (!isExponent ·) with
    | [] => some none
    | _ :: rest => (exponent? rest).map some
  return ⟨negative, whole, decimals, exponent⟩

/-- Appends digits to a significand while it fits 64 bits, and counts those appended. -/
def absorb (significand : Nat) : List Nat → Nat × Nat
  | [] => (significand, 0)
  | d :: rest =>
    if 10 * significand + d < Nat.pow 2 64 then
      let (s, n) := absorb (10 * significand + d) rest
      (s, n + 1)
    else (significand, 0)

def largestPower : Nat := 308

/-- `x * 10 ^ e`, in as many divisions by `10 ^ 308` as bring the exponent into range and one more
step; none if the result is too large. -/
def scaleByTen (x : Binary64) (e : Int) : Option Binary64 :=
  if 0 ≤ e then
    if e ≤ largestPower then
      let y := x.mul (Binary64.ofNat (Nat.pow 10 e.toNat))
      if y.isFinite then some y else none
    else if x.isZero then some x else none
  else if -(largestPower : Int) ≤ e then some (x.div (Binary64.ofNat (Nat.pow 10 (-e).toNat)))
  else if x.isZero then some x
  else scaleByTen (x.div (Binary64.ofNat (Nat.pow 10 largestPower))) (e + largestPower)
termination_by (-e).toNat
decreasing_by simp only [largestPower] at *; omega

/-- The floating-point reading of a literal; none if it is too large. -/
def Literal.float? (l : Literal) : Option Binary64 := do
  let (head, taken) := absorb 0 l.whole
  let (significand, used) := absorb head (l.decimals.getD [])
  let shift : Int := (l.whole.length : Int) - taken - used
  let x ← match l.exponent with
    | none => scaleByTen (Binary64.ofNat significand) shift
    | some (down, digits) =>
      let e := ofDigits digits
      if Nat.pow 2 31 ≤ e then
        if significand = 0 ∨ down then some (Binary64.ofNat 0) else none
      else scaleByTen (Binary64.ofNat significand) (if down then shift - e else shift + e)
  return if l.negative then x.neg else x

/-- The value of a literal; none if it is too large for a double. -/
def Literal.value? (l : Literal) : Option Json :=
  let n := ofDigits l.whole
  if l.decimals.isNone ∧ l.exponent.isNone ∧
      (if l.negative then 0 < n ∧ n ≤ Nat.pow 2 63 else n < Nat.pow 2 64) then
    some (.int (if l.negative then -n else n))
  else l.float?.map .float

end EntityFeed.Json
