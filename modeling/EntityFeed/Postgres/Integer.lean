/-! The integer types of the database: their range, their decimal text and their bytes, which are
big-endian in two's complement. -/
namespace EntityFeed.Postgres

inductive IntegerType where
  | int2
  | int4
  | int8
  deriving DecidableEq, Repr

/-- Why a text is no integer of a type. -/
inductive IntegerFault where
  | empty
  | invalidDigit
  | tooLarge
  | tooSmall
  deriving DecidableEq, Repr

def IntegerFault.message : IntegerFault → String
  | empty => "cannot parse integer from empty string"
  | invalidDigit => "invalid digit found in string"
  | tooLarge => "number too large to fit in target type"
  | tooSmall => "number too small to fit in target type"

/-- The number that some bytes denote, the most significant of them first. -/
def ofBigEndian (bytes : List UInt8) : Nat := bytes.foldl (fun n b => 256 * n + b.toNat) 0

/-- The lowest `count` bytes of a number. -/
def bigEndian : Nat → Nat → List UInt8
  | 0, _ => []
  | count + 1, n => bigEndian count (n / 256) ++ [UInt8.ofNat n]

@[simp] theorem length_bigEndian (count n : Nat) : (bigEndian count n).length = count := by
  induction count generalizing n with
  | zero => rfl
  | succ count ih => simp [bigEndian, ih]

theorem ofBigEndian_bigEndian (count n : Nat) :
    ofBigEndian (bigEndian count n) = n % Nat.pow 256 count := by
  induction count generalizing n with
  | zero => exact (Nat.mod_one n).symm
  | succ count ih =>
    have := ih (n / 256)
    simp only [ofBigEndian] at this
    simp only [bigEndian, ofBigEndian, List.foldl_append, List.foldl_cons, List.foldl_nil, this,
      UInt8.toNat_ofNat']
    have power : Nat.pow 256 (count + 1) = 256 * Nat.pow 256 count := Nat.mul_comm _ _
    rw [power, Nat.mod_mul]
    omega

namespace IntegerType

def name : IntegerType → String
  | int2 => "int2"
  | int4 => "int4"
  | int8 => "int8"

def width : IntegerType → Nat
  | int2 => 2
  | int4 => 4
  | int8 => 8

/-- Half of how many numbers there are: the least is `-bound` and the greatest `bound - 1`. -/
def bound (t : IntegerType) : Nat := Nat.pow 2 (8 * t.width - 1)

def holds (t : IntegerType) (i : Int) : Bool := -(t.bound : Int) ≤ i && i < t.bound

/-- Reads digits behind the number `n`, as long as the number is not greater than `limit`. -/
def readDigits (limit : Nat) (beyond : IntegerFault) (n : Nat) :
    List Char → Except IntegerFault Nat
  | [] => .ok n
  | c :: rest =>
    if !c.isDigit then .error .invalidDigit
    else
      let m := 10 * n + (c.toNat - 48)
      if m ≤ limit then readDigits limit beyond m rest else .error beyond

/-- Reads a decimal integer with or without a sign. The first character that is no digit, or that
makes the number leave the range, is what is wrong. -/
def parse (t : IntegerType) (text : String) : Except IntegerFault Int :=
  match text.toList with
  | [] => .error .empty
  | ['+'] | ['-'] => .error .invalidDigit
  | '-' :: digits => return -((← readDigits t.bound .tooSmall 0 digits : Nat) : Int)
  | '+' :: digits => return (← readDigits (t.bound - 1) .tooLarge 0 digits : Nat)
  | digits => return (← readDigits (t.bound - 1) .tooLarge 0 digits : Nat)

def encode (t : IntegerType) (i : Int) : List UInt8 :=
  bigEndian t.width (i % (2 * t.bound : Nat)).toNat

/-- The integer with these bytes, if they are as many as the type has. -/
def decode? (t : IntegerType) (bytes : List UInt8) : Option Int :=
  if bytes.length = t.width then
    let n := ofBigEndian bytes
    some (if n < t.bound then n else (n : Int) - (2 * t.bound : Nat))
  else none

example : int2.encode (-2) = [0xff, 0xfe] ∧ int2.decode? [0xff, 0xfe] = some (-2) := by decide

end IntegerType
end EntityFeed.Postgres
