import EntityFeed.Binary64.Basic

/-! The shortest decimal that reads back as a given number. All reals nearer to the number than to
its neighbours form an interval; the decimal is the point of the coarsest power-of-ten grid inside
it. -/
namespace EntityFeed.Binary64

/-- The decimal `0.d₁d₂… * 10 ^ point`, with the first digit not zero. -/
structure Digits where
  digits : List Char
  point : Int
  deriving DecidableEq

/-- The reals that round to a finite number other than zero, in units of a quarter of its last
binary place. The lower neighbour of a power of two is half as far away. -/
structure Interval where
  low : Nat
  centre : Nat
  high : Nat
  /-- Whether the ends belong to it: they do when the significand is even. -/
  closed : Bool
  unit : Int

def interval (x : Binary64) : Interval where
  low := if x.fraction = 0 ∧ 1 < x.exponentField then 4 * x.significand - 1
    else 4 * x.significand - 2
  centre := 4 * x.significand
  high := 4 * x.significand + 2
  closed := x.significand % 2 = 0
  unit := x.exponent - 2

/-- The quotient `a / b` by which a length in quarter places becomes one in steps of `10 ^ p`. -/
def Interval.steps (i : Interval) (p : Int) : Nat × Nat :=
  let a := if 0 ≤ i.unit then Nat.pow 2 i.unit.toNat else 1
  let b := if 0 ≤ i.unit then 1 else Nat.pow 2 (-i.unit).toNat
  if 0 ≤ p then (a, b * Nat.pow 10 p.toNat) else (a * Nat.pow 10 (-p).toNat, b)

/-- Whether the `c`-th point of the grid lies in the interval. -/
def Interval.holds (i : Interval) (a b c : Nat) : Bool :=
  (i.low * a < c * b && c * b < i.high * a) ||
    (i.closed && (i.low * a == c * b || c * b == i.high * a))

/-- The point of the grid with step `10 ^ p` that is in the interval and nearest to its centre. -/
def Interval.onGrid? (i : Interval) (p : Int) : Option Nat :=
  let (a, b) := i.steps p
  let c := i.centre * a / b
  let below := i.centre * a - c * b
  let above := (c + 1) * b - i.centre * a
  match i.holds a b c && c != 0, i.holds a b (c + 1) with
  | true, true => some (if below < above ∨ (below = above ∧ c % 2 = 0) then c else c + 1)
  | true, false => some c
  | false, true => some (c + 1)
  | false, false => none

/-- The decimal exponent of the centre: `10 ^ k ≤ centre < 10 ^ (k + 1)`. The binary logarithm
leaves three candidates. -/
def Interval.decade (i : Interval) : Int :=
  let about := ((Nat.log2 i.centre + i.unit) * 30103).fdiv 100000
  let reaches (k : Int) : Bool :=
    let (a, b) := i.steps k
    b ≤ i.centre * a
  if reaches (about + 1) then about + 1 else if reaches about then about else about - 1

/-- The grids with one to seventeen digits, the coarsest first; the last of them always has a
point in the interval. -/
def shortest (x : Binary64) : Digits :=
  let i := x.interval
  let k := i.decade
  let found := (List.range 17).findSome? fun (n : Nat) =>
    (i.onGrid? (k - n)).map fun c => (c, k - n)
  match found with
  | none => ⟨[], 0⟩
  | some (c, p) =>
    let digits := Nat.toDigits 10 c
    ⟨(digits.reverse.dropWhile (· == '0')).reverse, digits.length + p⟩

example : shortest ((ofNat 1).div (ofNat 10)) = ⟨['1'], 0⟩ := by decide +kernel
example : shortest ⟨1⟩ = ⟨['5'], -323⟩ := by decide +kernel
example : shortest (ofNat (2 ^ 64)) =
    ⟨"18446744073709552".toList, 20⟩ := by decide +kernel

end EntityFeed.Binary64
