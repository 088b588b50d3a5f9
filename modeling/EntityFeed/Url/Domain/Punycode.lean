import EntityFeed.Text.Hex

/-! Labels of a domain in ASCII. The ASCII characters of a label come first; behind a hyphen there
are numbers that tell, in the order of the code points, where the others are put in. A number is
written in digits to base 36 from the lowest on; a threshold for each position tells whether a digit
is the last one, and moves with the sizes of the numbers so far. -/
namespace EntityFeed.Url.Punycode

def base : Nat := 36
def lowest : Nat := 1
def highest : Nat := 26
def skew : Nat := 38
def damping : Nat := 700
def initialBias : Nat := 72
def initialPoint : Nat := 0x80
/-- What a number may not reach. -/
def limit : Nat := Nat.pow 2 32

/-- The least digit that is not the last one, at a position that is given in steps of the base. -/
def threshold (bias k : Nat) : Nat := min highest (max lowest (k - bias))

/-- Divides until a number is small, and counts the divisions in steps of the base. -/
def scale : Nat → Nat → Nat → Nat × Nat
  | 0, delta, k => (delta, k)
  | fuel + 1, delta, k =>
    if (base - lowest) * highest / 2 < delta then scale fuel (delta / (base - lowest)) (k + base)
    else (delta, k)

/-- The bias behind a number, with the length of the label so far. -/
def adapt (delta length : Nat) (first : Bool) : Nat :=
  let delta := if first then delta / damping else delta / 2
  let (delta, k) := scale 32 (delta + delta / length) 0
  k + (base - lowest + 1) * delta / (delta + skew)

/-- The last hyphen parts the ASCII characters from the numbers, if there are any before it. -/
def split (cs : List Char) : List Char × List Char :=
  let numbers := (cs.reverse.takeWhile (· != '-')).reverse
  let basic := cs.take (cs.length - numbers.length - 1)
  if basic.isEmpty then ([], cs) else (basic, numbers)

/-! Reading -/

def digitValue? (c : Char) : Option Nat :=
  if 'a' ≤ c ∧ c ≤ 'z' then some (c.toNat - 97)
  else if '0' ≤ c ∧ c ≤ '9' then some (c.toNat - 22)
  else none

def number? (bias : Nat) : Nat → Nat → Nat → List Char → Option (Nat × List Char)
  | _, _, _, [] => none
  | i, weight, k, c :: rest => do
    let digit ← digitValue? c
    let i := i + digit * weight
    guard (i < limit)
    let t := threshold bias k
    if digit < t then return (i, rest)
    else
      guard (weight * (base - t) < limit)
      number? bias i (weight * (base - t)) (k + base) rest

def toChar? (n : Nat) : Option Char := if n.isValidChar then some (Char.ofNat n) else none

/-- Reads numbers, of which there are at most as many as `fuel`, and puts in what they stand for. -/
def insert? : Nat → Nat → Nat → Nat → List Char → List Char → Option (List Char)
  | _, _, _, _, done, [] => some done
  | 0, _, _, _, _, _ :: _ => none
  | fuel + 1, point, i, bias, done, c :: cs => do
    let (next, rest) ← number? bias i 1 base (c :: cs)
    let length := done.length + 1
    let point := point + next / length
    let made ← toChar? point
    let position := next % length
    insert? fuel point (position + 1) (adapt (next - i) length (i == 0))
      (done.take position ++ made :: done.drop position) rest

/-- The label that is written in ASCII characters, without capitals. -/
def decode? (cs : List Char) : Option (List Char) :=
  let (basic, numbers) := split cs
  insert? numbers.length initialPoint 0 initialBias basic numbers

/-! Writing -/

def digit (n : Nat) : Char := Char.ofNat (if n < 26 then 97 + n else 22 + n)

def digits (bias : Nat) : Nat → Nat → Nat → List Char
  | 0, _, n => [digit n]
  | fuel + 1, k, n =>
    let t := threshold bias k
    if n < t then [digit n]
    else digit (t + (n - t) % (base - t)) :: digits bias fuel (k + base) ((n - t) / (base - t))

/-- How far the numbers of a label are written. -/
structure State where
  delta : Nat := 0
  bias : Nat := initialBias
  /-- How many characters of the label are written. -/
  written : Nat
  /-- Whether no number is written. -/
  first : Bool := true
  reversed : List Char

/-- Goes past a character of the label when `point` is written. -/
def State.pass (point : Nat) (s : State) (c : Char) : State :=
  if c.toNat < point then { s with delta := s.delta + 1 }
  else if c.toNat = point then
    { delta := 0
      bias := adapt s.delta (s.written + 1) s.first
      written := s.written + 1
      first := false
      reversed := (digits s.bias 32 base s.delta).reverse ++ s.reversed }
  else s

/-- Writes the places of each of some code points, which are in ascending order from `next` on. -/
def State.write (label : List Char) : Nat → State → List Nat → State
  | _, s, [] => s
  | next, s, point :: rest =>
    let s := { s with delta := s.delta + (point - next) * (s.written + 1) }
    let s := label.foldl (State.pass point) s
    State.write label (point + 1) { s with delta := s.delta + 1 } rest

/-- The label in ASCII characters. -/
def encode (label : List Char) : List Char :=
  let basic := label.filter (·.toNat < initialPoint)
  let points := ((label.map (·.toNat)).filter (initialPoint ≤ ·)).mergeSort.eraseDups
  let s : State :=
    { written := basic.length
      reversed := (if basic.isEmpty then [] else basic ++ ['-']).reverse }
  (s.write label initialPoint points).reversed.reverse

example : encode "bücher".toList = "bcher-kva".toList := by decide +kernel
example : decode? "bcher-kva".toList = some "bücher".toList := by decide +kernel

end EntityFeed.Url.Punycode
