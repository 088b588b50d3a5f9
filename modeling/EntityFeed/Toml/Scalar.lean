import EntityFeed.Json.Basic

/-! The plain scalars of TOML: truth values, integers, floating-point numbers, dates and times. Each
is one word; a word that is none of them makes the document malformed. -/
namespace EntityFeed.Toml

/-- Digits with single underscores between them, without the underscores. -/
def separated? (isDigit : Char → Bool) : List Char → Option (List Char)
  | [] => none
  | [c] => if isDigit c then some [c] else none
  | c :: '_' :: rest => if isDigit c then (separated? isDigit rest).map (c :: ·) else none
  | c :: rest => if isDigit c then (separated? isDigit rest).map (c :: ·) else none

def digitValue (c : Char) : Nat :=
  if c.isDigit then c.toNat - 48 else if 'a' ≤ c then c.toNat - 87 else c.toNat - 55

def valueOf (base : Nat) (digits : List Char) : Nat :=
  digits.foldl (fun n c => base * n + digitValue c) 0

def isHexDigit (c : Char) : Bool := c.isDigit || ('a' ≤ c && c ≤ 'f') || ('A' ≤ c && c ≤ 'F')

/-- A sign in front of a number: whether it is a minus, and the rest. -/
def signed : List Char → Bool × List Char
  | '+' :: rest => (false, rest)
  | '-' :: rest => (true, rest)
  | cs => (false, cs)

/-- A decimal number without superfluous zeros in front. -/
def whole? (cs : List Char) : Option (List Char) :=
  if cs.length = 1 ∨ cs.head? ≠ some '0' then separated? Char.isDigit cs else none

/-- An integer of 64 bits, decimal or with the mark of another base. -/
def integer? (cs : List Char) : Option Int := do
  let n : Int ← match cs with
    | '0' :: 'x' :: rest => (separated? isHexDigit rest).map fun ds => (valueOf 16 ds : Int)
    | '0' :: 'o' :: rest =>
      (separated? (fun c => '0' ≤ c && c ≤ '7') rest).map fun ds => (valueOf 8 ds : Int)
    | '0' :: 'b' :: rest =>
      (separated? (fun c => c == '0' || c == '1') rest).map fun ds => (valueOf 2 ds : Int)
    | _ =>
      let (negative, cs) := signed cs
      (whole? cs).map fun ds => if negative then -(valueOf 10 ds : Int) else valueOf 10 ds
  if -(Nat.pow 2 63 : Int) ≤ n ∧ n < (Nat.pow 2 63 : Int) then some n else none

/-- The number nearest to `n * 10 ^ e`. Beyond four hundred places it is infinite or zero. -/
def nearestDecimal (negative : Bool) (n : Nat) (e : Int) : Binary64 :=
  let places : Int := (Nat.toDigits 10 n).length + e
  if n = 0 ∨ places < -400 then .ofMagnitude negative 0
  else if 400 < places then .ofMagnitude negative Binary64.infinite
  else if 0 ≤ e then .ofMagnitude negative (Binary64.nearest (n * Nat.pow 10 e.toNat) 1)
  else .ofMagnitude negative (Binary64.nearest n (Nat.pow 10 (-e).toNat))

/-- A number with a point or an exponent, or a special one. A positive number too large for a double
is refused. -/
def float? (cs : List Char) : Option Binary64 := do
  let (negative, unsigned) := signed cs
  if unsigned = "inf".toList then return .ofMagnitude negative Binary64.infinite
  if unsigned = "nan".toList then return .ofMagnitude negative (Binary64.infinite + Nat.pow 2 51)
  let isExponent (c : Char) : Bool := c == 'e' || c == 'E'
  let mantissa := unsigned.takeWhile (!isExponent ·)
  let digits ← whole? (mantissa.takeWhile (· != '.'))
  let decimals ← match mantissa.dropWhile (· != '.') with
    | [] => some none
    | _ :: rest => (separated? Char.isDigit rest).map some
  let exponent ← match unsigned.dropWhile (!isExponent ·) with
    | [] => some none
    | _ :: rest =>
      let (down, rest) := signed rest
      (separated? Char.isDigit rest).map fun ds =>
        some (if down then -(valueOf 10 ds : Int) else valueOf 10 ds)
  guard (decimals.isSome ∨ exponent.isSome)
  let places := decimals.getD []
  let x := nearestDecimal negative (valueOf 10 (digits ++ places))
    (exponent.getD 0 - places.length)
  if x.isFinite ∨ negative then some x else none

def twoDigits? (c d : Char) : Option Nat :=
  if c.isDigit && d.isDigit then some (10 * digitValue c + digitValue d) else none

def daysIn (year month : Nat) : Nat :=
  if month = 2 then
    if year % 4 = 0 ∧ (year % 100 ≠ 0 ∨ year % 400 = 0) then 29 else 28
  else if month = 4 ∨ month = 6 ∨ month = 9 ∨ month = 11 then 30
  else 31

/-- A calendar date, with what follows it. -/
def date? : List Char → Option (List Char × List Char)
  | a :: b :: c :: d :: '-' :: m :: n :: '-' :: x :: y :: rest => do
    let year := 100 * (← twoDigits? a b) + (← twoDigits? c d)
    let month ← twoDigits? m n
    let day ← twoDigits? x y
    if 1 ≤ month ∧ month ≤ 12 ∧ 1 ≤ day ∧ day ≤ daysIn year month then
      some ([a, b, c, d, '-', m, n, '-', x, y], rest)
    else none
  | _ => none

/-- A time of day, with what follows it. Of its decimals nine are kept, without zeros at the end. -/
def time? : List Char → Option (List Char × List Char)
  | a :: b :: ':' :: c :: d :: ':' :: e :: f :: rest => do
    let hour ← twoDigits? a b
    let minute ← twoDigits? c d
    let second ← twoDigits? e f
    guard (hour ≤ 23 ∧ minute ≤ 59 ∧ second ≤ 60)
    let clock := [a, b, ':', c, d, ':', e, f]
    match rest with
    | '.' :: rest =>
      let decimals := rest.takeWhile Char.isDigit
      guard (!decimals.isEmpty)
      let kept := ((decimals.take 9).reverse.dropWhile (· == '0')).reverse
      some (clock ++ (if kept.isEmpty then [] else '.' :: kept), rest.dropWhile Char.isDigit)
    | _ => some (clock, rest)
  | _ => none

/-- The offset of a time from universal time, if it has one. -/
def offset? : List Char → Option (List Char)
  | [] => some []
  | ['Z'] | ['z'] => some ['Z']
  | [sign, a, b, ':', c, d] => do
    let hour ← twoDigits? a b
    let minute ← twoDigits? c d
    guard ((sign = '+' ∨ sign = '-') ∧ hour ≤ 23 ∧ minute ≤ 59)
    some ((if hour = 0 ∧ minute = 0 then '+' else sign) :: [a, b, ':', c, d])
  | _ => none

/-- A date, a time, or both, in its standard form. -/
def datetime? (cs : List Char) : Option (List Char) :=
  match date? cs with
  | some (date, []) => some date
  | some (date, separator :: rest) => do
    guard (separator = 'T' ∨ separator = 't' ∨ separator = ' ')
    let (time, rest) ← time? rest
    return date ++ 'T' :: time ++ (← offset? rest)
  | none =>
    match time? cs with
    | some (time, []) => some time
    | _ => none

/-- Reads a word. A date or time stands for a table with one entry. -/
def scalar? (cs : List Char) : Option Json :=
  if cs = "true".toList then some (.bool true)
  else if cs = "false".toList then some (.bool false)
  else match datetime? cs with
    | some text => some (.obj [("datetime", .str (String.ofList text))])
    | none => ((float? cs).map Json.float).or ((integer? cs).map Json.int)

end EntityFeed.Toml
