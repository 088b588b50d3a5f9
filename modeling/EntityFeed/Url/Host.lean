import EntityFeed.Url.Domain.Basic
import EntityFeed.Url.Encoding

/-! Hosts: names and addresses. A scheme with a syntax of its own has domains, which are not
sensitive to case and may be addresses of four numbers; with any other scheme a host is any name.
Both have addresses between brackets. -/
namespace EntityFeed.Url

inductive Host where
  | name (s : String)
  | ipv4 (address : Nat)
  /-- Eight pieces of sixteen bits. -/
  | ipv6 (pieces : List Nat)
  deriving DecidableEq, Repr

/-! Addresses of eight pieces -/

/-- The value of decimal digits, of which there is at least one. -/
def decimal? (cs : List Char) : Option Nat :=
  if !cs.isEmpty && cs.all Char.isDigit then
    some (cs.foldl (fun n c => 10 * n + (c.toNat - 48)) 0)
  else none

/-- The decimal number of a byte, without superfluous zeros. -/
def decimalByte? (cs : List Char) : Option Nat := do
  let n ← decimal? cs
  if (cs.length = 1 ∨ cs.head? ≠ some '0') ∧ n < 256 then some n else none

/-- The pieces that an address of four numbers stands for. -/
def dottedPieces? (cs : List Char) : Option (List Nat) :=
  match (cs.splitOn '.').map decimalByte? with
  | [some a, some b, some c, some d] => some [256 * a + b, 256 * c + d]
  | _ => none

def piece? (cs : List Char) : Option Nat :=
  if cs.isEmpty ∨ 4 < cs.length then none
  else (cs.mapM Text.hexValue?).map fun ds => ds.foldl (fun n d => 16 * n + d) 0

/-- The pieces of a list with colons, the last of which may have four decimal numbers if `atEnd`. -/
def pieces? (atEnd : Bool) : List (List Char) → Option (List Nat)
  | [] => some []
  | [last] =>
    if atEnd && last.contains '.' then dottedPieces? last else (piece? last).map ([·])
  | p :: rest => do return (← piece? p) :: (← pieces? atEnd rest)

/-- The text before and behind the first two colons in a row. -/
def gap? : List Char → Option (List Char × List Char)
  | [] => none
  | ':' :: ':' :: rest => some ([], rest)
  | c :: rest => (gap? rest).map fun (before, after) => (c :: before, after)

def group? (atEnd : Bool) (cs : List Char) : Option (List Nat) :=
  if cs.isEmpty then some [] else pieces? atEnd (cs.splitOn ':')

/-- Reads eight pieces, of which two colons in a row leave out those that are zero. -/
def ipv6? (cs : List Char) : Option (List Nat) :=
  match gap? cs with
  | none => do
    let pieces ← group? true cs
    if pieces.length = 8 then some pieces else none
  | some (before, after) => do
    let left ← group? false before
    let right ← group? true after
    if left.length + right.length ≤ 7 then
      some (left ++ List.replicate (8 - left.length - right.length) 0 ++ right)
    else none

/-- How many zeros a list begins with. -/
def leadingZeros (pieces : List Nat) : Nat := (pieces.takeWhile (· == 0)).length

/-- The length of the longest run of zeros. -/
def longestRun : List Nat → Nat
  | [] => 0
  | p :: rest => max (leadingZeros (p :: rest)) (longestRun rest)

/-- What comes before and behind the first run of `n` zeros. -/
def splitRun (n : Nat) : List Nat → List Nat × List Nat
  | [] => ([], [])
  | p :: rest =>
    if leadingZeros (p :: rest) = n then ([], (p :: rest).drop n)
    else
      let (before, after) := splitRun n rest
      (p :: before, after)

def pieceText (pieces : List Nat) : List Char :=
  List.intercalate [':'] (pieces.map (Nat.toDigits 16))

/-- The text of an address. Of the longest run of at least two zeros only the colons are written. -/
def ipv6Text (pieces : List Nat) : List Char :=
  let n := longestRun pieces
  if n < 2 then pieceText pieces
  else
    let (before, after) := splitRun n pieces
    pieceText before ++ [':', ':'] ++ pieceText after

/-! Domains -/

/-- A number of an address: none if it is no number at all, `some none` if it is too large. Its
beginning tells its base. -/
def addressNumber? (cs : List Char) : Option (Option Nat) :=
  let read (base : Nat) (digits : List Char) : Option (Option Nat) := do
    let ds ← digits.mapM Text.hexValue?
    guard (ds.all (· < base))
    let n := ds.foldl (fun n d => base * n + d) 0
    return if n < Nat.pow 2 32 then some n else none
  match cs with
  | [] => none
  | '0' :: 'x' :: rest | '0' :: 'X' :: rest => read 16 rest
  | '0' :: d :: rest => read 8 (d :: rest)
  | _ => read 10 cs

/-- The labels of a domain, without the empty one behind a dot at the end. -/
def labels (cs : List Char) : List (List Char) :=
  let all := cs.splitOn '.'
  if all.getLast? = some [] then all.dropLast else all

/-- Whether a domain has to be an address. -/
def endsInNumber (cs : List Char) : Bool :=
  match (labels cs).getLast? with
  | none => false
  | some last => (!last.isEmpty && last.all Char.isDigit) || (addressNumber? last).isSome

/-- An address of up to four numbers, the last of which fills the bytes that are left. -/
def ipv4? (cs : List Char) : Option Nat := do
  let parts := labels cs
  guard (parts.length ≤ 4)
  let numbers ← parts.mapM fun part => (addressNumber? part).join
  let last ← numbers.getLast?
  let first := numbers.dropLast
  guard (last < Nat.pow 256 (4 - first.length) ∧ first.all (· < 256))
  return first.foldl (fun n b => 256 * n + b) 0 * Nat.pow 256 (4 - first.length) + last

def ipv4Text (n : Nat) : String :=
  String.intercalate "."
    ([n / Nat.pow 2 24, n / Nat.pow 2 16 % 256, n / Nat.pow 2 8 % 256, n % 256].map toString)

/-- The characters that no name of any other kind may have. -/
def forbidden (c : Char) : Bool := "\x00\t\n\r #/:<>?@[\\]^|".toList.contains c

namespace Host

def bracketed? (cs : List Char) : Option Host :=
  if cs.getLast? = some ']' then (ipv6? cs.dropLast).map .ipv6 else none

/-- A host as a scheme without domains has it, which may be empty. -/
def general? : List Char → Option Host
  | '[' :: rest => bracketed? rest
  | cs => if cs.any forbidden then none else some (.name (encode .controls cs))

/-- A domain, of which bytes may be written with a percent sign. -/
def domain? : List Char → Option Host
  | '[' :: rest => bracketed? rest
  | cs => do
    let domain ← Domain.toAscii? (← decode? cs)
    guard !domain.isEmpty
    if endsInNumber domain then (ipv4? domain).map .ipv4
    else return .name (String.ofList domain)

def text : Host → String
  | name s => s
  | ipv4 n => ipv4Text n
  | ipv6 pieces => String.ofList ('[' :: ipv6Text pieces ++ [']'])

end Host

example : (ipv6? "2001:db8::1.2.3.4".toList).map ipv6Text = some "2001:db8::102:304".toList := by
  decide +kernel

end EntityFeed.Url
