import EntityFeed.Text.Hex

/-! Sets and maps of characters, written as tables of hexadecimal numbers with blanks or line ends
between them. -/
namespace EntityFeed.Text

def hexNumber (cs : List Char) : Nat := cs.foldl (fun n c => 16 * n + (hexValue? c).getD 0) 0

def tableWords (s : String) : List (List Char) :=
  (s.toList.splitOnP fun c => c == ' ' || c == '\n').filter (!·.isEmpty)

/-- A set of characters, as ranges that include their ends. -/
abbrev CodePoints := List (Nat × Nat)

namespace CodePoints

/-- Reads a set. A word is one number, or the two ends of a range as in `41-5A`. -/
def ofText (s : String) : CodePoints :=
  (tableWords s).map fun w =>
    match (w.splitOn '-').map hexNumber with
    | [first, last] => (first, last)
    | ns => (ns.headD 0, ns.headD 0)

def has (s : CodePoints) (c : Char) : Bool :=
  s.any fun (first, last) => first ≤ c.toNat && c.toNat ≤ last

end CodePoints

/-- A map from characters to texts. -/
abbrev CodePointMap := List (Nat × List Char)

namespace CodePointMap

/-- Reads a word of a map. `41-5A=61` maps each number of a range to that as far from `61`, and
`100:12E=101` does the same for every other number. `BC=31+34,32` maps numbers from `BC` on to the
texts that follow. -/
def ofWord (w : List Char) : CodePointMap :=
  let key := w.takeWhile (· != '=')
  let images := (w.dropWhile (· != '=')).drop 1
  let range (ends : List Nat) (step : Nat) : CodePointMap :=
    let first := ends.headD 0
    (List.range ((ends.getLastD 0 - first) / step + 1)).map fun i =>
      (first + step * i, [Char.ofNat (hexNumber images + step * i)])
  if key.contains '-' then range ((key.splitOn '-').map hexNumber) 1
  else if key.contains ':' then range ((key.splitOn ':').map hexNumber) 2
  else
    (images.splitOn ',').mapIdx fun i image =>
      (hexNumber key + i, (image.splitOn '+').map fun n => Char.ofNat (hexNumber n))

def ofText (s : String) : CodePointMap := (tableWords s).flatMap ofWord

def image? (m : CodePointMap) (c : Char) : Option (List Char) := m.lookup c.toNat

def origin? (m : CodePointMap) (cs : List Char) : Option Char :=
  (m.find? (·.2 == cs)).map fun (n, _) => Char.ofNat n

example : (ofText "41-43=61 BC=31+34,32").map (·.2) =
    [['a'], ['b'], ['c'], ['1', '4'], ['2']] := by decide +kernel

end CodePointMap
end EntityFeed.Text
