import EntityFeed.Binary64.Shortest

/-! How the digits of a number are laid out: positional within a range of decimal exponents, else
with an exponent. A positional number has at least one decimal, so that it never reads as an
integer. -/
namespace EntityFeed.Binary64

/-- The decimal exponents, from `first` up to but not including `last`, that are written
positionally. -/
structure Layout where
  first : Int
  last : Int

def Digits.positional (d : Digits) : List Char :=
  if d.point ≤ 0 then
    '0' :: '.' :: List.replicate (-d.point).toNat '0' ++ d.digits
  else
    let whole := d.digits.take d.point.toNat
    let rest := d.digits.drop d.point.toNat
    whole ++ List.replicate (d.point.toNat - whole.length) '0' ++
      '.' :: (if rest.isEmpty then ['0'] else rest)

def Digits.scientific (d : Digits) : List Char :=
  let e := d.point - 1
  let tail := d.digits.drop 1
  d.digits.take 1 ++ (if tail.isEmpty then [] else '.' :: tail) ++
    'e' :: (if e < 0 then '-' else '+') :: Nat.toDigits 10 e.natAbs

def render (l : Layout) (x : Binary64) : String :=
  if x.isNaN then "NaN"
  else
    let unsigned :=
      if !x.isFinite then "inf".toList
      else if x.isZero then "0.0".toList
      else
        let d := x.shortest
        if l.first ≤ d.point - 1 ∧ d.point - 1 < l.last then d.positional else d.scientific
    String.ofList (if x.negative then '-' :: unsigned else unsigned)

/-- The layout that never uses an exponent. -/
def Layout.plain : Layout := ⟨-400, 400⟩

end EntityFeed.Binary64
