import EntityFeed.Url.Domain.Label

/-! Domains in ASCII. The characters are replaced by those they stand for, composed, and checked
label by label. -/
namespace EntityFeed.Url.Domain

/-- The domain in ASCII; none if some label is not as it has to be. -/
def toAscii? (cs : List Char) : Option (List Char) := do
  let cs := Text.composed (← cs.mapM mapped?).flatten
  guard (!cs.any denied)
  let labels ← (cs.splitOn '.').mapM Label.read?
  if labels.any (isBidirectional ·.chars) then guard (labels.all (keepsDirection ·.chars))
  return List.intercalate ['.'] (labels.map (·.ascii))

example : toAscii? "Ab.C".toList = some "ab.c".toList := by decide +kernel

end EntityFeed.Url.Domain
