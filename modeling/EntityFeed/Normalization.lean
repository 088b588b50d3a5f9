import EntityFeed.Json.Printer

/-! Cleaning of built objects. A has-many inside a has-many gives arrays of arrays, and a belongs-to
that finds no row gives null inside an array. The arrays are flattened and the nulls dropped; on
request an entry whose text occurred before in its array is dropped too. -/
namespace EntityFeed

/-- What else is done to arrays. -/
structure NormalizeOptions where
  dedupeArrays : Bool := false
  deriving DecidableEq

namespace Json

/-- What an item adds to the array it is in: an array adds its items. -/
def spliced : Json → List Json
  | .arr items => items
  | v => [v]

/-- The items whose text is neither among `seen` nor that of an earlier item. -/
def distinctBy (seen : List String) : List Json → List Json
  | [] => []
  | v :: rest =>
    let t := v.text
    if t ∈ seen then distinctBy seen rest else v :: distinctBy (t :: seen) rest

/-- The items of an array whose own items are clean already. -/
def cleaned (options : NormalizeOptions) (items : List Json) : List Json :=
  let kept := (items.flatMap spliced).filter (!·.isNull)
  if options.dedupeArrays then distinctBy [] kept else kept

mutual

def normalize (options : NormalizeOptions) : Json → Json
  | .arr items => .arr (cleaned options (normalizeItems options items))
  | .obj members => .obj (normalizeMembers options members)
  | v => v

def normalizeItems (options : NormalizeOptions) : List Json → List Json
  | [] => []
  | v :: rest => normalize options v :: normalizeItems options rest

def normalizeMembers (options : NormalizeOptions) : List (String × Json) → List (String × Json)
  | [] => []
  | (k, v) :: rest => (k, normalize options v) :: normalizeMembers options rest

end

end Json
end EntityFeed
