/-! Schemas of entities. A node of the tree says how one value of the entity's object comes from a
row of the current table; a relation moves on to another table. -/
namespace EntityFeed

/-- Follows `column` to the row of `table` whose `key` matches. -/
structure BelongsTo where
  column : String
  table : String
  key : String
  /-- Whether a foreign key guards the relation. Then no row refers to one that is only now
  appearing or disappearing. -/
  guarded : Bool
  deriving DecidableEq, Repr

/-- Collects the rows of `table` whose `key` matches `column`. -/
structure HasMany where
  column : String
  table : String
  key : String
  deriving DecidableEq, Repr

inductive Relation where
  | belongsTo (r : BelongsTo)
  | hasMany (r : HasMany)
  deriving DecidableEq, Repr

namespace Relation

/-- The column of the near table that the relation joins on. -/
def column : Relation → String
  | belongsTo r => r.column
  | hasMany r => r.column

/-- The table the relation leads to. -/
def table : Relation → String
  | belongsTo r => r.table
  | hasMany r => r.table

/-- The column of the far table that the relation joins on. -/
def key : Relation → String
  | belongsTo r => r.key
  | hasMany r => r.key

end Relation

/-- How a value is derived from a row of the current table. -/
inductive Node where
  | column (name : String)
  /-- An object with these properties in order, all derived from the same row. -/
  | object (properties : List (String × Node))
  /-- What the node gives for the related row or rows. -/
  | relation (r : Relation) (node : Node)
  deriving Inhabited

namespace Node

mutual

/-- The columns of the current table that the node reads itself: the local column of a relation
counts, what lies behind it does not. -/
def localColumns : Node → List String
  | .column name => [name]
  | .object properties => localColumnsOfAll properties
  | .relation r _ => [r.column]

def localColumnsOfAll : List (String × Node) → List String
  | [] => []
  | (_, node) :: rest => localColumns node ++ localColumnsOfAll rest

end

def properties? : Node → Option (List (String × Node))
  | .object properties => some properties
  | _ => none

end Node

/-- The schema of an entity: a node for each row of the root table, identified by its key. -/
structure RootSchema where
  table : String
  primaryKey : String
  node : Node
  deriving Inhabited

end EntityFeed
