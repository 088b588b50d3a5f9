import EntityFeed.Schema.Basic
import EntityFeed.Text.Blank

/-! The flaws for which a schema is refused: names of tables, columns or properties that are
missing. -/
namespace EntityFeed

inductive Flaw where
  | blankRootTable
  | blankPrimaryKey (table : String)
  /-- A name called `field` is blank in the node at `path`, for rows of `table`. -/
  | blankName (field table path : String)
  | emptyProperty (table path : String)
  deriving DecidableEq

def Flaw.message : Flaw → String
  | blankRootTable => "root table cannot be empty"
  | blankPrimaryKey table => "primary key of table '" ++ table ++ "' cannot be empty"
  | blankName field table path =>
    field ++ " cannot be empty (table '" ++ table ++ "' at " ++ path ++ ")"
  | emptyProperty table path => "empty property name in table '" ++ table ++ "' at " ++ path

namespace Relation

/-- What the file formats call the names of a relation: the far table and its column. -/
def fieldNames : Relation → String × String
  | belongsTo _ => ("referencesTable", "referencesColumn")
  | hasMany _ => ("referencingTable", "referencingColumn")

/-- The path of the values behind a relation: those of a has-many are items of an array. -/
def pathBehind (path : String) : Relation → String
  | belongsTo _ => path
  | hasMany _ => path ++ "[]"

end Relation

/-- The first flaw of a list of names with what they are called. -/
def Flaw.ofNames (table path : String) (names : List (String × String)) : Option Flaw :=
  (names.find? fun (_, name) => Text.blank name).map fun (field, _) => .blankName field table path

namespace Node

mutual

/-- The first flaw of a node at `path`, for rows of `table`. -/
def flaw? (table path : String) : Node → Option Flaw
  | .column name => Flaw.ofNames table path [("column", name)]
  | .object properties => flawOfAll? table path properties
  | .relation r node =>
    let (far, key) := r.fieldNames
    (Flaw.ofNames table path [("column", r.column), (far, r.table), (key, r.key)]).or
      (flaw? r.table (r.pathBehind path) node)

def flawOfAll? (table path : String) : List (String × Node) → Option Flaw
  | [] => none
  | (name, node) :: rest =>
    if name.isEmpty then some (.emptyProperty table path)
    else (flaw? table (path ++ "." ++ name) node).or (flawOfAll? table path rest)

end

end Node

/-- The first flaw of a schema; a schema without one is valid. -/
def RootSchema.flaw? (s : RootSchema) : Option Flaw :=
  if Text.blank s.table then some .blankRootTable
  else if Text.blank s.primaryKey then some (.blankPrimaryKey s.table)
  else s.node.flaw? s.table "$"

end EntityFeed
