import EntityFeed.Json.Basic
import EntityFeed.Schema.Basic

/-! What a schema reads and what it produces: the columns of each table that matter to it, and the
shape of the objects it describes. -/
namespace EntityFeed

inductive Shape where
  | column (table column : String)
  | object (properties : List (String × Shape))
  | array (items : Shape)

namespace Shape

/-- The array of values of a shape; arrays within arrays are flattened, so they add nothing. -/
def arrayOf : Shape → Shape
  | .array items => .array items
  | shape => .array shape

mutual

def toJson : Shape → Json
  | .column table name =>
    .obj [("type", .str "column"), ("table", .str table), ("column", .str name)]
  | .object properties =>
    .obj [("type", .str "object"), ("properties", .obj (toJsonOfAll properties))]
  | .array items => .obj [("type", .str "array"), ("items", toJson items)]

def toJsonOfAll : List (String × Shape) → Members
  | [] => []
  | (name, shape) :: rest => (name, toJson shape) :: toJsonOfAll rest

end

end Shape

/-- Tables with their columns, both in the order of first use. -/
abbrev TableColumns := List (String × List String)

def TableColumns.note (table column : String) : TableColumns → TableColumns
  | [] => [(table, [column])]
  | (t, columns) :: rest =>
    if t = table then (t, if column ∈ columns then columns else columns ++ [column]) :: rest
    else (t, columns) :: note table column rest

namespace Node

mutual

def shape (table : String) : Node → Shape
  | .column name => .column table name
  | .object properties => .object (shapeOfAll table properties)
  | .relation (.belongsTo r) node => shape r.table node
  | .relation (.hasMany r) node => (shape r.table node).arrayOf

def shapeOfAll (table : String) : List (String × Node) → List (String × Shape)
  | [] => []
  | (name, node) :: rest => (name, shape table node) :: shapeOfAll table rest

end

mutual

/-- The columns that a node for rows of `table` reads, each with its table. What lies behind a
relation comes before the columns the relation joins on. -/
def uses (table : String) : Node → List (String × String)
  | .column name => [(table, name)]
  | .object properties => usesOfAll table properties
  | .relation r node => uses r.table node ++ [(table, r.column), (r.table, r.key)]

def usesOfAll (table : String) : List (String × Node) → List (String × String)
  | [] => []
  | (_, node) :: rest => uses table node ++ usesOfAll table rest

end

end Node

namespace RootSchema

/-- The tables that a schema reads, beginning with the root table and its key. -/
def tables (s : RootSchema) : TableColumns :=
  (s.node.uses s.table).foldl (fun found (table, column) => found.note table column)
    [(s.table, [s.primaryKey])]

def output (s : RootSchema) : Shape := s.node.shape s.table

end RootSchema
end EntityFeed
