import EntityFeed.Event.Basic
import EntityFeed.Schema.Basic

/-! Which relations of a schema a change touches. -/
namespace EntityFeed

/-- A relation with the table it starts from. -/
structure Step where
  relation : Relation
  table : String
  deriving DecidableEq, Repr

/-- A relation where a schema has it. -/
structure Visit where
  relation : Relation
  /-- The table the relation starts from. -/
  table : String
  node : Node
  /-- The relations on the way from the root, the innermost first. -/
  path : List Step

namespace Node

mutual

/-- The relations of a node for rows of `table`, each before those behind it. -/
def visits (table : String) (path : List Step) : Node → List Visit
  | .column _ => []
  | .object properties => visitsOfAll table path properties
  | .relation r node => ⟨r, table, node, path⟩ :: visits r.table (⟨r, table⟩ :: path) node

def visitsOfAll (table : String) (path : List Step) : List (String × Node) → List Visit
  | [] => []
  | (_, node) :: rest => visits table path node ++ visitsOfAll table path rest

end

end Node

/-- Whether an event changes one of some columns. -/
def ChangeEvent.touches (e : ChangeEvent) (columns : List String) : Bool :=
  e.changedColumns.any (columns.contains ·)

namespace Visit

/-- The columns of the far table whose update can change what the relation contributes. A guarded
key cannot change under the rows that refer to it. -/
def watched (v : Visit) : List String :=
  match v.relation with
  | .belongsTo r => (if r.guarded then [] else [r.key]) ++ v.node.localColumns
  | .hasMany r => r.key :: v.node.localColumns

/-- Whether a row that appears or disappears behind the relation can matter. -/
def watchesRows (v : Visit) : Bool :=
  match v.relation with
  | .belongsTo r => !r.guarded
  | .hasMany _ => true

/-- Whether an event changes what the relation contributes. -/
def hit (e : ChangeEvent) (v : Visit) : Bool :=
  e.table == v.relation.table &&
    match e.action with
    | .insert | .delete => v.watchesRows
    | .update => e.touches v.watched

/-- Whether the key values of a hit are ids of the root themselves. -/
def direct (s : RootSchema) (v : Visit) : Bool :=
  v.path.isEmpty && v.relation.column == s.primaryKey

end Visit

namespace RootSchema

def visits (s : RootSchema) : List Visit := s.node.visits s.table []

def hits (s : RootSchema) (e : ChangeEvent) : List Visit := s.visits.filter (·.hit e)

/-- Whether an event changes a root row in a way that its entity can show. -/
def rootRowChanged (s : RootSchema) (e : ChangeEvent) : Bool :=
  e.table == s.table &&
    match e.action with
    | .insert | .delete => true
    | .update => e.touches (s.primaryKey :: s.node.localColumns)

end RootSchema
end EntityFeed
