import EntityFeed.Impact.Hit
import EntityFeed.Sql.Alias
import EntityFeed.Sql.Select

/-! From a hit back to the root: the query for the ids of the entities that a changed row belongs
to. It starts at the rows that refer to the changed key values and joins its way up, past every
relation that encloses the hit, leaving out tables that would only be passed through. -/
namespace EntityFeed
open Sql

structure InnerJoin where
  table : TableRef
  left : ColumnRef
  right : ColumnRef
  deriving DecidableEq, Repr

/-- Rows of a table with one of some values in a column, joined with further tables. -/
structure Search where
  source : TableRef
  column : String
  values : List String
  joins : List InnerJoin := []
  deriving DecidableEq, Repr

def Search.joined (s : Search) (table : TableRef) (left right : ColumnRef) : Search :=
  { s with joins := s.joins ++ [⟨table, left, right⟩] }

/-- A search for ids: the distinct values of the column `id`. -/
structure Discovery where
  search : Search
  id : ColumnRef
  deriving DecidableEq, Repr

def Discovery.select (d : Discovery) : Select :=
  ⟨[⟨.value (.column d.id), "id"⟩], d.search.source,
    d.search.joins.map fun j => .table .inner j.table j.left j.right,
    some ⟨⟨d.search.source.qualifier, d.search.column⟩, d.search.values⟩, some d.id⟩

/-- The key values of a has-many that was hit. A belongs-to right above it that joins on the same
column can be searched by them directly. -/
structure Leaf where
  column : String
  values : List String
  deriving DecidableEq, Repr

/-- A search on its way to the root. -/
structure Trail where
  search : Search
  /-- The table reached so far. -/
  qualifier : String
  /-- The column of that table to go on from, if it is not the one that the next relation joins
  on. -/
  override : Option String
  leaf : Option Leaf
  deriving DecidableEq, Repr

namespace Trail

/-- Past a belongs-to: to the table that refers. -/
def pastBelongsTo (t : Trail) (r : BelongsTo) (table qualifier : String) : Trail :=
  let near : TableRef := ⟨table, qualifier⟩
  let search := match t.leaf with
    | some leaf =>
      if leaf.column = r.key then ⟨near, r.column, leaf.values, []⟩
      else t.search.joined near ⟨qualifier, r.column⟩ ⟨t.qualifier, t.override.getD r.key⟩
    | none => t.search.joined near ⟨qualifier, r.column⟩ ⟨t.qualifier, t.override.getD r.key⟩
  ⟨search, qualifier, none, none⟩

/-- Past a has-many: to the table whose rows it collects for. -/
def pastHasMany (t : Trail) (r : HasMany) (table qualifier : String) : Trail :=
  ⟨t.search.joined ⟨table, qualifier⟩ ⟨qualifier, r.column⟩ ⟨t.qualifier, t.override.getD r.key⟩,
    qualifier, none,
    none⟩

/-- Past a has-many whose own table the belongs-to above it need not visit. -/
def skipHasMany (t : Trail) (r : HasMany) : Trail := { t with override := some r.key, leaf := none }

end Trail

/-- Whether the relation just above is a belongs-to that joins on this column. -/
def belongsToOn (column : String) : List Step → Bool
  | ⟨.belongsTo r, _⟩ :: _ => r.key == column
  | _ => false

/-- Takes a search past the relations of a path, the innermost first, to the ids of the root. An
outermost has-many on the root's key has them in its own column already. -/
def climb (s : RootSchema) : List Step → Trail → Aliases → Discovery × Aliases
  | [], t, a => (⟨t.search, ⟨t.qualifier, s.primaryKey⟩⟩, a)
  | ⟨.belongsTo r, table⟩ :: outer, t, a =>
    let (qualifier, a) := a.next table
    climb s outer (t.pastBelongsTo r table qualifier) a
  | ⟨.hasMany r, table⟩ :: outer, t, a =>
    if outer.isEmpty && r.column == s.primaryKey then
      (⟨t.search, ⟨t.qualifier, t.override.getD r.key⟩⟩, a)
    else if belongsToOn r.column outer then climb s outer (t.skipHasMany r) a
    else
      let (qualifier, a) := a.next table
      climb s outer (t.pastHasMany r table qualifier) a

/-- The search of a hit where it starts: at the near table of the relation. -/
def Visit.trail (e : ChangeEvent) (v : Visit) (qualifier : String) : Trail :=
  let values := e.idValues v.relation.key
  let search : Search := ⟨⟨v.table, qualifier⟩, v.relation.column, values, []⟩
  match v.relation with
  | .belongsTo _ => ⟨search, qualifier, none, none⟩
  | .hasMany r => ⟨search, qualifier, none, some ⟨r.column, values⟩⟩

def Visit.discovery (s : RootSchema) (e : ChangeEvent) (v : Visit) (a : Aliases) :
    Discovery × Aliases :=
  let (qualifier, a) := a.next v.table
  climb s v.path (v.trail e qualifier) a

/-- The queries for several hits, which share their aliases. -/
def discoveries (s : RootSchema) (e : ChangeEvent) : List Visit → Aliases → List Discovery
  | [], _ => []
  | v :: rest, a =>
    let (d, a) := v.discovery s e a
    d :: discoveries s e rest a

end EntityFeed
