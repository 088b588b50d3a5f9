import EntityFeed.Schema.Basic
import EntityFeed.Sql.Alias
import EntityFeed.Sql.Select

/-! The query that builds entities: one row for each requested id, with the id and the entity's
object. A relation becomes a left join with a nested query that has one row for each key, aggregated
if the relation is a has-many. -/
namespace EntityFeed
open Sql

/-- The rows that a query has. -/
inductive Frame where
  /-- One for each of these ids that is there. -/
  | requested (ids : List String)
  | single
  /-- One for each key, with the array of its objects. -/
  | grouped

/-- A node's value as seen from one row: an expression and the joins it needs. -/
structure Projection where
  object : Expr
  joins : List Joined := []

def objectColumn : String := "object"

/-- The query for the objects of a table's rows by their key. -/
def Frame.select (frame : Frame) (source : TableRef) (key : String) (p : Projection) : Select :=
  let identifier : ColumnRef := ⟨source.qualifier, key⟩
  match frame with
  | requested ids =>
    ⟨[⟨.value (.column identifier), "id"⟩, ⟨.value p.object, objectColumn⟩], source, p.joins,
      some ⟨identifier, ids⟩, none⟩
  | single =>
    ⟨[⟨.value (.column identifier), key⟩, ⟨.value p.object, objectColumn⟩], source, p.joins, none,
      none⟩
  | grouped =>
    ⟨[⟨.value (.column identifier), key⟩, ⟨.gathered p.object, objectColumn⟩], source, p.joins, none,
      some identifier⟩

/-- The nested query for `table` by `key`, joined on a column of the query around it. `project`
gives the value for a row of `table`. -/
def nestedQuery (frame : Frame) (near : ColumnRef) (table key : String)
    (project : String → Aliases → Projection × Aliases) (a : Aliases) : Joined × Aliases :=
  let (inner, a) := a.next table
  let (p, a) := project inner a
  let (outer, a) := a.next table
  (.nested .left (frame.select ⟨table, inner⟩ key p) outer near ⟨outer, key⟩, a)

/-- The related row's object, or null. -/
def Projection.ofSingle (j : Joined) : Projection := ⟨.column ⟨j.qualifier, objectColumn⟩, [j]⟩

/-- The array of the related rows' objects. -/
def Projection.ofGroup (j : Joined) : Projection := ⟨.arrayOrEmpty ⟨j.qualifier, objectColumn⟩, [j]⟩

structure ObjectQueryOptions where
  /-- Join a has-many straight to the column of the belongs-to around it if both join on the same
  column of the table between them. -/
  skipMiddleTables : Bool := true

namespace Node

mutual

/-- The value of a node for the row under `qualifier`. -/
def project (o : ObjectQueryOptions) (qualifier : String) : Node → Aliases → Projection × Aliases
  | .column name, a => (⟨.column ⟨qualifier, name⟩, []⟩, a)
  | .object properties, a =>
    let ((fields, joins), a) := projectAll o qualifier properties a
    (⟨.record fields, joins⟩, a)
  | .relation (.hasMany r) node, a =>
    let (j, a) := nestedQuery .grouped ⟨qualifier, r.column⟩ r.table r.key
      (fun inner a => project o inner node a) a
    (.ofGroup j, a)
  | .relation (.belongsTo r) node, a =>
    match node with
    | .relation (.hasMany back) behind =>
      if o.skipMiddleTables && back.column == r.key then
        let (j, a) := nestedQuery .grouped ⟨qualifier, r.column⟩ back.table back.key
          (fun inner a => project o inner behind a) a
        (.ofGroup j, a)
      else
        let (j, a) := nestedQuery .single ⟨qualifier, r.column⟩ r.table r.key
          (fun inner a => project o inner (.relation (.hasMany back) behind) a) a
        (.ofSingle j, a)
    | node =>
      let (j, a) := nestedQuery .single ⟨qualifier, r.column⟩ r.table r.key
        (fun inner a => project o inner node a) a
      (.ofSingle j, a)

def projectAll (o : ObjectQueryOptions) (qualifier : String) :
    List (String × Node) → Aliases → (List (String × Expr) × List Joined) × Aliases
  | [], a => (([], []), a)
  | (name, node) :: rest, a =>
    let (p, a) := project o qualifier node a
    let ((fields, joins), a) := projectAll o qualifier rest a
    (((name, p.object) :: fields, p.joins ++ joins), a)

end

end Node

/-- The query for the objects of the entities with these ids. -/
def RootSchema.objectQuery (s : RootSchema) (ids : List String) (o : ObjectQueryOptions := {}) :
    Select :=
  let (qualifier, a) := Aliases.next {} s.table
  let (p, _) := s.node.project o qualifier a
  Frame.select (.requested ids) ⟨s.table, qualifier⟩ s.primaryKey p

end EntityFeed
