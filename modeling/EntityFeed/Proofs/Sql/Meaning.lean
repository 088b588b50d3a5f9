import EntityFeed.Event.Basic
import EntityFeed.Sql.Select
import Mathlib.Data.List.Dedup

/-! What queries mean in a database. A query is refused if a table of it has no alias of its own or a
column is not found in exactly one place; otherwise it has rows. The database decides how values
are compared, and in which order rows are met. -/
namespace EntityFeed

/-- The value in a column, null in a column that the row does not have. -/
def Row.value (row : Row) (column : String) : Json := (row.get? column).getD .null

/-- The rows of each table. -/
abbrev Database := String → List Row

namespace Sql

/-- How values are compared: by a key, which null has not. -/
structure Comparison where
  key : Json → Option String
  key_null : key .null = none

/-- Whether two values are equal. Null equals nothing. -/
def Comparison.equal (c : Comparison) (a b : Json) : Bool := (c.key a).isSome && c.key a == c.key b

/-- Values that are ids are compared by their text, and nothing equals other values. -/
def Comparison.byIdText : Comparison := ⟨Json.idText?, rfl⟩

/-- One row for each alias. -/
abbrev Scope := List (String × Row)

/-- The order in which a database meets what it has joined. -/
structure Arrangement where
  arrange : List Scope → List Scope
  perm : ∀ scopes, (arrange scopes).Perm scopes

/-- A database that keeps the order of its tables. -/
def Arrangement.inOrder : Arrangement := ⟨id, fun _ => .refl _⟩

def Scope.value (s : Scope) (r : ColumnRef) : Json :=
  match s.lookup r.qualifier with
  | some row => row.value r.column
  | none => .null

namespace Expr

mutual

def value (s : Scope) : Expr → Json
  | .column r => s.value r
  | .record fields => .obj (fieldValues s fields)
  | .arrayOrEmpty r =>
    match s.value r with
    | .null => .arr []
    | v => v

def fieldValues (s : Scope) : List (String × Expr) → Members
  | [] => []
  | (name, e) :: rest => (name, e.value s) :: fieldValues s rest

end

end Expr

/-- The value for a group of rows. -/
def Selection.valueOf (group : List Scope) : Selection → Json
  | value e => e.value (group.headD [])
  | gathered e => .arr (group.map fun s => e.value s)

def outputRow (outputs : List Output) (group : List Scope) : Row :=
  outputs.map fun o => (o.name, o.selection.valueOf group)

/-- The elements of a list in groups with the same key. -/
def groups {α κ : Type} [DecidableEq κ] (key : α → κ) (l : List α) : List (List α) :=
  (l.map key).dedup.map fun k => l.filter fun x => key x = k

section

variable (c : Comparison) (ω : Arrangement) (db : Database)

def Membership.holds (m : Membership) (s : Scope) : Bool :=
  m.values.any fun v => c.equal (s.value m.column) (.str v)

/-- A row joined with those of a table. A left join keeps a row that finds none. -/
def JoinKind.extend (kind : JoinKind) (qualifier : String) (left right : ColumnRef)
    (rows : List Row) (s : Scope) : List Scope :=
  let found := (rows.map fun row => s ++ [(qualifier, row)]).filter fun t =>
    c.equal (t.value left) (t.value right)
  match kind with
  | .inner => found
  | .left => if found.isEmpty then [s ++ [(qualifier, [])]] else found

mutual

def Select.rows : Select → List Row
  | ⟨outputs, source, joins, condition, grouping⟩ =>
    let joined := Joined.extendAll joins ((db source.table).map fun row => [(source.qualifier, row)])
    let kept := ω.arrange (joined.filter fun s => condition.all fun m => m.holds c s)
    match grouping with
    | none => kept.map fun s => outputRow outputs [s]
    | some r => (groups (fun s => c.key (s.value r)) kept).map (outputRow outputs)

/-- Rows joined with those of several tables, one after the other. -/
def Joined.extendAll : List Joined → List Scope → List Scope
  | [], scopes => scopes
  | .table kind t left right :: rest, scopes =>
    Joined.extendAll rest (scopes.flatMap (kind.extend c t.qualifier left right (db t.table)))
  | .nested kind q qualifier left right :: rest, scopes =>
    Joined.extendAll rest (scopes.flatMap (kind.extend c qualifier left right (Select.rows q)))

end

end

/-- The aliases of a query and the columns of the nested queries under them. Those of tables are not
known. -/
abbrev Header := List (String × Option (List String))

/-- Whether a column is found in exactly one place. -/
def ColumnRef.resolves (h : Header) (r : ColumnRef) : Bool :=
  match h.lookup r.qualifier with
  | none => false
  | some none => true
  | some (some columns) => columns.count r.column = 1

namespace Expr

mutual

def resolves (h : Header) : Expr → Bool
  | .column r => r.resolves h
  | .record fields => fieldsResolve h fields
  | .arrayOrEmpty r => r.resolves h

def fieldsResolve (h : Header) : List (String × Expr) → Bool
  | [] => true
  | (_, e) :: rest => e.resolves h && fieldsResolve h rest

end

end Expr

/-- Whether a selection can be made: in a group of rows only of the column they are grouped by. -/
def Selection.resolves (h : Header) (grouping : Option ColumnRef) : Selection → Bool
  | value (.column r) => r.resolves h && grouping.all (· == r)
  | value e => e.resolves h && grouping.isNone
  | gathered e => e.resolves h && grouping.isSome

def Joined.entry : Joined → String × Option (List String)
  | .table _ t _ _ => (t.qualifier, none)
  | .nested _ q qualifier _ _ => (qualifier, some (q.outputs.map (·.name)))

def Joined.left : Joined → ColumnRef
  | .table _ _ left _ => left
  | .nested _ _ _ left _ => left

def Joined.right : Joined → ColumnRef
  | .table _ _ _ right => right
  | .nested _ _ _ _ right => right

/-- Whether a join has an alias of its own and its columns are found. -/
def Joined.fits (h : Header) (j : Joined) : Bool :=
  !(h.map (·.1)).contains j.entry.1 && j.left.resolves (h ++ [j.entry]) &&
    j.right.resolves (h ++ [j.entry])

mutual

/-- Whether a query is accepted. -/
def Select.scoped : Select → Bool
  | ⟨outputs, source, joins, condition, grouping⟩ =>
    let h : Header := (source.qualifier, none) :: joins.map Joined.entry
    Joined.scopedAll [(source.qualifier, none)] joins &&
      outputs.all (fun o => o.selection.resolves h grouping) &&
      condition.all (fun m => m.column.resolves h) && grouping.all (fun r => r.resolves h)

def Joined.scopedAll (h : Header) : List Joined → Bool
  | [] => true
  | .table kind t left right :: rest =>
    (Joined.table kind t left right).fits h &&
      Joined.scopedAll (h ++ [(Joined.table kind t left right).entry]) rest
  | .nested kind q qualifier left right :: rest =>
    q.scoped && (Joined.nested kind q qualifier left right).fits h &&
      Joined.scopedAll (h ++ [(Joined.nested kind q qualifier left right).entry]) rest

end

/-- What a database answers: the rows, unless it refuses the query. -/
def Select.answer? (c : Comparison) (ω : Arrangement) (db : Database) (q : Select) :
    Option (List Row) :=
  if q.scoped then some (q.rows c ω db) else none

/-- The rows of several queries, each once. -/
def Query.answer? (c : Comparison) (ω : Arrangement) (db : Database) (q : Query) :
    Option (List Row) :=
  if q.selects.all (·.scoped) then
    let rows := q.selects.flatMap fun s => s.rows c ω db
    some ((groups (fun row : Row => row.map fun (_, v) => c.key v) rows).map (·.headD []))
  else none

end Sql
end EntityFeed
