import EntityFeed.Sql.Statement

/-! Queries before they are written out. A query reads rows of a table, joins them with further tables
or with the rows of nested queries, keeps those that meet a condition, groups them, and selects
columns. -/
namespace EntityFeed.Sql

inductive Expr where
  | column (r : ColumnRef)
  | record (fields : List (String × Expr))
  /-- A column that holds an array, or an empty array for null. -/
  | arrayOrEmpty (r : ColumnRef)

namespace Expr

mutual

def text : Expr → String
  | .column r => r.text
  | .record fields => "JSON_BUILD_OBJECT(" ++ String.intercalate ", " (fieldTexts fields) ++ ")"
  | .arrayOrEmpty r => "COALESCE(" ++ r.text ++ ", '[]'::json)"

def fieldTexts : List (String × Expr) → List String
  | [] => []
  | (name, e) :: rest => (quoteLiteral name ++ ", " ++ e.text) :: fieldTexts rest

end

end Expr

/-- What one selected column holds. -/
inductive Selection where
  | value (e : Expr)
  /-- The array of the values in a group of rows. -/
  | gathered (e : Expr)

def Selection.text : Selection → String
  | value e => e.text
  | gathered e => "JSON_AGG(" ++ e.text ++ ")"

structure Output where
  selection : Selection
  name : String

def Output.text (o : Output) : String := o.selection.text ++ " AS " ++ quoteIdent o.name

/-- That a column has one of some values. -/
structure Membership where
  column : ColumnRef
  values : List String

mutual

inductive Select where
  | mk (outputs : List Output) (source : TableRef) (joins : List Joined)
    (condition : Option Membership) (grouping : Option ColumnRef)

/-- A join with a table or with the rows of a nested query, where two columns are equal. -/
inductive Joined where
  | table (kind : JoinKind) (t : TableRef) (left right : ColumnRef)
  | nested (kind : JoinKind) (q : Select) (qualifier : String) (left right : ColumnRef)

end

namespace Select

def outputs : Select → List Output
  | ⟨outputs, _, _, _, _⟩ => outputs

end Select

namespace Joined

def qualifier : Joined → String
  | table _ t _ _ => t.qualifier
  | nested _ _ qualifier _ _ => qualifier

/-- The texts of joins. The first nested query in them is the `i`-th attached statement. -/
def clauses (i : Nat) : List Joined → List Join
  | [] => []
  | table kind t left right :: rest => ⟨kind, t.text, left.text, right.text⟩ :: clauses i rest
  | nested kind _ qualifier left right :: rest =>
    ⟨kind, [.text "(", .attached i, .text (") AS " ++ quoteIdent qualifier)], left.text, right.text⟩ ::
      clauses (i + 1) rest

end Joined

mutual

def Select.statement : Select → Statement
  | ⟨outputs, source, joins, condition, grouping⟩ =>
    ⟨{ selected := outputs.map fun o => o.text
       source := some source.text
       joins := Joined.clauses 0 joins
       conditions := condition.toList.map fun m => ⟨m.column.text, distinct m.values⟩
       grouping := grouping.toList.map fun r => r.text },
      Joined.statements joins⟩

def Joined.statements : List Joined → List Statement
  | [] => []
  | .table _ _ _ _ :: rest => Joined.statements rest
  | .nested _ q _ _ _ :: rest => q.statement :: Joined.statements rest

end

/-- Queries whose rows are united. -/
structure Query where
  first : Select
  others : List Select

namespace Query

def selects (q : Query) : List Select := q.first :: q.others

def statement (q : Query) : Statement := q.first.statement.union (q.others.map (·.statement))

/-- The union of some queries, if there are any. -/
def unite? : List Select → Option Query
  | [] => none
  | q :: rest => some ⟨q, rest⟩

end Query
end EntityFeed.Sql
