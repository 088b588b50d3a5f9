import EntityFeed.Event.Basic
import EntityFeed.Failure
import EntityFeed.Postgres.Column
import EntityFeed.Postgres.Parameter
import EntityFeed.Sql.Statement

/-! One query to a database server: the statement is prepared, its parameters are bound, and the
rows of the result are decoded. -/
namespace EntityFeed.Postgres

/-- Where a server fails. -/
inductive ServerFault where
  | prepare
  | execute
  deriving DecidableEq, Repr

structure Column where
  name : String
  type : String

structure Server where
  parameterTypes : List String
  columns : List Column
  /-- The cells of the rows, in the order of the columns. -/
  rows : List (List (Option (List UInt8)))
  fault : Option ServerFault := none

/-- What became of a query: the parameters that the server has received, if it has, and the result.
-/
structure Exchange where
  bound : Option (List (List UInt8))
  result : Except Causes (List Row)

/-- The bytes of some values as parameters of these types, of which there must be as many. -/
def encodeAll? : List String → List String → Option (List (List UInt8))
  | [], [] => some []
  | t :: types, v :: values => do
    let bytes ← (encodeParameter t v).toOption
    return bytes :: (← encodeAll? types values)
  | _, _ => none

/-- Decodes a row. Of columns with the same name the last one counts. -/
def decodeRow (row : Row) : List Column → List (Option (List UInt8)) → Except Causes Row
  | column :: columns, cell :: cells =>
    match decodeColumn? column.type cell with
    | some v => decodeRow (Members.insert column.name v row) columns cells
    | none => .error ["Failed to decode column '" ++ column.name ++ "'"]
  | _, _ => .ok row

def Server.query (s : Server) (q : Sql.Compiled) : Exchange :=
  let failed : Except Causes (List Row) := .error ["Query failed: " ++ q.sql]
  match s.fault, encodeAll? s.parameterTypes q.values with
  | some .prepare, _ | _, none => ⟨none, failed⟩
  | some .execute, some bound => ⟨some bound, failed⟩
  | none, some bound => ⟨some bound, s.rows.mapM (decodeRow [] s.columns)⟩

end EntityFeed.Postgres
