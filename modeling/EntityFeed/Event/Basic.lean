import EntityFeed.Json.Basic

/-! Changes of single rows, as a replication feed reports them, and the ids that rows carry. -/
namespace EntityFeed

/-- A row image: its columns with their values. -/
abbrev Row := Members

/-- A value read as an id: a string as it is, an integer in decimal. Nothing else is an id. -/
def Json.idText? : Json → Option String
  | .str s => some s
  | .int n => some (toString n)
  | _ => none

def Row.idColumn (rows : List Row) (column : String) : List String :=
  rows.filterMap fun row => (row.get? column).bind Json.idText?

inductive Action where
  | insert
  | update
  | delete
  deriving DecidableEq, Repr, Inhabited

namespace Action

def all : List Action := [insert, update, delete]

def name : Action → String
  | insert => "INSERT"
  | update => "UPDATE"
  | delete => "DELETE"

end Action

/-- One change to one row, with the image of the row after and before it. -/
structure ChangeEvent where
  table : String
  action : Action
  data : Option Row
  dataOld : Option Row
  deriving Inhabited

namespace ChangeEvent

def insertion (table : String) (data : Row) : ChangeEvent := ⟨table, .insert, some data, none⟩

def replacement (table : String) (data dataOld : Row) : ChangeEvent :=
  ⟨table, .update, some data, some dataOld⟩

def deletion (table : String) (dataOld : Row) : ChangeEvent := ⟨table, .delete, none, some dataOld⟩

/-- Whether a new value is the one that the old image has in this column. -/
def unchanged (old : Option Row) (column : String) (value : Json) : Bool :=
  match old.bind (·.get? column) with
  | some before => before.same value
  | none => false

/-- The columns of an update whose new value is not the old one. Other events change no columns. -/
def changedColumns (e : ChangeEvent) : List String :=
  match e.action, e.data with
  | .update, some data =>
    (data.filter fun (column, value) => !unchanged e.dataOld column value).map (·.1)
  | _, _ => []

/-- The ids in a column, of the new image and then of the old one. -/
def idValues (e : ChangeEvent) (column : String) : List String :=
  Row.idColumn (e.data.toList ++ e.dataOld.toList) column

end ChangeEvent
end EntityFeed
