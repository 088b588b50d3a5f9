import EntityFeed.Event.Basic
import EntityFeed.Normalization

/-! What a rebuilt batch of ids comes to: the objects of the entities that are there, and the ids of
those that are not. -/
namespace EntityFeed

/-- An entity with its current object. -/
structure Upsert where
  id : String
  object : Json

structure Changes where
  upsert : List Upsert := []
  delete : List String := []

namespace Changes

def isEmpty (c : Changes) : Bool := c.upsert.isEmpty && c.delete.isEmpty

def size (c : Changes) : Nat := c.upsert.length + c.delete.length

/-- The objects in the rows of an object query, by id and clean. A row without an id is passed over,
of rows with the same id the last one counts, and a row without an object has null. -/
def objects (options : NormalizeOptions) (rows : List Row) : Members :=
  rows.foldl (fun found row =>
    match (row.get? "id").bind Json.idText? with
    | some id => found.insert id (((row.get? "object").getD .null).normalize options)
    | none => found) []

/-- Decides each id of a batch: it is there with its object, which is used up, or it is gone. -/
def decide (objects : Members) : List String → Changes
  | [] => {}
  | id :: rest =>
    match objects.get? id with
    | some object =>
      let others := decide (objects.filter (·.1 != id)) rest
      { others with upsert := ⟨id, object⟩ :: others.upsert }
    | none =>
      let others := decide objects rest
      { others with delete := id :: others.delete }

/-- What the rows of an object query say about the ids it was made for. -/
def ofRows (options : NormalizeOptions) (ids : List String) (rows : List Row) : Changes :=
  decide (objects options rows) ids

end Changes
end EntityFeed
