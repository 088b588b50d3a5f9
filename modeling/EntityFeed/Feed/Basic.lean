import EntityFeed.Feed.Work
import EntityFeed.Impact.Basic
import EntityFeed.ObjectQuery
import EntityFeed.Schema.Loading

/-! A feed keeps entities in step with the rows they are built from. An event leads to the ids of
the entities it may change, which become pending; a rebuild delivers the pending entities batch by
batch, and a batch stays pending until it has been accepted. -/
namespace EntityFeed

structure Report where
  batches : Nat := 0
  upserted : Nat := 0
  deleted : Nat := 0
  deriving DecidableEq, Repr

def Report.count (r : Report) (c : Changes) : Report :=
  ⟨r.batches + 1, r.upserted + c.upsert.length, r.deleted + c.delete.length⟩

structure Feed where
  schema : RootSchema
  options : NormalizeOptions := {}
  valid : schema.flaw? = none

namespace Feed

/-- A feed for a schema, which must be valid. -/
def ofSchema (schema : RootSchema) (options : NormalizeOptions) : Except Misconfiguration Feed :=
  match h : schema.flaw? with
  | none => .ok { schema, options, valid := h }
  | some f => .error (.schemaFlaw f)

/-- Asks for a rebuild, and ends with the ids that are queued for it. -/
def request (ids : List String) : Work (Except Failure (List String)) :=
  .call .schedule fun
    | .error e => .done (.error e)
    | .ok () => .done (.ok ids)

/-- Makes ids pending, each once, and asks for a rebuild even if there are none. -/
def enqueue (ids : List String) : Work (Except Failure (List String)) :=
  let ids := Sql.distinct ids
  if ids.isEmpty then request ids
  else .call (.add ids) fun
    | .error c => .done (.error (.store c))
    | .ok () => request ids

/-- Takes in an event: the ids of the entities it may change, those that only the database knows
included. -/
def receive (f : Feed) (e : ChangeEvent) : Work (Except Failure (List String)) :=
  let impact := f.schema.impact e
  match impact.query with
  | none => enqueue impact.ids
  | some q => .call (.query q.compile) fun
    | .error c => .done (.error (.query c))
    | .ok rows => enqueue (impact.ids ++ Row.idColumn rows "id")

def objectQuery (f : Feed) (ids : List String) : Sql.Compiled :=
  (f.schema.objectQuery ids {}).statement.compile

/-- Rebuilds batches one after the other. The first failure ends the run, and its batch and those
behind it stay pending. -/
def rebuildBatches (f : Feed) (r : Report) : List (List String) → Work (Except Failure Report)
  | [] => .done (.ok r)
  | ids :: rest =>
    .call (.query (f.objectQuery ids)) fun
      | .error c => .done (.error (.query c))
      | .ok rows =>
        let changes := Changes.ofRows f.options ids rows
        .call (.deliver changes) fun
          | .error c => .done (.error (.callback c))
          | .ok () => .call (.remove ids) fun
            | .error c => .done (.error (.store c))
            | .ok () => f.rebuildBatches (r.count changes) rest

/-- Rebuilds all ids that are pending when it starts. -/
def rebuild (f : Feed) : Work (Except Failure Report) :=
  .call .snapshot fun
    | .error c => .done (.error (.store c))
    | .ok batches => f.rebuildBatches {} batches

end Feed
end EntityFeed
