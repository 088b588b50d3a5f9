import EntityFeed.Impact.Discovery

/-! The impact of a change: the ids of the entities it may have changed, as far as the event gives
them away, and a query for the others. -/
namespace EntityFeed
open Sql

structure Impact where
  ids : List String
  branches : List Discovery

namespace Impact

/-- The queries for the ids that only the database knows, as one. -/
def union? (i : Impact) : Option Query := Query.unite? (i.branches.map (·.select))

def query (i : Impact) : Option Statement := i.union?.map (·.statement)

def isEmpty (i : Impact) : Bool := i.ids.isEmpty && i.branches.isEmpty

end Impact

namespace RootSchema

/-- The ids that an event gives away: those of a changed root row, and those of direct hits. -/
def directIds (s : RootSchema) (e : ChangeEvent) : List String :=
  (if s.rootRowChanged e then e.idValues s.primaryKey else []) ++
    ((s.hits e).filter (·.direct s)).flatMap fun v => e.idValues v.relation.key

def impact (s : RootSchema) (e : ChangeEvent) : Impact where
  ids := distinct ((s.directIds e).filter (· != ""))
  branches := discoveries s e ((s.hits e).filter (!·.direct s)) {}

end RootSchema
end EntityFeed
