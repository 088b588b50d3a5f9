import EntityFeed.Pending.Batches
import Std.Data.HashSet.Basic

/-! Pending ids in memory: the order in which they were added, beside the set of them that answers
quickly whether an id is pending. -/
namespace EntityFeed.Pending

structure MemorySet where
  order : List String := []
  members : Std.HashSet String := {}

namespace MemorySet

/-- Adds an id behind the others unless it is pending. -/
def insert (s : MemorySet) (id : String) : MemorySet :=
  if s.members.contains id then s else ⟨s.order ++ [id], s.members.insert id⟩

def add (s : MemorySet) (ids : List String) : MemorySet := ids.foldl insert s

/-- The members without some ids, and whether one of these was among them. -/
def without (s : MemorySet) (ids : List String) : Std.HashSet String × Bool :=
  ids.foldl (fun (members, removed) id => (members.erase id, removed || members.contains id))
    (s.members, false)

/-- Takes ids away; those that are not pending do not matter. If none of them is, the order is not
touched. -/
def remove (s : MemorySet) (ids : List String) : MemorySet :=
  let (members, removed) := s.without ids
  if removed then ⟨s.order.filter members.contains, members⟩ else ⟨s.order, members⟩

def snapshot (s : MemorySet) : List String := s.order

def size (s : MemorySet) : Nat := s.order.length

end MemorySet
end EntityFeed.Pending
