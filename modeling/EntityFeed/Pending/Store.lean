import EntityFeed.Pending.Database
import EntityFeed.Pending.MemorySet

/-! A store of pending ids, of either kind. What a store in a database holds is on the disk, so
every operation is given the disk and gives it back. -/
namespace EntityFeed.Pending

inductive Store where
  | memory (s : MemorySet)
  | database (h : Handle)

namespace Store

def empty : Store := memory {}

def add (s : Store) (d : Disk) (ids : List String) : Store × Disk :=
  match s with
  | memory m => (memory (m.add ids), d)
  | database h => (database h, (h.add d ids).2)

def remove (s : Store) (d : Disk) (ids : List String) : Store × Disk :=
  match s with
  | memory m => (memory (m.remove ids), d)
  | database h => (database h, (h.remove d ids).2)

def snapshot (s : Store) (d : Disk) : List String :=
  match s with
  | memory m => m.snapshot
  | database h => h.snapshot d

def size (s : Store) (d : Disk) : Nat :=
  match s with
  | memory m => m.size
  | database h => h.size d

end Store
end EntityFeed.Pending
