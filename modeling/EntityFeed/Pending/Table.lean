/-! Pending ids as rows of a database table that all sets of a file share. Rows are numbered in the
order of their insertion, and a number is never used again; a set has one row for an id. -/
namespace EntityFeed.Pending

structure Entry where
  seq : Nat
  key : String
  id : String
  deriving DecidableEq, Repr

structure Table where
  rows : List Entry := []
  nextSeq : Nat := 1
  deriving Repr

namespace Table

def contains (t : Table) (key id : String) : Bool :=
  t.rows.any fun r => r.key == key && r.id == id

/-- Inserts a row unless its set has the id. -/
def insert (t : Table) (key id : String) : Table :=
  if t.contains key id then t else ⟨t.rows ++ [⟨t.nextSeq, key, id⟩], t.nextSeq + 1⟩

def erase (t : Table) (key id : String) : Table :=
  { t with rows := t.rows.filter fun r => !(r.key == key && r.id == id) }

/-- Inserts ids one after the other and counts the rows that this makes. -/
def add (t : Table) (key : String) (ids : List String) : Nat × Table :=
  ids.foldl (fun (inserted, t) id =>
    (inserted + (if t.contains key id then 0 else 1), t.insert key id)) (0, t)

/-- Erases ids one after the other and counts the rows that this takes. -/
def remove (t : Table) (key : String) (ids : List String) : Nat × Table :=
  ids.foldl (fun (removed, t) id =>
    (removed + t.rows.countP (fun r => r.key == key && r.id == id), t.erase key id)) (0, t)

/-- The ids of a set by the numbers of their rows. -/
def snapshot (t : Table) (key : String) : List String :=
  ((t.rows.filter (·.key == key)).mergeSort fun a b => a.seq ≤ b.seq).map (·.id)

def size (t : Table) (key : String) : Nat := t.rows.countP (·.key == key)

end Table
end EntityFeed.Pending
