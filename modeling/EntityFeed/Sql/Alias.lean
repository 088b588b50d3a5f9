/-! Aliases of tables within one statement: the table's name and how many times the statement has
used the table so far. -/
namespace EntityFeed.Sql

/-- The tables for which a statement has taken an alias, the last first. -/
structure Aliases where
  issued : List String := []

namespace Aliases

/-- The next alias for `table`. -/
def next (a : Aliases) (table : String) : String × Aliases :=
  (table ++ "_" ++ toString (a.issued.count table + 1), ⟨table :: a.issued⟩)

def nextAll (a : Aliases) : List String → List String × Aliases
  | [] => ([], a)
  | table :: rest =>
    let (qualifier, a) := a.next table
    let (others, a) := a.nextAll rest
    (qualifier :: others, a)

@[simp] theorem issued_next (a : Aliases) (table : String) :
    (a.next table).2.issued = table :: a.issued := rfl

example : (nextAll {} ["user", "article", "user"]).1 = ["user_1", "article_1", "user_2"] := by
  decide +kernel

end Aliases
end EntityFeed.Sql
