/-! Paths as text. A path is joined and cut without a look at the disk, so what leads up and down
again stays in the text. -/
namespace EntityFeed.Path

def longest : Nat := 4095

def longestStep : Nat := 255

/-- The text of `path` as seen from the directory `base`. -/
def join (base path : String) : String :=
  if path.startsWith "/" ∨ base.isEmpty then path
  else if base.endsWith "/" then base ++ path
  else base ++ "/" ++ path

/-- Drops what does not matter at the end of a path, which is given backwards: slashes and single
dots. -/
def dropIdle : List Char → List Char
  | '/' :: rest => dropIdle rest
  | '.' :: '/' :: rest => dropIdle rest
  | cs => cs

/-- A path backwards without its last step. -/
def beforeLast (reversed : List Char) : List Char :=
  dropIdle ((dropIdle reversed).dropWhile (· != '/'))

def last (path : String) : List Char :=
  ((dropIdle path.toList.reverse).takeWhile (· != '/')).reverse

def parent (path : String) : String := String.ofList (beforeLast path.toList.reverse).reverse

/-- What follows the last dot of the last step, which must not be its first character. -/
def extension? (path : String) : Option String :=
  let name := last path
  let ending := name.reverse.takeWhile (· != '.')
  if name = ['.', '.'] ∨ name.length ≤ ending.length + 1 then none
  else some (String.ofList ending.reverse)

/-- The steps of a path, those that go nowhere left out. -/
def steps (path : List Char) : List String :=
  ((path.splitOn '/').map String.ofList).filter fun s => s ≠ "" ∧ s ≠ "."

/-- Whether the text says that it leads to a directory. -/
def endsIdle (path : String) : Bool := dropIdle path.toList.reverse != path.toList.reverse

example : parent "a/b/./c.toml" = "a/b" := by decide +kernel
example : extension? "a/x.toml" = some "toml" ∧ extension? "a/.toml" = none := by decide +kernel

end EntityFeed.Path
