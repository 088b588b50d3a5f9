import EntityFeed.Disk.Basic

/-! Pending ids in database files. Whoever opens the same file with the same key has the same set.
-/
namespace EntityFeed.Pending

/-- Why a set of a file cannot be opened. -/
inductive OpenError where
  | emptyKey
  | noDirectory (path : String) (e : PathError)
  /-- The path has a NUL at a position. -/
  | nulByte (path : String) (position : Nat)
  | noFile (path : String)
  | noDatabase
  /-- There is no room for the name of a journal beside the file. -/
  | noJournal
  deriving DecidableEq

def OpenError.causes : OpenError → Causes
  | emptyKey => ["pending id set key cannot be empty"]
  | noDirectory path e => ["failed to create id set directory " ++ path, e.message]
  | nulByte path n =>
    let found := "nul byte found in provided data at position: " ++ toString n
    ["failed to open id set database " ++ path, found, found]
  | noFile path =>
    ["failed to open id set database " ++ path, "unable to open database file: " ++ path,
      "Error code 14: Unable to open the database file"]
  | noDatabase =>
    ["failed to enable WAL for id set", "file is not a database",
      "Error code 26: File opened that is not a database file"]
  | noJournal =>
    ["failed to enable WAL for id set", "unable to open database file",
      "Error code 14: Unable to open the database file"]

structure Handle where
  path : String
  key : String
  file : Location

/-! Where the database of a path is. Its steps are followed in the text alone, so that a slash at
the end does not matter. -/

/-- The most bytes that the text of a location may have on the way. -/
def longestOnTheWay : Nat := 511

def longestLocation : Nat := 504

/-- What is put behind the name of a database for the name of its journal. -/
def journalSuffix : String := "-journal"

def follow? (l : Location) (step : String) : Option Location :=
  if step = ".." then some l.dropLast
  else
    let l := l ++ [step]
    if step.utf8ByteSize ≤ Path.longestStep ∧ l.text.utf8ByteSize ≤ longestOnTheWay then some l
    else none

/-- The location of a database, which is in a directory and is none itself. -/
def location? (d : Disk) (path : String) : Option Location := do
  let l ← (← (d.steps path).toOption).foldlM follow? []
  guard (l.text.utf8ByteSize ≤ longestLocation ∧ d.isDirectory l.dropLast ∧ !d.isDirectory l)
  return l

/-- Whether there is room for a journal beside a database. -/
def journalFits (l : Location) : Bool :=
  (l.getLastD "" ++ journalSuffix).utf8ByteSize ≤ Path.longestStep

/-- The position of the first NUL in a path. -/
def nulPosition? (d : Disk) (path : String) : Option Nat :=
  (d.expand path).toUTF8.toList.findIdx? (· == 0)

/-- Opens the database file of a path in a directory that is there; a new one is made. -/
def openFile (d : Disk) (path key : String) : Except OpenError (Handle × Disk) :=
  match nulPosition? d path, location? d path with
  | some n, _ => .error (.nulByte path n)
  | none, none => .error (.noFile path)
  | none, some l =>
    match d.file? l with
    | some (.database _) => .ok (⟨path, key, l⟩, d)
    | some (.bytes (_ :: _)) => .error .noDatabase
    | none | some (.bytes []) =>
      if journalFits l then .ok (⟨path, key, l⟩, d.write l (.database {})) else .error .noJournal

/-- Opens a set. The file and the directories above it are made if they are missing; the directories
stay even if the file cannot be opened. -/
def openSet (d : Disk) (path key : String) : Except OpenError Handle × Disk :=
  if key.isEmpty then (.error .emptyKey, d)
  else
    let parent := Path.parent path
    let (made, d) := match d.steps parent with
      | .ok steps => d.makeDirectories steps.reverse
      | .error e => (if parent.isEmpty then .ok () else .error e, d)
    match made with
    | .error e => (.error (.noDirectory parent e), d)
    | .ok () =>
      match openFile d path key with
      | .ok (h, d) => (.ok h, d)
      | .error e => (.error e, d)

namespace Handle

def table (h : Handle) (d : Disk) : Table :=
  match d.file? h.file with
  | some (.database t) => t
  | _ => {}

def add (h : Handle) (d : Disk) (ids : List String) : Nat × Disk :=
  let (n, t) := (h.table d).add h.key ids
  (n, d.write h.file (.database t))

def remove (h : Handle) (d : Disk) (ids : List String) : Nat × Disk :=
  let (n, t) := (h.table d).remove h.key ids
  (n, d.write h.file (.database t))

def snapshot (h : Handle) (d : Disk) : List String := (h.table d).snapshot h.key

def size (h : Handle) (d : Disk) : Nat := (h.table d).size h.key

end Handle
end EntityFeed.Pending
