import EntityFeed.Disk.Path
import EntityFeed.Failure
import EntityFeed.Pending.Table

/-! A disk: directories and the files in them. A location is the list of steps that lead there from
the very top, where a step up stays. There are no links, so a step up undoes a step down. -/
namespace EntityFeed

inductive Content where
  | bytes (b : List UInt8)
  | database (t : Pending.Table)

/-- The steps that lead from the very top to a file or directory. -/
abbrev Location := List String

def Location.text (l : Location) : String := "/" ++ String.intercalate "/" l

structure Disk where
  /-- How paths begin that lead to what lies in `home`. -/
  root : String
  /-- A directory that is always there, and with it those above it. -/
  home : Location
  directories : List Location := []
  files : List (Location × Content) := []

namespace Disk

def isDirectory (d : Disk) (l : Location) : Bool :=
  l.isPrefixOf d.home || d.directories.contains l

def file? (d : Disk) (l : Location) : Option Content := d.files.lookup l

/-- Whether something can be looked up in a location. -/
def enter (d : Disk) (l : Location) : Except PathError Unit :=
  if d.isDirectory l then .ok ()
  else if (d.file? l).isSome then .error .notDirectory
  else .error .missing

/-- Follows steps from a location. The last step may lead to what is not there. -/
def walk (d : Disk) (here : Location) : List String → Except PathError Location
  | [] => .ok here
  | step :: rest => do
    d.enter here
    if step = ".." then d.walk here.dropLast rest
    else if Path.longestStep < step.utf8ByteSize then .error .nameTooLong
    else d.walk (here ++ [step]) rest

/-- The path with the location of `home` written out. -/
def expand (d : Disk) (path : String) : String :=
  let root := d.root.toList
  let rest := path.toList.drop root.length
  if root.isPrefixOf path.toList && (rest.isEmpty || rest.head? = some '/') then
    Location.text d.home ++ String.ofList rest
  else path

/-- The steps from the very top to a path. A path that does not say where it starts leads nowhere.
-/
def steps (d : Disk) (path : String) : Except PathError (List String) :=
  let cs := (d.expand path).toList
  if cs.contains '\x00' then .error .nulByte
  else if Path.longest < (d.expand path).utf8ByteSize then .error .nameTooLong
  else if cs.head? = some '/' then .ok (Path.steps cs)
  else .error .missing

def locate (d : Disk) (path : String) : Except PathError Location := do
  let l ← d.walk [] (← d.steps path)
  if Path.endsIdle path then d.enter l
  return l

def readText (d : Disk) (path : String) : Except PathError String := do
  let l ← d.locate path
  match d.file? l with
  | some (.bytes b) =>
    match String.fromUTF8? (ByteArray.mk b.toArray) with
    | some text => return text
    | none => .error .notText
  | some (.database _) => .error .notText
  | none => if d.isDirectory l then .error .isDirectory else .error .missing

def write (d : Disk) (l : Location) (c : Content) : Disk :=
  { d with files := (l, c) :: d.files.filter (·.1 != l) }

/-- Makes one directory, which must not be there. -/
def makeDirectory (d : Disk) (steps : List String) : Except PathError Disk := do
  let l ← d.walk [] steps
  if d.isDirectory l ∨ (d.file? l).isSome then .error .alreadyThere
  else do
    d.enter l.dropLast
    return { d with directories := l :: d.directories }

/-- Makes one directory, unless the steps lead to a directory already. -/
def ensureDirectory (d : Disk) (steps : List String) : Except PathError Disk :=
  (d.makeDirectory steps).tryCatch fun e =>
    match d.walk [] steps with
    | .ok l => if d.isDirectory l then .ok d else .error e
    | .error _ => .error e

/-- Makes a directory and those above it that are missing. The steps are given backwards. What was
made before a failure stays. -/
def makeDirectories (d : Disk) : List String → Except PathError Unit × Disk
  | [] => (.ok (), d)
  | step :: above =>
    match d.ensureDirectory (step :: above).reverse with
    | .ok d => (.ok (), d)
    | .error .missing =>
      match d.makeDirectories above with
      | (.ok (), d) =>
        match d.ensureDirectory (step :: above).reverse with
        | .ok d => (.ok (), d)
        | .error e => (.error e, d)
      | failed => failed
    | .error e => (.error e, d)

example : ((⟨"here", ["a"], [["a", "b"]], []⟩ : Disk).locate "here/b/../c").toOption =
    some ["a", "c"] := by decide +kernel

/-- Puts a file with the directories above it on the disk. -/
def install (d : Disk) (path : String) (c : Content) : Except PathError Disk := do
  let steps ← d.steps path
  let (made, d) := d.makeDirectories steps.dropLast.reverse
  made
  return d.write (← d.locate path) c

end Disk
end EntityFeed
