import EntityFeed.Json.Basic

/-! Tables while a document is read. A table may be opened once by a header and may be filled once
by dotted keys; what would define it again is refused. -/
namespace EntityFeed.Toml

/-- What a key of a table stands for. -/
inductive Entry where
  /-- A value, to which nothing can be added. -/
  | value (v : Json)
  /-- A table. It is implicit if it is only on the way to another one, and dotted if keys with dots
  made it. -/
  | table (isImplicit dotted : Bool) (entries : List (String × Entry))
  /-- The tables of an array, the last of which is open. -/
  | tables (done : List (List (String × Entry)))

abbrev Entries := List (String × Entry)

namespace Entries

def put (key : String) (e : Entry) : Entries → Entries
  | [] => [(key, e)]
  | (k, old) :: rest => if k = key then (k, e) :: rest else (k, old) :: put key e rest

def remove (key : String) (es : Entries) : Entries := es.filter (·.1 != key)

mutual

def toJson : Entry → Json
  | .value v => v
  | .table _ _ entries => .obj (members entries)
  | .tables done => .arr (objects done)

def members : List (String × Entry) → Members
  | [] => []
  | (key, e) :: rest => (key, toJson e) :: members rest

def objects : List (List (String × Entry)) → List Json
  | [] => []
  | entries :: rest => .obj (members entries) :: objects rest

end

/-- Changes the table at the end of a path, which `f` gets with whether it is dotted. Tables that
are not there are made; through dotted keys only such tables are reached as no header has opened. -/
def within (viaDots : Bool) (f : Bool → Entries → Option Entries) :
    List String → Bool → Entries → Option Entries
  | [], dotted, es => f dotted es
  | key :: path, _, es =>
    match es.lookup key with
    | none => do
      let inner ← within viaDots f path viaDots []
      return es ++ [(key, .table true viaDots inner)]
    | some (.value _) => none
    | some (.tables done) =>
      match done.getLast? with
      | none => none
      | some last => do
        let inner ← within viaDots f path false last
        return es.put key (.tables (done.dropLast ++ [inner]))
    | some (.table isImplicit dotted inner) =>
      if viaDots && !isImplicit then none
      else do
        let inner ← within viaDots f path dotted inner
        return es.put key (.table isImplicit dotted inner)

/-- Gives a new key of the table at a dotted path a value. The table must be dotted if the path
leads anywhere, and must not be if it does not. -/
def assign (es : Entries) (path : List String) (key : String) (v : Json) : Option Entries :=
  es.within true (fun dotted es =>
    if dotted == path.isEmpty || (es.lookup key).isSome then none
    else some (es ++ [(key, .value v)])) path false

end Entries

/-- A document as far as it is read: the tables that are finished, and the one that the last header
opened. -/
structure Draft where
  root : Entries := []
  current : Entries := []
  /-- Where the open table belongs; the root table is open before the first header. -/
  path : List String := []
  inArray : Bool := false

namespace Draft

/-- Puts the open table where it belongs. -/
def close (d : Draft) : Option Entries :=
  match d.path.getLast? with
  | none => some d.current
  | some key =>
    d.root.within false (fun _ es =>
      match d.inArray, es.lookup key with
      | true, none => some (es ++ [(key, .tables [d.current])])
      | true, some (.tables done) => some (es.put key (.tables (done ++ [d.current])))
      | false, none => some (es ++ [(key, .table false false d.current)])
      | false, some (.table true _ _) => some (es.put key (.table false false d.current))
      | _, _ => none) d.path.dropLast false

/-- Opens the table of a header. A table that so far was only on the way to others is taken up
again, and moves behind its siblings. -/
def openTable (d : Draft) (path : List String) : Option Draft := do
  let root ← d.close
  let key ← path.getLast?
  let mut found : Entries := []
  let siblings ← root.within false (fun _ es => some es) path.dropLast false
  let parent := siblingsOf siblings path.dropLast
  match parent.lookup key with
  | none => return { root := siblings, path := path }
  | some (.table true false inner) =>
    found := inner
    let root ← siblings.within false (fun _ es => some (es.remove key)) path.dropLast false
    return { root := root, current := found, path := path }
  | some _ => none
where
  siblingsOf (es : Entries) : List String → Entries
    | [] => es
    | key :: path =>
      match es.lookup key with
      | some (.table _ _ inner) => siblingsOf inner path
      | some (.tables done) => siblingsOf (done.getLast?.getD []) path
      | _ => []

/-- Opens a further table of an array. -/
def openItem (d : Draft) (path : List String) : Option Draft := do
  let root ← d.close
  let key ← path.getLast?
  let root ← root.within false (fun _ es =>
    match es.lookup key with
    | none => some (es ++ [(key, .tables [])])
    | some (.tables _) => some es
    | some _ => none) path.dropLast false
  return { root := root, path := path, inArray := true }

def assign (d : Draft) (path : List String) (key : String) (v : Json) : Option Draft := do
  return { d with current := ← d.current.assign path key v }

end Draft
end EntityFeed.Toml
