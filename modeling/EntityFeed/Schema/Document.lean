import EntityFeed.Misfit
import EntityFeed.Schema.Flaw

/-! Schemas as documents: how a schema is written, and what documents are read as one. A record may
be written as an object, in any order and with further fields, or as the array of its fields in
order; a node begins with its kind. -/
namespace EntityFeed

namespace Node

mutual

def toJson : Node → Json
  | .column name => .obj [("type", .str "column"), ("column", .str name)]
  | .object properties =>
    .obj [("type", .str "object"), ("properties", .obj (toJsonOfAll properties))]
  | .relation (.belongsTo r) node =>
    .obj [("type", .str "many-to-one"), ("column", .str r.column),
      ("referencesTable", .str r.table), ("referencesColumn", .str r.key),
      ("hasFKConstraint", .bool r.guarded), ("schema", toJson node)]
  | .relation (.hasMany r) node =>
    .obj [("type", .str "one-to-many"), ("column", .str r.column),
      ("referencingTable", .str r.table), ("referencingColumn", .str r.key),
      ("schema", toJson node)]

def toJsonOfAll : List (String × Node) → Members
  | [] => []
  | (name, node) :: rest => (name, toJson node) :: toJsonOfAll rest

end

end Node

def RootSchema.toJson (s : RootSchema) : Json :=
  .obj [("table", .str s.table), ("primaryKey", .str s.primaryKey), ("schema", s.node.toJson)]

inductive NodeKind where
  | column
  | object
  | belongsTo
  | hasMany
  deriving DecidableEq

inductive NodePart where
  | column
  | table
  | key
  | guarded
  | node
  | properties
  deriving DecidableEq

namespace NodeKind

def all : List NodeKind := [column, object, belongsTo, hasMany]

def name : NodeKind → String
  | column => "column"
  | object => "object"
  | belongsTo => "many-to-one"
  | hasMany => "one-to-many"

/-- The parts of a node of this kind with the names of their fields, in the order of its array. -/
def fields : NodeKind → List (String × NodePart)
  | column => [("column", .column)]
  | object => [("properties", .properties)]
  | belongsTo =>
    [("column", .column), ("referencesTable", .table), ("referencesColumn", .key),
      ("hasFKConstraint", .guarded), ("schema", .node)]
  | hasMany =>
    [("column", .column), ("referencingTable", .table), ("referencingColumn", .key),
      ("schema", .node)]

/-- What the array of a node of this kind should have been. -/
def expected (k : NodeKind) : String :=
  (match k with
    | column => "struct ColumnSchema with "
    | object => "struct ObjectSchema with "
    | belongsTo => "struct ManyToOneSchema with "
    | hasMany => "struct OneToManySchema with ") ++ Misfit.elements k.fields.length

/-- The kind that a document names. Within a node, JSON may give its number instead. -/
def read (o : Origin) (inner : Bool) : Json → Except Misfit NodeKind
  | .str s =>
    match all.find? (·.name = s) with
    | some k => .ok k
    | none => .error (.unknownVariant s (all.map name))
  | .int n =>
    if inner && o != .toml && 0 ≤ n then
      match all[n.toNat]? with
      | some k => .ok k
      | none => .error (.value (.integer n) "variant index 0 <= i < 4")
    else .error (.type (.integer n) "variant identifier")
  | v => .error (.type (.ofJson o v) "variant identifier")

/-- The kind that an outermost node's document names as it is spelt. -/
def readSpelling (o : Origin) : Json.Spelling → Except Misfit NodeKind
  | .scalar v => read o false v
  | t => .error (o.mismatch "variant identifier" t)

/-- The kind of an object: the value of its one field `type`. -/
def ofMembers (o : Origin) (inner : Bool) (found : Option NodeKind) :
    Members → Except Misfit NodeKind
  | [] =>
    match found with
    | some k => .ok k
    | none => .error (.missingField "type")
  | (name, v) :: rest =>
    if name = "type" then
      match found with
      | some _ => .error (.duplicateField "type")
      | none => do ofMembers o inner (some (← read o inner v)) rest
    else ofMembers o inner found rest

end NodeKind

structure NodeDraft where
  column : Option String := none
  table : Option String := none
  key : Option String := none
  guarded : Option Bool := none
  node : Option Node := none
  properties : Option (List (String × Node)) := none

namespace NodeDraft

def has (d : NodeDraft) : NodePart → Bool
  | .column => d.column.isSome
  | .table => d.table.isSome
  | .key => d.key.isSome
  | .guarded => d.guarded.isSome
  | .node => d.node.isSome
  | .properties => d.properties.isSome

/-- Reads a part that is a string or a truth value. -/
def setScalar (o : Origin) (d : NodeDraft) (v : Json) : NodePart → Except Misfit NodeDraft
  | .column => return { d with column := some (← o.string v) }
  | .table => return { d with table := some (← o.string v) }
  | .key => return { d with key := some (← o.string v) }
  | .guarded => return { d with guarded := some (← o.boolean v) }
  | .node | .properties => return d

def finish (d : NodeDraft) (k : NodeKind) : Except Misfit Node :=
  match k.fields.find? fun (_, part) => !d.has part with
  | some (name, _) => .error (.missingField name)
  | none =>
    let column := d.column.getD ""
    let table := d.table.getD ""
    let key := d.key.getD ""
    let node := d.node.getD default
    .ok <| match k with
      | .column => .column column
      | .object => .object (d.properties.getD [])
      | .belongsTo => .relation (.belongsTo ⟨column, table, key, d.guarded.getD false⟩) node
      | .hasMany => .relation (.hasMany ⟨column, table, key⟩) node

end NodeDraft

namespace Node

mutual

/-- Reads a node; `inner` says that it is part of another one. -/
def read (o : Origin) (inner : Bool) : Json → Except Misfit Node
  | .obj members => do
    let k ← NodeKind.ofMembers o inner none members
    (← readFields o k {} members).finish k
  | .arr items => readItems o inner items
  | v => .error (.type (.ofJson o v) "internally tagged enum Schema")

def readItems (o : Origin) (inner : Bool) : List Json → Except Misfit Node
  | [] => .error (.missingField "type")
  | tag :: rest => do
    let k ← NodeKind.read o inner tag
    (← readElements o k 0 {} rest).finish k

def readFields (o : Origin) (k : NodeKind) (d : NodeDraft) : Members → Except Misfit NodeDraft
  | [] => .ok d
  | (name, v) :: rest =>
    match k.fields.lookup name with
    | none => readFields o k d rest
    | some part =>
      if d.has part then .error (.duplicateField name)
      else do
        let d ← match part with
          | .node => do pure { d with node := some (← read o true v) }
          | .properties => do pure { d with properties := some (← readProperties o v) }
          | scalar => d.setScalar o v scalar
        readFields o k d rest

/-- Reads the array of a node's parts, `count` of which are read. -/
def readElements (o : Origin) (k : NodeKind) (count : Nat) (d : NodeDraft) :
    List Json → Except Misfit NodeDraft
  | [] => if count < k.fields.length then .error (.length count k.expected) else .ok d
  | v :: rest =>
    match k.fields[count]? with
    | none =>
      .error (.length (count + 1 + rest.length) (Misfit.elements count ++ " in sequence"))
    | some (_, part) => do
      let d ← match part with
        | .node => do pure { d with node := some (← read o true v) }
        | .properties => do pure { d with properties := some (← readProperties o v) }
        | scalar => d.setScalar o v scalar
      readElements o k (count + 1) d rest

def readProperties (o : Origin) : Json → Except Misfit (List (String × Node))
  | .obj members => readEntries o [] members
  | v => .error (.type (.ofJson o v) "a map of property names to schemas")

/-- Reads the properties of an object behind those that are read. -/
def readEntries (o : Origin) (done : List (String × Node)) :
    Members → Except Misfit (List (String × Node))
  | [] => .ok done
  | (name, v) :: rest => do
    let node ← read o true v
    if done.any (·.1 = name) then .error (.duplicateProperty name)
    else readEntries o (done ++ [(name, node)]) rest

end

end Node

open Json (Spelling)

/-- The values of an outermost node's fields. In the order of the text, a kind that is none or is
given twice is refused before what follows it is looked at. -/
def Node.memberValues (o : Origin) (kindSeen : Bool) :
    List (Except Json.Fault String × Spelling) → Except Misfit Members
  | [] => .ok []
  | (key, t) :: rest => do
    let name ← readKey key
    if name = "type" then
      if kindSeen then .error (.duplicateField name)
      else
        let _ ← NodeKind.readSpelling o t
        return (name, ← t.read) :: (← memberValues o true rest)
    else return (name, ← t.read) :: (← memberValues o kindSeen rest)

/-- The value of an outermost node, which has to have one throughout. -/
def Node.value (o : Origin) : Spelling → Except Misfit Json
  | .obj members => do return .obj (← memberValues o false members)
  | .arr (kind :: rest) => do
    let _ ← NodeKind.readSpelling o kind
    (Spelling.arr (kind :: rest)).read
  | t => t.read

def Node.readSpelling (o : Origin) (t : Spelling) : Except Misfit Node := do
  read o false (← value o t)

structure RootDraft where
  table : Option String := none
  primaryKey : Option String := none
  node : Option Node := none

namespace RootDraft

def expected : String := "struct RootSchema"

def finish (d : RootDraft) : Except Misfit RootSchema :=
  match d.table, d.primaryKey, d.node with
  | none, _, _ => .error (.missingField "table")
  | _, none, _ => .error (.missingField "primaryKey")
  | _, _, none => .error (.missingField "schema")
  | some table, some primaryKey, some node => .ok ⟨table, primaryKey, node⟩

def readField (o : Origin) (d : RootDraft) (name : String) (t : Spelling) :
    Except Misfit RootDraft :=
  if name = "table" then
    if d.table.isSome then .error (.duplicateField name)
    else do return { d with table := some (← o.text t) }
  else if name = "primaryKey" then
    if d.primaryKey.isSome then .error (.duplicateField name)
    else do return { d with primaryKey := some (← o.text t) }
  else if name = "schema" then
    if d.node.isSome then .error (.duplicateField name)
    else do return { d with node := some (← Node.readSpelling o t) }
  else .ok d

def readFields (o : Origin) (d : RootDraft) :
    List (Except Json.Fault String × Spelling) → Except Misfit RootDraft
  | [] => .ok d
  | (key, t) :: rest => do readFields o (← readField o d (← readKey key) t) rest

end RootDraft

namespace RootSchema

/-- Reads a schema, valid or not. -/
def readSpelling (o : Origin) : Spelling → Except Misfit RootSchema
  | .obj members => do (← RootDraft.readFields o {} members).finish
  | .arr items =>
    let short (n : Nat) : Except Misfit RootSchema :=
      .error (.length n (RootDraft.expected ++ " with " ++ Misfit.elements 3))
    match items with
    | [] => short 0
    | [t] => do let _ ← o.text t; short 1
    | [t, k] => do let _ ← o.text t; let _ ← o.text k; short 2
    | t :: k :: n :: rest => do
      let schema : RootSchema := ⟨← o.text t, ← o.text k, ← Node.readSpelling o n⟩
      if rest.isEmpty then return schema else .error (.leftOver o items.length)
  | t => .error (o.mismatch RootDraft.expected t)

/-- Reads a schema, valid or not, from a value. -/
def read (v : Json) : Except Misfit RootSchema := readSpelling .jsonValue (.ofJson v)

end RootSchema
end EntityFeed
