import EntityFeed.Schema.Loading

/-! The settings of a feed: where its schema is, and how and where pending ids are kept. They are
written as a TOML document, in which an unknown setting is refused. -/
namespace EntityFeed

inductive StoreSettings where
  | memory
  /-- A database file, in which each key has a set of its own. -/
  | database (path key : String)
  deriving DecidableEq, Repr

structure Settings where
  schemaPath : String
  batchSize : Nat
  dedupeArrays : Bool
  store : StoreSettings
  databaseUrl : Option String
  deriving DecidableEq, Repr

namespace StoreSettings

def defaultKey : String := "pending"

def toJson : StoreSettings → Json
  | memory => .obj [("kind", .str "memory")]
  | database path key => .obj [("kind", .str "sqlite"), ("path", .str path), ("key", .str key)]

inductive Kind where
  | memory
  | database
  deriving DecidableEq

def Kind.read : Json → Except Misfit Kind
  | .str "memory" => .ok memory
  | .str "sqlite" => .ok database
  | .str s => .error (.unknownVariant s ["memory", "sqlite"])
  | v => .error (.type (.ofJson .toml v) "variant identifier")

def readPath : Json → Except Misfit String
  | .str s => .ok s
  | v => .error (.type (.ofJson .toml v) "path string")

/-- Reads the entries for a database in their order, and passes over those it does not know. -/
def readDatabase (path key : Option String) : Members → Except Misfit StoreSettings
  | [] =>
    match path with
    | some path => .ok (.database path (key.getD defaultKey))
    | none => .error (.missingField "path")
  | (name, v) :: rest => do
    if name = "path" then readDatabase (some (← readPath v)) key rest
    else if name = "key" then readDatabase path (some (← Origin.toml.string v)) rest
    else readDatabase path key rest

/-- Reads the parts that follow the kind in an array; `n` is their number. -/
def readParts (n : Nat) : Kind → List Json → Except Misfit StoreSettings
  | .memory, [] => .ok .memory
  | .memory, _ => .error (.length n "0 elements in sequence")
  | .database, [] => .error (.length 0 "struct variant StoreConfig::Sqlite with 2 elements")
  | .database, [path] => return .database (← readPath path) defaultKey
  | .database, path :: key :: more => do
    let store := StoreSettings.database (← readPath path) (← Origin.toml.string key)
    if more.isEmpty then return store else .error (.length n "2 elements in sequence")

/-- Reads the settings of a store: a table with its kind, or an array that begins with it. -/
def read : Json → Except Misfit StoreSettings
  | .obj entries =>
    match Members.get? entries "kind" with
    | none => .error (.missingField "kind")
    | some kind => do
      match ← Kind.read kind with
      | .memory => return .memory
      | .database => readDatabase none none entries
  | .arr [] => .error (.missingField "kind")
  | .arr (kind :: parts) => do readParts parts.length (← Kind.read kind) parts
  | v => .error (.type (.ofJson .toml v) "internally tagged enum StoreConfig")

end StoreSettings

namespace Settings

def defaultBatchSize : Nat := 1000

def toJson (s : Settings) : Json :=
  .obj ([("schema_path", .str s.schemaPath), ("batch_size", .int s.batchSize),
    ("dedupe_arrays", .bool s.dedupeArrays), ("store", s.store.toJson)] ++
    s.databaseUrl.toList.map fun url => ("database_url", .str url))

def names : List String :=
  ["schema_path", "batch_size", "dedupe_arrays", "store", "database_url"]

/-- The settings as far as they are read. Only the path of the schema has no default. -/
structure Draft where
  schemaPath : Option String := none
  batchSize : Nat := defaultBatchSize
  dedupeArrays : Bool := false
  store : StoreSettings := .memory
  databaseUrl : Option String := none

def readSize : Json → Except Misfit Nat
  | .int (.ofNat n) => .ok n
  | .int n => .error (.value (.integer n) "usize")
  | v => .error (.type (.ofJson .toml v) "usize")

def Draft.set (d : Draft) (name : String) (v : Json) : Except Misfit Draft := do
  match name with
  | "schema_path" => return { d with schemaPath := some (← StoreSettings.readPath v) }
  | "batch_size" => return { d with batchSize := ← readSize v }
  | "dedupe_arrays" => return { d with dedupeArrays := ← Origin.toml.boolean v }
  | "store" => return { d with store := ← StoreSettings.read v }
  | "database_url" => return { d with databaseUrl := some (← Origin.toml.string v) }
  | _ => .error (.unknownField name names)

def read (entries : Members) : Except Misfit Settings := do
  let d ← entries.foldlM (fun d (name, v) => d.set name v) ({} : Draft)
  match d.schemaPath with
  | none => .error (.missingField "schema_path")
  | some path => return ⟨path, d.batchSize, d.dedupeArrays, d.store, d.databaseUrl⟩

/-- Settings from the text of a document. No batch may be empty. -/
def load (text : String) : Except Misconfiguration Settings := do
  match Toml.read? text with
  | some (.obj entries) =>
    let s ← (read entries).mapError fun m => .settingsText (.misfit m)
    if s.batchSize = 0 then .error .zeroBatchSize else return s
  | _ => .error (.settingsText .malformedToml)

end Settings
end EntityFeed
