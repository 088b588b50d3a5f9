import EntityFeed.Pending.Store
import EntityFeed.Settings.Basic

/-! Settings and schemas in files. Paths in the settings are seen from the directory of their file.
-/
namespace EntityFeed

/-- Reads a schema: as TOML if the file's extension says so, else as JSON. -/
def RootSchema.loadFile (d : Disk) (path : String) : Except Failure RootSchema := do
  let text ← (d.readText path).mapError fun e => .file path (.unreadable e)
  let format := if Path.extension? path = some "toml" then Format.toml else .json
  (RootSchema.load format text).mapError fun m => .file path (.refused m)

namespace StoreSettings

/-- The settings with the path as seen from the directory `base`. -/
def resolve (base : String) : StoreSettings → StoreSettings
  | memory => memory
  | database path key => database (Path.join base path) key

/-- Opens the store. A store in memory starts empty. -/
def openStore (d : Disk) : StoreSettings → Except Failure Pending.Store × Disk
  | memory => (.ok .empty, d)
  | database path key =>
    match Pending.openSet d path key with
    | (.ok h, d) => (.ok (.database h), d)
    | (.error e, d) => (.error (.store e.causes), d)

end StoreSettings

namespace Settings

def loadFile (d : Disk) (path : String) : Except Failure Settings := do
  let text ← (d.readText path).mapError fun e => .file path (.unreadable e)
  let s ← (load text).mapError fun m => .file path (.refused m)
  let base := Path.parent path
  return { s with schemaPath := Path.join base s.schemaPath, store := s.store.resolve base }

end Settings
end EntityFeed
