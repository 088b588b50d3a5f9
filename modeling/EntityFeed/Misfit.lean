import EntityFeed.Json.Spelling
import EntityFeed.Text.Quotation

/-! Why a document does not have the form that is expected of it, with the words for it. -/
namespace EntityFeed

/-- Where a document comes from. It decides a few details of what is refused and how. -/
inductive Origin where
  | jsonText
  /-- A JSON value that has been read already, with each key of an object once. -/
  | jsonValue
  | toml
  deriving DecidableEq

/-- What stands where something else was expected. -/
inductive Found where
  | null
  | boolean (b : Bool)
  | integer (n : Int)
  | float (text : String)
  | string (s : String)
  | sequence
  | map
  deriving DecidableEq

namespace Found

/-- A TOML number that is no integer is shown without exponent. -/
def ofJson (o : Origin) : Json → Found
  | .null => null
  | .bool b => boolean b
  | .int n => integer n
  | .float x => float (x.render (if o = .toml then .plain else Json.numberLayout))
  | .str s => string s
  | .arr _ => sequence
  | .obj _ => map

def describe : Found → String
  | null => "null"
  | boolean b => "boolean `" ++ toString b ++ "`"
  | integer n => "integer `" ++ toString n ++ "`"
  | float text => "floating point `" ++ text ++ "`"
  | string s => "string " ++ Text.quotation s
  | sequence => "sequence"
  | map => "map"

end Found

inductive Misfit where
  | type (found : Found) (expected : String)
  | value (found : Found) (expected : String)
  | length (length : Nat) (expected : String)
  | missingField (name : String)
  | duplicateField (name : String)
  | unknownField (name : String) (known : List String)
  | unknownVariant (name : String) (known : List String)
  | duplicateProperty (name : String)
  /-- An array in JSON text has more elements than the record it stands for has fields. -/
  | trailingElements
  /-- JSON text has something else where the name of a variant should begin. -/
  | noVariant
  /-- A part that has to be read has no value. -/
  | unreadable (e : Json.Fault)
  deriving DecidableEq

namespace Misfit

def oneOf (names : List String) : String :=
  let ticked := names.map fun name => "`" ++ name ++ "`"
  match ticked with
  | [a] => a
  | [a, b] => a ++ " or " ++ b
  | _ => "one of " ++ String.intercalate ", " ticked

def message : Misfit → String
  | type found expected => "invalid type: " ++ found.describe ++ ", expected " ++ expected
  | value found expected => "invalid value: " ++ found.describe ++ ", expected " ++ expected
  | length n expected => "invalid length " ++ toString n ++ ", expected " ++ expected
  | missingField name => "missing field `" ++ name ++ "`"
  | duplicateField name => "duplicate field `" ++ name ++ "`"
  | unknownField name known => "unknown field `" ++ name ++ "`, expected " ++ oneOf known
  | unknownVariant name known => "unknown variant `" ++ name ++ "`, expected " ++ oneOf known
  | duplicateProperty name => "duplicate property '" ++ name ++ "'"
  | trailingElements => "trailing characters"
  | noVariant => "expected value"
  | unreadable e => e.message

def elements (n : Nat) : String :=
  toString n ++ (if n = 1 then " element" else " elements")

/-- Refuses elements left over when an array has been read as a record. -/
def leftOver (o : Origin) (length : Nat) : Misfit :=
  match o with
  | .jsonText => trailingElements
  | _ => .length length "fewer elements in array"

end Misfit

open Json (Spelling)

namespace Origin

/-- Refuses a part for what it is, or for having no value. -/
def mismatch (o : Origin) (expected : String) : Spelling → Misfit
  | .faulty e => .unreadable e
  | .scalar v => .type (.ofJson o v) expected
  | .arr _ => .type .sequence expected
  | .obj _ => .type .map expected

def string (o : Origin) : Json → Except Misfit String
  | .str s => .ok s
  | v => .error (.type (.ofJson o v) "a string")

def boolean (o : Origin) : Json → Except Misfit Bool
  | .bool b => .ok b
  | v => .error (.type (.ofJson o v) "a boolean")

def text (o : Origin) : Spelling → Except Misfit String
  | .scalar (.str s) => .ok s
  | t => .error (o.mismatch "a string" t)

end Origin

/-- The value of a part, all of which has to be read. -/
def Json.Spelling.read (t : Spelling) : Except Misfit Json := t.value.mapError .unreadable

def readKey (key : Except Json.Fault String) : Except Misfit String := key.mapError .unreadable

end EntityFeed
