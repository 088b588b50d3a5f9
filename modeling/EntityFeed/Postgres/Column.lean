import EntityFeed.Json.Reader
import EntityFeed.Postgres.Integer
import EntityFeed.Postgres.Uuid

/-! Columns of result rows, decoded from the bytes of their types. -/
namespace EntityFeed.Postgres

/-- The types that are decoded. A column of any other type reads as null. -/
inductive ColumnType where
  | text
  | uuid
  | integer (t : IntegerType)
  | float4
  | float8
  | bool
  | json
  | jsonb
  deriving DecidableEq, Repr

def ColumnType.ofName? (name : String) : Option ColumnType :=
  match name with
  | "text" | "varchar" | "bpchar" | "name" => some text
  | "uuid" => some uuid
  | "int2" => some (integer .int2)
  | "int4" => some (integer .int4)
  | "int8" => some (integer .int8)
  | "float4" => some float4
  | "float8" => some float8
  | "bool" => some bool
  | "json" => some json
  | "jsonb" => some jsonb
  | _ => none

def utf8? (bytes : List UInt8) : Option String := String.fromUTF8? (ByteArray.mk bytes.toArray)

/-- The value of JSON text; a key that an object repeats has its last value. -/
def jsonText? (bytes : List UInt8) : Option Json := do
  let s ← utf8? bytes
  return (← Json.read? s).settled

def number (x : Option Binary64) : Json :=
  match x with
  | some x => if x.isFinite then .float x else .null
  | none => .null

/-- The value of a column that is not null; none if the bytes are not of its type. -/
def ColumnType.decode? (t : ColumnType) (bytes : List UInt8) : Option Json :=
  match t with
  | text => (utf8? bytes).map .str
  | uuid => (Uuid.ofBytes? bytes).map fun u => .str u.text
  | integer t => (t.decode? bytes).map .int
  | float4 =>
    if bytes.length = 4 then
      some (number (Binary64.ofSingle? (UInt32.ofNat (ofBigEndian bytes))))
    else none
  | float8 =>
    if bytes.length = 8 then some (number (some ⟨UInt64.ofNat (ofBigEndian bytes)⟩)) else none
  | bool =>
    match bytes with
    | [b] => some (.bool (b != 0))
    | _ => none
  | json => jsonText? bytes
  | jsonb =>
    match bytes with
    | 1 :: rest => jsonText? rest
    | _ => none

/-- The value of a column of the type with this name. -/
def decodeColumn? (name : String) (bytes : Option (List UInt8)) : Option Json :=
  match ColumnType.ofName? name, bytes with
  | some t, some bytes => t.decode? bytes
  | _, _ => some .null

end EntityFeed.Postgres
