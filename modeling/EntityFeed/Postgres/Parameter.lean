import EntityFeed.Postgres.Integer
import EntityFeed.Postgres.Uuid

/-! Values bound to parameters. Ids travel as text, and the server wants the bytes of the type that
it has inferred for the parameter. -/
namespace EntityFeed.Postgres

/-- The types that a text can be bound to. -/
inductive ParameterType where
  | uuid
  | integer (t : IntegerType)
  | text
  /-- A label tree or a query for one, which is text behind the number of its version. -/
  | tree
  deriving DecidableEq, Repr

/-- The type of this name, if a text can be bound to it. -/
def ParameterType.ofName? (name : String) : Option ParameterType :=
  match name with
  | "uuid" => some uuid
  | "int2" => some (integer .int2)
  | "int4" => some (integer .int4)
  | "int8" => some (integer .int8)
  | "text" | "varchar" | "bpchar" | "name" | "unknown" | "citext" => some text
  | "ltree" | "lquery" | "ltxtquery" => some tree
  | _ => none

inductive EncodeFault where
  | wrongType
  | uuid
  | integer (e : IntegerFault)
  deriving DecidableEq, Repr

def ParameterType.encode (t : ParameterType) (value : String) : Except EncodeFault (List UInt8) :=
  match t with
  | uuid =>
    match Uuid.parse? value with
    | some u => .ok u.bytes
    | none => .error .uuid
  | integer t =>
    match t.parse value with
    | .ok i => .ok (t.encode i)
    | .error e => .error (.integer e)
  | text => .ok value.toUTF8.toList
  | tree => .ok (1 :: value.toUTF8.toList)

def encodeParameter (name value : String) : Except EncodeFault (List UInt8) :=
  match ParameterType.ofName? name with
  | some t => t.encode value
  | none => .error .wrongType

end EntityFeed.Postgres
