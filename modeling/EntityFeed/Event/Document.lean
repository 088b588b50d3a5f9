import EntityFeed.Event.Basic
import EntityFeed.Failure
import EntityFeed.Json.Reader

/-! Change events as documents. An image that is absent is left out when an event is written; when
it is read, null means absent too. -/
namespace EntityFeed
namespace ChangeEvent

def toJson (e : ChangeEvent) : Json :=
  .obj ([("table", .str e.table), ("action", .str e.action.name)] ++
    (e.data.toList.map fun row => ("data", .obj row)) ++
    (e.dataOld.toList.map fun row => ("dataOld", .obj row)))

def readName (s : String) : Except Misfit Action :=
  match Action.all.find? (·.name = s) with
  | some a => .ok a
  | none => .error (.unknownVariant s (Action.all.map Action.name))

open Json (Spelling)

/-- An action that is written as an object has its name as the only key and no payload. -/
def readPayload (o : Origin) (a : Action) : Spelling → Except Misfit Action
  | .scalar .null => .ok a
  | t => .error (o.mismatch "unit" t)

/-- Reads an action: its name, or an object with that name for its only key. JSON text is refused
where the name should begin; a value is refused as a whole. -/
def readAction (o : Origin) (t : Spelling) : Except Misfit Action :=
  match o, t with
  | _, .scalar (.str s) => readName s
  | .jsonText, .obj ((name, payload) :: rest) => do
    let a ← readPayload o (← readName (← readKey name)) payload
    if rest.isEmpty then return a else .error .noVariant
  | .jsonText, .faulty .numberOutOfRange => .error .noVariant
  | .jsonText, .faulty e => .error (.unreadable e)
  | .jsonText, _ => .error .noVariant
  | _, .obj [(name, payload)] => do readPayload o (← readName (← readKey name)) payload
  | _, .obj _ => .error (.value .map "map with a single key")
  | _, t => .error (o.mismatch "string or map" t)

/-- Reads an image; a column given twice counts once, with its last value. -/
def readImage (o : Origin) : Spelling → Except Misfit (Option Row)
  | .scalar .null => .ok none
  | .obj members => do
    let members ← (Spelling.memberValues members).mapError .unreadable
    return some (Members.settled (Json.settledMembers members))
  | t => .error (o.mismatch "a map" t)

structure Draft where
  table : Option String := none
  action : Option Action := none
  data : Option (Option Row) := none
  dataOld : Option (Option Row) := none

def Draft.finish (d : Draft) : Except Misfit ChangeEvent :=
  match d.table, d.action with
  | none, _ => .error (.missingField "table")
  | _, none => .error (.missingField "action")
  | some table, some action => .ok ⟨table, action, d.data.join, d.dataOld.join⟩

def readField (o : Origin) (d : Draft) (name : String) (t : Spelling) : Except Misfit Draft :=
  if name = "table" then
    if d.table.isSome then .error (.duplicateField name)
    else do return { d with table := some (← o.text t) }
  else if name = "action" then
    if d.action.isSome then .error (.duplicateField name)
    else do return { d with action := some (← readAction o t) }
  else if name = "data" then
    if d.data.isSome then .error (.duplicateField name)
    else do return { d with data := some (← readImage o t) }
  else if name = "dataOld" then
    if d.dataOld.isSome then .error (.duplicateField name)
    else do return { d with dataOld := some (← readImage o t) }
  else .ok d

def readFields (o : Origin) (d : Draft) :
    List (Except Json.Fault String × Spelling) → Except Misfit Draft
  | [] => .ok d
  | (key, t) :: rest => do readFields o (← readField o d (← readKey key) t) rest

def expected : String := "struct ChangeEvent"

/-- Reads an event. In an array the images may be missing at the end. -/
def readSpelling (o : Origin) : Spelling → Except Misfit ChangeEvent
  | .obj members => do (← readFields o {} members).finish
  | .arr items =>
    let short (n : Nat) : Except Misfit ChangeEvent :=
      .error (.length n (expected ++ " with " ++ Misfit.elements 4))
    match items with
    | [] => short 0
    | [t] => do let _ ← o.text t; short 1
    | t :: a :: rest => do
      let table ← o.text t
      let action ← readAction o a
      let data ← (rest[0]?.map (readImage o)).getD (.ok none)
      let dataOld ← (rest[1]?.map (readImage o)).getD (.ok none)
      if rest.length ≤ 2 then return ⟨table, action, data, dataOld⟩
      else .error (.leftOver o items.length)
  | t => .error (o.mismatch expected t)

def read (v : Json) : Except Misfit ChangeEvent := readSpelling .jsonValue (.ofJson v)

def load (text : String) : Except Illegible ChangeEvent :=
  match Json.spelling? text with
  | none => .error .malformedJson
  | some t => (readSpelling .jsonText t).mapError .misfit

end ChangeEvent
end EntityFeed
