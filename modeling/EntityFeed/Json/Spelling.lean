import EntityFeed.Json.Number

/-! Well-formed JSON text before it is given a value. A number may be too large, a string may hold
half a character, and containers may be nested too deeply; all of this matters only to a reader that
looks at the place. So what a text spells keeps its faults where they stand. -/
namespace EntityFeed.Json

/-- Why a part of a well-formed text has no value. -/
inductive Fault where
  | numberOutOfRange
  /-- A leading surrogate that no second escape follows. -/
  | unexpectedEndOfEscape
  /-- A surrogate that is not half of a pair. -/
  | loneSurrogate
  | tooDeep
  deriving DecidableEq

def Fault.message : Fault → String
  | numberOutOfRange => "number out of range"
  | unexpectedEndOfEscape => "unexpected end of hex escape"
  | loneSurrogate => "lone leading surrogate in hex escape"
  | tooDeep => "recursion limit exceeded"

inductive Spelling where
  | faulty (e : Fault)
  /-- A value that is neither an array nor an object. -/
  | scalar (v : Json)
  | arr (items : List Spelling)
  | obj (members : List (Except Fault String × Spelling))

namespace Spelling

def ofExcept : Except Fault Json → Spelling
  | .ok v => scalar v
  | .error e => faulty e

mutual

/-- The value that is spelt, or the first fault. -/
def value : Spelling → Except Fault Json
  | faulty e => .error e
  | scalar v => .ok v
  | arr items => do return .arr (← itemValues items)
  | obj members => do return .obj (← memberValues members)

def itemValues : List Spelling → Except Fault (List Json)
  | [] => .ok []
  | t :: rest => do return (← t.value) :: (← itemValues rest)

def memberValues : List (Except Fault String × Spelling) → Except Fault Members
  | [] => .ok []
  | (key, t) :: rest => do return (← key, ← t.value) :: (← memberValues rest)

end

mutual

def ofJson : Json → Spelling
  | .arr items => arr (ofItems items)
  | .obj members => obj (ofMembers members)
  | v => scalar v

def ofItems : List Json → List Spelling
  | [] => []
  | v :: rest => ofJson v :: ofItems rest

def ofMembers : Members → List (Except Fault String × Spelling)
  | [] => []
  | (key, v) :: rest => (.ok key, ofJson v) :: ofMembers rest

end

mutual

/-- The spelling with a fault for every container that has `room` others around it. -/
def limit (room : Nat) : Spelling → Spelling
  | faulty e => faulty e
  | scalar v => scalar v
  | arr items =>
    match room with
    | 0 => faulty .tooDeep
    | room + 1 => arr (limitItems room items)
  | obj members =>
    match room with
    | 0 => faulty .tooDeep
    | room + 1 => obj (limitMembers room members)

def limitItems (room : Nat) : List Spelling → List Spelling
  | [] => []
  | t :: rest => t.limit room :: limitItems room rest

def limitMembers (room : Nat) :
    List (Except Fault String × Spelling) → List (Except Fault String × Spelling)
  | [] => []
  | (key, t) :: rest => (key, t.limit room) :: limitMembers room rest

end

mutual

/-- A value is spelt without a fault. -/
@[simp] theorem value_ofJson : (v : Json) → (ofJson v).value = .ok v
  | .arr items => by rw [ofJson, value, itemValues_ofItems items]; rfl
  | .obj members => by rw [ofJson, value, memberValues_ofMembers members]; rfl
  | .null | .bool _ | .int _ | .float _ | .str _ => by simp [ofJson, value]

theorem itemValues_ofItems : (items : List Json) → itemValues (ofItems items) = .ok items
  | [] => rfl
  | v :: rest => by
    simp [ofItems, itemValues, value_ofJson v, itemValues_ofItems rest]; rfl

theorem memberValues_ofMembers :
    (members : Members) → memberValues (ofMembers members) = .ok members
  | [] => rfl
  | (_, v) :: rest => by
    simp [ofMembers, memberValues, value_ofJson v, memberValues_ofMembers rest]; rfl

end

end Spelling
end EntityFeed.Json
