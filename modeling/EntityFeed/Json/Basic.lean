import EntityFeed.Binary64.Basic

/-! JSON values. An object keeps its members in order; integers and floating-point numbers are kept
apart, as the databases behind the rows do. -/
namespace EntityFeed

inductive Json where
  | null
  | bool (b : Bool)
  | int (n : Int)
  | float (x : Binary64)
  | str (s : String)
  | arr (items : List Json)
  | obj (members : List (String × Json))
  deriving Inhabited

/-- The members of an object, or a row with its columns. -/
abbrev Members := List (String × Json)

namespace Members

def get? (m : Members) (key : String) : Option Json := m.lookup key

/-- Gives `key` a value: in its place if it is there, else at the end. -/
def insert (key : String) (value : Json) : Members → Members
  | [] => [(key, value)]
  | (k, v) :: rest => if k = key then (k, value) :: rest else (k, v) :: insert key value rest

/-- The members with each key once, at its first position and with its last value. -/
def settled (m : Members) : Members := m.foldl (fun done (k, v) => done.insert k v) []

@[simp] theorem get?_insert_self (m : Members) (key : String) (value : Json) :
    (m.insert key value).get? key = some value := by
  induction m with
  | nil => simp [insert, get?]
  | cons head rest ih =>
    obtain ⟨k, v⟩ := head
    by_cases h : k = key
    · simp [insert, get?, h]
    · have : (key == k) = false := by simp [Ne.symm h]
      simpa [insert, get?, h, List.lookup_cons, this] using ih

/-- Inserting adds no key but the inserted one and keeps the order of those there are. -/
theorem keys_insert (m : Members) (key : String) (value : Json) :
    (m.insert key value).map (·.1) =
      if key ∈ m.map (·.1) then m.map (·.1) else m.map (·.1) ++ [key] := by
  induction m with
  | nil => simp [insert]
  | cons head rest ih =>
    obtain ⟨k, v⟩ := head
    by_cases h : k = key
    · simp [insert, h]
    · have : key ≠ k := Ne.symm h
      by_cases hm : key ∈ rest.map (·.1) <;> simp_all [insert]

end Members

namespace Json

def isNull : Json → Bool
  | .null => true
  | _ => false

mutual

/-- Equality of values: arrays in order, objects whatever the order of their members, numbers by
value within their kind. Keys of an object are taken to be distinct. -/
def same : Json → Json → Bool
  | .null, .null => true
  | .bool a, .bool b => a == b
  | .int a, .int b => a == b
  | .float a, .float b => a.same b
  | .str a, .str b => a == b
  | .arr a, .arr b => sameItems a b
  | .obj a, .obj b => a.length == b.length && sameMembers a b
  | _, _ => false

def sameItems : List Json → List Json → Bool
  | [], [] => true
  | a :: as, b :: bs => same a b && sameItems as bs
  | _, _ => false

/-- Every member of the first has an equal one in the second. -/
def sameMembers : List (String × Json) → List (String × Json) → Bool
  | [], _ => true
  | (k, v) :: rest, other =>
    (match other.lookup k with
      | some w => same v w
      | none => false) && sameMembers rest other

end

mutual

/-- The value with each key of an object once, at its first position and with its last value. -/
def settled : Json → Json
  | .arr items => .arr (settledItems items)
  | .obj members => .obj (Members.settled (settledMembers members))
  | v => v

def settledItems : List Json → List Json
  | [] => []
  | v :: rest => settled v :: settledItems rest

def settledMembers : List (String × Json) → List (String × Json)
  | [] => []
  | (k, v) :: rest => (k, settled v) :: settledMembers rest

end

end Json
end EntityFeed
