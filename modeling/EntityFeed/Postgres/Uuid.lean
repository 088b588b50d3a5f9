import EntityFeed.Text.Hex

/-! UUIDs: sixteen bytes, and their text in hexadecimal, which is read in four forms and written in
one of them. -/
namespace EntityFeed.Postgres

structure Uuid where
  bytes : List UInt8
  length_bytes : bytes.length = 16
  deriving DecidableEq

namespace Uuid

def ofBytes? (bytes : List UInt8) : Option Uuid :=
  if h : bytes.length = 16 then some ⟨bytes, h⟩ else none

/-- How many digits there are between hyphens. -/
def groups : List Nat := [8, 4, 4, 4, 12]

/-- Cuts a list into pieces of these lengths. -/
def cut {α : Type} : List Nat → List α → List (List α)
  | [], _ => []
  | n :: lengths, xs => xs.take n :: cut lengths (xs.drop n)

def ofDigits? (digits : List Char) : Option Uuid := do ofBytes? (← Text.bytesOfHex? digits)

/-- Reads digits in groups with hyphens between them. -/
def hyphenated? (cs : List Char) : Option Uuid :=
  let parts := cs.splitOn '-'
  if parts.map List.length = groups then ofDigits? parts.flatten else none

/-- Reads a UUID: 32 digits, or groups with hyphens, which may be between braces or behind
`urn:uuid:`. -/
def parse? (text : String) : Option Uuid :=
  match text.toList with
  | '\x7b' :: rest =>
    if rest.getLast? = some '\x7d' then hyphenated? rest.dropLast else none
  | 'u' :: 'r' :: 'n' :: ':' :: 'u' :: 'u' :: 'i' :: 'd' :: ':' :: rest => hyphenated? rest
  | cs => if cs.length = 32 then ofDigits? cs else hyphenated? cs

/-- Groups of lower-case digits with hyphens between them. -/
def text (u : Uuid) : String :=
  String.ofList (List.intercalate ['-'] (cut groups (Text.hexOfBytes u.bytes)))

end Uuid
end EntityFeed.Postgres
