import EntityFeed.Url.Domain.Direction
import EntityFeed.Url.Domain.Joiner
import EntityFeed.Url.Domain.Punycode
import EntityFeed.Url.Domain.Repertoire

/-! Labels: the parts of a domain between dots. A label with characters beyond ASCII also has a form
in ASCII, which a prefix tells from others. -/
namespace EntityFeed.Url.Domain

def isAscii (cs : List Char) : Bool := cs.all (·.toNat < 0x80)

/-- The characters that no domain may have. -/
def denied (c : Char) : Bool :=
  c.toNat ≤ 0x20 || c.toNat == 0x7F || "%#/:<>?@[\\]^|".toList.contains c

def asciiPrefix : List Char := ['x', 'n', '-', '-']

/-- The most characters that are read behind the prefix. -/
def longestRead : Nat := 2000

/-- The most characters of a label that has a form in ASCII. -/
def longestWritten : Nat := 1000

/-- A label: its characters, and how it is written in ASCII. -/
structure Label where
  chars : List Char
  ascii : List Char

namespace Label

/-- Whether the characters of a label may stand where they do. -/
def isSound (cs : List Char) : Bool := !cs.head?.any isMark && joinersMatter [] cs

/-- What the characters behind the prefix stand for. It must be as a label is after its characters
were replaced and composed. -/
def behindPrefix? (cs : List Char) : Option Label := do
  guard (isAscii cs ∧ cs.getLast? ≠ some '-' ∧ !cs.isEmpty ∧ cs.length ≤ longestRead)
  let chars ← Punycode.decode? cs
  guard (chars.all (fun c => kept.has c && !denied c && c != '.') ∧ Text.composed chars = chars ∧
    isSound chars)
  return { chars, ascii := asciiPrefix ++ cs }

def read? (cs : List Char) : Option Label :=
  if asciiPrefix.isPrefixOf cs then behindPrefix? (cs.drop asciiPrefix.length)
  else if isAscii cs then some { chars := cs, ascii := cs }
  else if isSound cs ∧ cs.length ≤ longestWritten then
    some { chars := cs, ascii := asciiPrefix ++ Punycode.encode cs }
  else none

end Label
end EntityFeed.Url.Domain
