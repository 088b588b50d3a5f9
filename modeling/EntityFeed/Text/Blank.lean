/-! Blank text, by the Unicode property White_Space. A name is refused when it is blank, so this
table decides which schemas and connection strings are accepted. -/
namespace EntityFeed.Text

/-- The characters with the property White_Space. -/
def isBlank (c : Char) : Bool :=
  let n := c.toNat
  (9 ≤ n && n ≤ 13) || n == 0x20 || n == 0x85 || n == 0xA0 || n == 0x1680 ||
    (0x2000 ≤ n && n ≤ 0x200A) || n == 0x2028 || n == 0x2029 || n == 0x202F || n == 0x205F ||
    n == 0x3000

/-- A text with nothing in it but white space. -/
def blank (s : String) : Bool := s.toList.all isBlank

@[simp] theorem blank_empty : blank "" = true := by simp [blank]

example : blank " \t\n" = true ∧ blank "a" = false := by decide +kernel

end EntityFeed.Text
