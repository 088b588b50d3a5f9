import EntityFeed.Text.Unprinted

/-! A text as a message quotes it: between double quotes, with everything escaped that a reader
could not see or could misread. -/
namespace EntityFeed.Text

/-- The digits of a number in lower-case hexadecimal, without leading zeros. -/
def hexDigits (n : Nat) : List Char := Nat.toDigits 16 n

/-- One character inside a quotation. -/
def quoteChar (c : Char) : List Char :=
  if c = '"' then ['\\', '"']
  else if c = '\\' then ['\\', '\\']
  else if c = '\n' then ['\\', 'n']
  else if c = '\r' then ['\\', 'r']
  else if c = '\t' then ['\\', 't']
  else if c = '\x00' then ['\\', '0']
  else if unprinted c then ['\\', 'u', '{'] ++ hexDigits c.toNat ++ ['}']
  else [c]

def quotation (s : String) : String :=
  String.ofList ('"' :: s.toList.flatMap quoteChar ++ ['"'])

example : quotation "a\"b\n" = "\"a\\\"b\\n\"" := by decide +kernel

end EntityFeed.Text
