import EntityFeed.Json.Number

/-! The compact text of a JSON value. The order of members shows in it, so two equal objects may
have different texts. -/
namespace EntityFeed.Json

/-- One character inside a string: the quote, the backslash and the controls are escaped. -/
def escapeChar (c : Char) : List Char :=
  if c = '"' then ['\\', '"']
  else if c = '\\' then ['\\', '\\']
  else if c = '\x08' then ['\\', 'b']
  else if c = '\t' then ['\\', 't']
  else if c = '\n' then ['\\', 'n']
  else if c = '\x0c' then ['\\', 'f']
  else if c = '\r' then ['\\', 'r']
  else if c.toNat < 0x20 then
    ['\\', 'u', '0', '0', Nat.digitChar (c.toNat / 16), Nat.digitChar (c.toNat % 16)]
  else [c]

def quoted (s : String) : List Char := '"' :: s.toList.flatMap escapeChar ++ ['"']

mutual

def chars : Json → List Char
  | .null => "null".toList
  | .bool true => "true".toList
  | .bool false => "false".toList
  | .int n => (toString n).toList
  | .float x => (x.render numberLayout).toList
  | .str s => quoted s
  | .arr items => '[' :: itemChars items
  | .obj members => '{' :: memberChars members

def itemChars : List Json → List Char
  | [] => [']']
  | [v] => chars v ++ [']']
  | v :: rest => chars v ++ ',' :: itemChars rest

def memberChars : List (String × Json) → List Char
  | [] => ['}']
  | [(k, v)] => quoted k ++ ':' :: chars v ++ ['}']
  | (k, v) :: rest => quoted k ++ ':' :: chars v ++ ',' :: memberChars rest

end

def text (v : Json) : String := String.ofList v.chars

example : text (.obj [("a", .arr [.int 1, .null]), ("b\n", .str "\"")]) =
    "\x7b\"a\":[1,null],\"b\\n\":\"\\\"\"\x7d" := by decide +kernel

end EntityFeed.Json
