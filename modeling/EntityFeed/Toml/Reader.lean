import EntityFeed.Toml.Quoted
import EntityFeed.Toml.Table

/-! Reading TOML documents. A document is a sequence of lines: keys with values, which may go on
over further lines, and headers of tables. Every reader gives what it read with the rest of the
text, and nothing if the text is malformed. -/
namespace EntityFeed.Toml

/-- Arrays and inline tables may be nested less deeply than this, and a dotted key has fewer parts.
-/
def depthLimit : Nat := 80

def dropWhite (cs : List Char) : List Char := cs.dropWhile isWhite

/-- A comment without its line end, if there is one. -/
def dropComment : List Char → List Char
  | '#' :: rest => rest.dropWhile isPlain
  | cs => cs

/-- The rest of a line with nothing but a comment on it, and its end. -/
def lineEnd? (cs : List Char) : Option (List Char) :=
  match dropComment (dropWhite cs) with
  | [] => some []
  | '\n' :: rest => some rest
  | '\r' :: '\n' :: rest => some rest
  | _ => none

/-- White space, line ends and comments, as they may stand between the values of an array. -/
def dropLines (inComment : Bool) : List Char → List Char
  | [] => []
  | '\r' :: '\n' :: rest | '\n' :: rest => dropLines false rest
  | c :: rest =>
    if inComment then if isPlain c then dropLines true rest else c :: rest
    else if isWhite c then dropLines false rest
    else if c = '#' then dropLines true rest
    else c :: rest

def isBare (c : Char) : Bool := c.isAlphanum || c == '_' || c == '-'

/-- One part of a key: bare or a string on one line. -/
def simpleKey? : List Char → Option (String × List Char)
  | '"' :: rest => (basic? rest).map fun (s, r) => (String.ofList s, r)
  | '\'' :: rest => (literal? rest).map fun (s, r) => (String.ofList s, r)
  | cs =>
    let bare := cs.takeWhile isBare
    if bare.isEmpty then none else some (String.ofList bare, cs.dropWhile isBare)

/-- A key with at most so many parts, white space around each. -/
def keyPath? : Nat → List Char → Option (List String × List Char)
  | 0, _ => none
  | parts + 1, cs => do
    let (key, rest) ← simpleKey? (dropWhite cs)
    match dropWhite rest with
    | '.' :: rest =>
      let (keys, rest) ← keyPath? parts rest
      return (key :: keys, rest)
    | rest => return ([key], rest)

def key? (cs : List Char) : Option (List String × List Char) := keyPath? (depthLimit - 1) cs

def inWord (c : Char) : Bool :=
  c.isAlphanum || c == '+' || c == '-' || c == '_' || c == '.' || c == ':'

/-- A plain scalar. A date goes on with a time behind a space. -/
def plainValue? (cs : List Char) : Option (Json × List Char) :=
  let word := cs.takeWhile inWord
  let rest := cs.dropWhile inWord
  match (date? word).map (·.2), rest with
  | some [], ' ' :: d :: more =>
    if d.isDigit then
      (scalar? (word ++ ' ' :: (d :: more).takeWhile inWord)).map
        (·, (d :: more).dropWhile inWord)
    else (scalar? word).map (·, rest)
  | _, _ => (scalar? word).map (·, rest)

/-- The values of an array behind its bracket, each read by `value`. `bound` is at least the number
of values. -/
def arrayItems? (value : List Char → Option (Json × List Char)) :
    Nat → List Char → Option (List Json × List Char)
  | 0, _ => none
  | bound + 1, cs =>
    match dropLines false cs with
    | ']' :: rest => some ([], rest)
    | cs => do
      let (v, rest) ← value cs
      match dropLines false rest with
      | ',' :: rest =>
        let (vs, rest) ← arrayItems? value bound rest
        return (v :: vs, rest)
      | ']' :: rest => return ([v], rest)
      | _ => none

/-- A key with its value, each read by the given readers. -/
def pair? (value : List Char → Option (Json × List Char)) (cs : List Char) :
    Option ((List String × String × Json) × List Char) := do
  let (keys, rest) ← key? cs
  let key ← keys.getLast?
  match rest with
  | '=' :: rest =>
    let (v, rest) ← value (dropWhite rest)
    return ((keys.dropLast, key, v), rest)
  | _ => none

/-- The pairs of an inline table behind its brace, of which there is at least one. -/
def inlinePairs? (value : List Char → Option (Json × List Char)) :
    Nat → Entries → List Char → Option (Entries × List Char)
  | 0, _, _ => none
  | bound + 1, es, cs => do
    let ((path, key, v), rest) ← pair? value cs
    let es ← es.assign path key v
    match dropWhite rest with
    | ',' :: rest => inlinePairs? value bound es rest
    | '}' :: rest => return (es, rest)
    | _ => none

/-- A value in which arrays and inline tables are nested at most so deeply. -/
def value? : Nat → List Char → Option (Json × List Char)
  | depth, cs =>
    match cs with
    | '"' :: _ | '\'' :: _ => (string? cs).map fun (s, r) => (.str s, r)
    | '[' :: rest =>
      match depth with
      | 0 => none
      | depth + 1 =>
        (arrayItems? (value? depth) (rest.length + 1) rest).map fun (vs, r) => (.arr vs, r)
    | '{' :: rest =>
      match depth with
      | 0 => none
      | depth + 1 =>
        match dropWhite rest with
        | '}' :: rest => some (.obj [], rest)
        | _ =>
          (inlinePairs? (value? depth) (rest.length + 1) [] rest).map fun (es, r) =>
            (.obj (Entries.members es), r)
    | _ => plainValue? cs

/-- The name in the header of a table behind its brackets, and the text behind the closing ones. -/
def header? (closing : List Char) (cs : List Char) : Option (List String × List Char) := do
  let (path, rest) ← key? cs
  if closing.isPrefixOf rest then
    return (path, ← lineEnd? (rest.drop closing.length))
  else none

/-- Reads one line or, if a value goes on over further lines, those too. -/
def line? (d : Draft) (cs : List Char) : Option (Draft × List Char) :=
  match dropWhite cs with
  | '[' :: '[' :: rest => do
    let (path, rest) ← header? [']', ']'] rest
    return (← d.openItem path, rest)
  | '[' :: rest => do
    let (path, rest) ← header? [']'] rest
    return (← d.openTable path, rest)
  | cs =>
    match lineEnd? cs with
    | some rest => some (d, rest)
    | none => do
      let ((path, key, v), rest) ← pair? (value? (depthLimit - 1)) cs
      return (← d.assign path key v, ← lineEnd? rest)

/-- Reads all lines, of which there are at most `bound`. -/
def lines? : Nat → Draft → List Char → Option Draft
  | _, d, [] => some d
  | 0, _, _ => none
  | bound + 1, d, cs => do
    let (d, rest) ← line? d cs
    lines? bound d rest

/-- Reads a document; a byte order mark may stand at its beginning. -/
def read? (s : String) : Option Json := do
  let cs := match s.toList with
    | '\ufeff' :: rest => rest
    | cs => cs
  let root ← (← lines? (cs.length + 1) {} cs).close
  return .obj (Entries.members root)

end EntityFeed.Toml
