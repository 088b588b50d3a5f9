import EntityFeed.Toml.Scalar

/-! The four kinds of TOML string: basic ones have escapes and literal ones have none, and either
kind may run over several lines between triple quotes. Each reader starts behind the opening quotes
and gives the string with what follows the closing ones. -/
namespace EntityFeed.Toml

/-- Characters that may stand in a text as they are; the tab is the only control among them. -/
def isPlain (c : Char) : Bool := c == '\t' || (0x20 ≤ c.toNat && c.toNat != 0x7F)

/-- The character with a number in hexadecimal, if there is one. -/
def scalarValue? (digits : List Char) : Option Char :=
  if digits.all isHexDigit then
    let n := valueOf 16 digits
    if n.isValidChar then some (Char.ofNat n) else none
  else none

def escaped? (c : Char) : Option Char :=
  match c with
  | 'b' => some '\x08'
  | 't' => some '\t'
  | 'n' => some '\n'
  | 'f' => some '\x0c'
  | 'r' => some '\r'
  | '"' => some '"'
  | '\\' => some '\\'
  | _ => none

/-- An escape behind its backslash, with what follows it. -/
def escape? : List Char → Option (Char × List Char)
  | 'u' :: a :: b :: c :: d :: rest => (scalarValue? [a, b, c, d]).map (·, rest)
  | 'U' :: a :: b :: c :: d :: e :: f :: g :: h :: rest =>
    (scalarValue? [a, b, c, d, e, f, g, h]).map (·, rest)
  | c :: rest => (escaped? c).map (·, rest)
  | [] => none

theorem escape?_length {cs rest : List Char} {c : Char} (h : escape? cs = some (c, rest)) :
    rest.length < cs.length := by
  unfold escape? at h
  split at h
  all_goals
    try
      obtain ⟨_, _, heq⟩ := Option.map_eq_some_iff.1 h
      simp only [Prod.mk.injEq] at heq
      simp only [← heq.2, List.length_cons]
      omega
  simp at h

def basic? (cs : List Char) : Option (List Char × List Char) :=
  match cs with
  | [] => none
  | '"' :: rest => some ([], rest)
  | '\\' :: rest =>
    match h : escape? rest with
    | none => none
    | some (c, after) =>
      have := escape?_length h
      (basic? after).map fun (s, r) => (c :: s, r)
  | c :: rest => if isPlain c then (basic? rest).map fun (s, r) => (c :: s, r) else none
termination_by cs.length

def literal? : List Char → Option (List Char × List Char)
  | [] => none
  | '\'' :: rest => some ([], rest)
  | c :: rest => if isPlain c then (literal? rest).map fun (s, r) => (c :: s, r) else none

/-- The quotes, two at most, that belong to a string whose closing quotes they come before. -/
def spareQuotes (quote : Char) : List Char → List Char × List Char
  | c :: d :: rest =>
    if c ≠ quote then ([], c :: d :: rest)
    else if d = quote then ([c, d], rest)
    else ([c], d :: rest)
  | [c] => if c = quote then ([c], []) else ([], [c])
  | [] => ([], [])

def isWhite (c : Char) : Bool := c == ' ' || c == '\t'

/-- Whether a line ends here. -/
def atNewline : List Char → Bool
  | '\n' :: _ => true
  | '\r' :: '\n' :: _ => true
  | _ => false

/-- A basic string over several lines. A backslash at the end of a line takes away the white space
up to the next text, which `skipping` says is being done. -/
def basicBlock? (skipping : Bool) (cs : List Char) : Option (List Char × List Char) :=
  match cs with
  | [] => none
  | '"' :: '"' :: '"' :: rest => some (spareQuotes '"' rest)
  | '\r' :: '\n' :: rest | '\n' :: rest =>
    (basicBlock? skipping rest).map fun (s, r) => (if skipping then s else '\n' :: s, r)
  | '\\' :: rest =>
    if atNewline (rest.dropWhile isWhite) then basicBlock? true rest
    else
      match h : escape? rest with
      | none => none
      | some (c, after) =>
        have := escape?_length h
        (basicBlock? false after).map fun (s, r) => (c :: s, r)
  | c :: rest =>
    if skipping && isWhite c then basicBlock? true rest
    else if isPlain c then (basicBlock? false rest).map fun (s, r) => (c :: s, r)
    else none
termination_by cs.length

def literalBlock? : List Char → Option (List Char × List Char)
  | [] => none
  | '\'' :: '\'' :: '\'' :: rest => some (spareQuotes '\'' rest)
  | '\r' :: '\n' :: rest | '\n' :: rest =>
    (literalBlock? rest).map fun (s, r) => ('\n' :: s, r)
  | c :: rest => if isPlain c then (literalBlock? rest).map fun (s, r) => (c :: s, r) else none

/-- A line end right behind the opening quotes is not part of the string. -/
def dropNewline : List Char → List Char
  | '\n' :: rest => rest
  | '\r' :: '\n' :: rest => rest
  | cs => cs

/-- A string of any kind, from its opening quotes on. -/
def string? : List Char → Option (String × List Char)
  | '"' :: '"' :: '"' :: rest =>
    (basicBlock? false (dropNewline rest)).map fun (s, r) => (String.ofList s, r)
  | '"' :: rest => (basic? rest).map fun (s, r) => (String.ofList s, r)
  | '\'' :: '\'' :: '\'' :: rest =>
    (literalBlock? (dropNewline rest)).map fun (s, r) => (String.ofList s, r)
  | '\'' :: rest => (literal? rest).map fun (s, r) => (String.ofList s, r)
  | _ => none

end EntityFeed.Toml
