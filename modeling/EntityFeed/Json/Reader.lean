import EntityFeed.Json.Spelling

/-! Reading JSON text: characters to tokens, tokens to what they spell. The second step is a machine
with one state per place in a document and a stack of the containers that are open, so it takes each
token once and needs no bound on the nesting. -/
namespace EntityFeed.Json

/-- Arrays and objects that have a value are nested less deeply than this. -/
def depthLimit : Nat := 128

/-- What stands for one character in a string: itself, or a UTF-16 unit by number. -/
inductive StringUnit where
  | char (c : Char)
  | code (n : Nat)

def fourHex? (cs : List Char) : Option Nat :=
  cs.foldl (fun n c => do
    let c := c.toLower
    let d ← if c.isDigit then some (c.toNat - 48)
      else if 'a' ≤ c ∧ c ≤ 'f' then some (c.toNat - 87) else none
    return 16 * (← n) + d) (some 0)

def escaped? (c : Char) : Option Char :=
  match c with
  | '"' => some '"'
  | '\\' => some '\\'
  | '/' => some '/'
  | 'b' => some '\x08'
  | 'f' => some '\x0c'
  | 'n' => some '\n'
  | 'r' => some '\r'
  | 't' => some '\t'
  | _ => none

/-- The units of the text between two quotes; none if an escape is unknown or a control character
stands by itself. -/
def units? : List Char → Option (List StringUnit)
  | [] => some []
  | '\\' :: 'u' :: a :: b :: c :: d :: rest => do
    let n ← fourHex? [a, b, c, d]
    return .code n :: (← units? rest)
  | '\\' :: c :: rest => do
    let c ← escaped? c
    return .char c :: (← units? rest)
  | c :: rest =>
    if c = '\\' ∨ c.toNat < 0x20 then none else (units? rest).map (.char c :: ·)

/-- Puts the halves of surrogate pairs together. -/
def joinUnits : List StringUnit → Except Fault (List Char)
  | [] => .ok []
  | .char c :: rest => return c :: (← joinUnits rest)
  | .code n :: rest =>
    if 0xDC00 ≤ n ∧ n ≤ 0xDFFF then .error .loneSurrogate
    else if 0xD800 ≤ n ∧ n ≤ 0xDBFF then
      match rest with
      | .code m :: rest =>
        if 0xDC00 ≤ m ∧ m ≤ 0xDFFF then do
          let c := Char.ofNat (0x10000 + (n - 0xD800) * 0x400 + (m - 0xDC00))
          return c :: (← joinUnits rest)
        else .error .loneSurrogate
      | _ => .error .unexpectedEndOfEscape
    else return Char.ofNat n :: (← joinUnits rest)

inductive Mark where
  | openArray
  | closeArray
  | openObject
  | closeObject
  | comma
  | colon
  deriving DecidableEq

inductive Token where
  | mark (m : Mark)
  | str (s : Except Fault String)
  | scalar (v : Except Fault Json)

def mark? (c : Char) : Option Mark :=
  match c with
  | '[' => some .openArray
  | ']' => some .closeArray
  | '{' => some .openObject
  | '}' => some .closeObject
  | ',' => some .comma
  | ':' => some .colon
  | _ => none

/-- The text up to the closing quote, and what follows that quote. -/
def splitQuote : List Char → Option (List Char × List Char)
  | [] => none
  | '"' :: rest => some ([], rest)
  | '\\' :: c :: rest => (splitQuote rest).map fun (body, rest) => ('\\' :: c :: body, rest)
  | c :: rest => (splitQuote rest).map fun (body, rest) => (c :: body, rest)

theorem splitQuote_length {s body rest : List Char} (h : splitQuote s = some (body, rest)) :
    rest.length < s.length := by
  fun_induction splitQuote s generalizing body rest with
  | case1 => simp at h
  | case2 => simp_all
  | case3 c r ih =>
    obtain ⟨⟨b, r'⟩, hb, heq⟩ := Option.map_eq_some_iff.1 h
    simp only [Prod.mk.injEq] at heq
    have := ih (heq.2 ▸ hb)
    simp only [List.length_cons]; omega
  | case4 c r _ _ ih =>
    obtain ⟨⟨b, r'⟩, hb, heq⟩ := Option.map_eq_some_iff.1 h
    simp only [Prod.mk.injEq] at heq
    have := ih (heq.2 ▸ hb)
    simp only [List.length_cons]; omega

theorem dropWhile_length_le (p : Char → Bool) (s : List Char) :
    (s.dropWhile p).length ≤ s.length :=
  (List.dropWhile_suffix p).length_le

/-- The characters of words and numbers. -/
def inWord (c : Char) : Bool := c.isAlphanum || c == '-' || c == '+' || c == '.'

def isSpace (c : Char) : Bool := c == ' ' || c == '\t' || c == '\n' || c == '\r'

/-- A word that is a literal name or a number. -/
def word? (cs : List Char) : Option (Except Fault Json) :=
  if cs = "null".toList then some (.ok .null)
  else if cs = "true".toList then some (.ok (.bool true))
  else if cs = "false".toList then some (.ok (.bool false))
  else do
    let l ← Literal.read? cs
    return match l.value? with
      | some v => .ok v
      | none => .error .numberOutOfRange

/-- The tokens of a text; none if some of it is no token. -/
def tokens? : List Char → Option (List Token)
  | [] => some []
  | c :: rest =>
    if isSpace c then tokens? rest
    else if c = '"' then
      match h : splitQuote rest with
      | none => none
      | some (body, after) => do
        have := splitQuote_length h
        let units ← units? body
        return .str ((joinUnits units).map String.ofList) :: (← tokens? after)
    else match mark? c with
      | some m => (tokens? rest).map (.mark m :: ·)
      | none =>
        if inWord c then do
          have := dropWhile_length_le inWord rest
          let v ← word? (c :: rest.takeWhile inWord)
          return .scalar v :: (← tokens? (rest.dropWhile inWord))
        else none
termination_by s => s.length

/-- A container that is open, with what it holds so far, the last first. -/
inductive Frame where
  | items (done : List Spelling)
  | members (done : List (Except Fault String × Spelling)) (key : Except Fault String)

/-- A place in a document. -/
inductive Place where
  /-- A value must follow. -/
  | value (stack : List Frame)
  /-- An array has just been opened. -/
  | firstItem (stack : List Frame)
  /-- An object has just been opened. -/
  | firstKey (stack : List Frame)
  /-- A key must follow, after a comma. -/
  | key (done : List (Except Fault String × Spelling)) (stack : List Frame)
  /-- A colon must follow this key. -/
  | colon (done : List (Except Fault String × Spelling)) (key : Except Fault String)
      (stack : List Frame)
  /-- A value has just ended. -/
  | after (v : Spelling) (stack : List Frame)

def Place.start (stack : List Frame) : Token → Option Place
  | .mark .openArray => some (.firstItem stack)
  | .mark .openObject => some (.firstKey stack)
  | .str s => some (.after (.ofExcept (s.map .str)) stack)
  | .scalar v => some (.after (.ofExcept v) stack)
  | _ => none

/-- The place after one more token; none if it cannot stand here. -/
def Place.step : Place → Token → Option Place
  | .value stack, t => start stack t
  | .firstItem stack, .mark .closeArray => some (.after (.arr []) stack)
  | .firstItem stack, t => start (.items [] :: stack) t
  | .firstKey stack, .mark .closeObject => some (.after (.obj []) stack)
  | .firstKey stack, .str k => some (.colon [] k stack)
  | .key done stack, .str k => some (.colon done k stack)
  | .colon done k stack, .mark .colon => some (.value (.members done k :: stack))
  | .after v (.items done :: stack), .mark .comma => some (.value (.items (v :: done) :: stack))
  | .after v (.items done :: stack), .mark .closeArray =>
    some (.after (.arr (v :: done).reverse) stack)
  | .after v (.members done k :: stack), .mark .comma => some (.key ((k, v) :: done) stack)
  | .after v (.members done k :: stack), .mark .closeObject =>
    some (.after (.obj ((k, v) :: done).reverse) stack)
  | _, _ => none

def ofTokens? (ts : List Token) : Option Spelling :=
  match ts.foldlM Place.step (.value []) with
  | some (.after v []) => some v
  | _ => none

/-- What a text spells; none if it is not well formed. -/
def spelling? (s : String) : Option Spelling := do
  return (← ofTokens? (← tokens? s.toList)).limit (depthLimit - 1)

/-- The value of a text. Keys that an object repeats are kept. -/
def read? (s : String) : Option Json := do (← spelling? s).value.toOption

end EntityFeed.Json
