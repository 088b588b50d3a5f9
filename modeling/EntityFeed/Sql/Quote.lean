/-! Quoting of identifiers and literals: the delimiter inside the text is written twice, so the
quoted text ends at its own closing delimiter whatever it holds. -/
namespace EntityFeed.Sql

/-- Writes every `mark` twice. -/
def doubled (mark : Char) : List Char → List Char
  | [] => []
  | c :: rest => if c = mark then mark :: mark :: doubled mark rest else c :: doubled mark rest

/-- The text between two marks. -/
def delimited (mark : Char) (s : String) : String :=
  String.ofList (mark :: doubled mark s.toList ++ [mark])

def quoteIdent (name : String) : String := delimited '"' name

def quoteLiteral (value : String) : String := delimited '\'' value

/-- Reads a delimited text back: what it holds and what follows it. -/
def undelimited? (mark : Char) : List Char → Option (List Char × List Char)
  | [] => none
  | c :: rest => if c = mark then body rest else none
where
  body : List Char → Option (List Char × List Char)
    | [] => none
    | c :: rest =>
      if c = mark then
        match rest with
        | d :: after =>
          if d = mark then (body after).map fun (inner, r) => (mark :: inner, r)
          else some ([], rest)
        | [] => some ([], [])
      else (body rest).map fun (inner, r) => (c :: inner, r)

theorem undelimited?_body_doubled (mark : Char) (s after : List Char)
    (h : after.head? ≠ some mark) :
    undelimited?.body mark (doubled mark s ++ mark :: after) = some (s, after) := by
  induction s with
  | nil =>
    cases after with
    | nil => simp [doubled, undelimited?.body]
    | cons d r => simp_all [doubled, undelimited?.body]
  | cons c r ih =>
    by_cases hc : c = mark
    · simp [doubled, undelimited?.body, hc, ih]
    · simp only [doubled, hc, if_false, List.cons_append]
      rw [undelimited?.body.eq_def]
      simp [hc, ih]

/-- A delimited text is read back whole, and nothing after it is touched. -/
theorem undelimited?_delimited (mark : Char) (s : String) (after : List Char)
    (h : after.head? ≠ some mark) :
    undelimited? mark ((delimited mark s).toList ++ after) = some (s.toList, after) := by
  simp [delimited, undelimited?, undelimited?_body_doubled mark s.toList after h]

/-- A column of an aliased table. -/
structure ColumnRef where
  qualifier : String
  column : String
  deriving DecidableEq, Repr

def ColumnRef.text (r : ColumnRef) : String := quoteIdent r.qualifier ++ "." ++ quoteIdent r.column

structure TableRef where
  table : String
  qualifier : String
  deriving DecidableEq, Repr

def TableRef.text (t : TableRef) : String := quoteIdent t.table ++ " AS " ++ quoteIdent t.qualifier

example : (ColumnRef.mk "user_1" "i\"d").text = "\"user_1\".\"i\"\"d\"" := by decide +kernel

end EntityFeed.Sql
