import EntityFeed.Sql.Quote

/-! SELECT statements put together clause by clause. A fragment of text may embed other statements,
and values are kept out of the text. A statement is written in two ways: with numbered placeholders
beside the list of values, and with every value in its place as a literal. -/
namespace EntityFeed.Sql

/-- A piece of a fragment: text, or the `i`-th statement attached to the one it belongs to. -/
inductive Piece where
  | text (s : String)
  | attached (i : Nat)
  deriving DecidableEq, Repr

abbrev Fragment := List Piece

/-- A fragment that embeds nothing. -/
def Fragment.ofText (s : String) : Fragment := [.text s]

instance : Coe String Fragment := ⟨Fragment.ofText⟩

inductive JoinKind where
  | left
  | inner
  deriving DecidableEq, Repr

def JoinKind.keyword : JoinKind → String
  | .left => "LEFT JOIN"
  | .inner => "INNER JOIN"

structure Join where
  kind : JoinKind
  table : Fragment
  left : Fragment
  right : Fragment

/-- That a column has one of some values, which are distinct. -/
structure Condition where
  column : Fragment
  values : List String

structure Clauses where
  selected : List Fragment := []
  source : Option Fragment := none
  joins : List Join := []
  conditions : List Condition := []
  grouping : List Fragment := []
  /-- Which of the attached statements the result is united with. -/
  unions : List Nat := []

/-- A statement with the statements that its fragments and unions refer to. -/
inductive Statement where
  | mk (clauses : Clauses) (attached : List Statement)

/-- The distinct elements of a list, each at its first position. -/
def distinct : List String → List String
  | [] => []
  | x :: rest => x :: (distinct rest).filter (· != x)

namespace Statement

def empty : Statement := ⟨{}, []⟩

instance : Inhabited Statement := ⟨empty⟩

def clauses : Statement → Clauses
  | ⟨c, _⟩ => c

def attached : Statement → List Statement
  | ⟨_, subs⟩ => subs

def withClauses (f : Clauses → Clauses) : Statement → Statement
  | ⟨c, subs⟩ => ⟨f c, subs⟩

def source (s : Statement) (table : Fragment) : Statement :=
  s.withClauses fun c => { c with source := some table }

def select (s : Statement) (expression : Fragment) : Statement :=
  s.withClauses fun c => { c with selected := c.selected ++ [expression] }

def groupBy (s : Statement) (expression : Fragment) : Statement :=
  s.withClauses fun c => { c with grouping := c.grouping ++ [expression] }

def join (s : Statement) (j : Join) : Statement :=
  s.withClauses fun c => { c with joins := c.joins ++ [j] }

/-- Restricts `column` to `values`; a value given twice counts once. -/
def whereIn (s : Statement) (column : Fragment) (values : List String) : Statement :=
  s.withClauses fun c => { c with conditions := c.conditions ++ [⟨column, distinct values⟩] }

/-- Attaches a statement, which fragments then embed under the number returned. -/
def attach (s : Statement) (sub : Statement) : Nat × Statement :=
  (s.attached.length, ⟨s.clauses, s.attached ++ [sub]⟩)

/-- Unites the result with that of other statements. -/
def union (s : Statement) : List Statement → Statement
  | [] => s
  | sub :: rest =>
    let (i, s) := s.attach sub
    union (s.withClauses fun c => { c with unions := c.unions ++ [i] }) rest

end Statement

/-- A part of a statement's text: plain text, or the place of a value. -/
inductive Part (α : Type) where
  | text (s : String)
  | value (v : α)
  deriving DecidableEq, Repr

def Part.map {α β : Type} (f : α → β) : Part α → Part β
  | .text s => .text s
  | .value v => .value (f v)

/-- The text with each value written by `f`. -/
def fill {α : Type} (f : α → String) (parts : List (Part α)) : String :=
  String.join (parts.map fun
    | .text s => s
    | .value v => f v)

section Assembly

variable {α : Type}

/-- A fragment with the texts of the attached statements in it. -/
def Fragment.expand (subs : List (List (Part α))) (f : Fragment) : List (Part α) :=
  f.flatMap fun
    | .text s => [.text s]
    | .attached i => subs.getD i []

def commaList (parts : List (List (Part α))) : List (Part α) :=
  List.intercalate [.text ", "] parts

def Join.expand (subs : List (List (Part α))) (j : Join) : List (Part α) :=
  .text (" " ++ j.kind.keyword ++ " ") :: j.table.expand subs ++ .text " ON " ::
    j.left.expand subs ++ .text " = " :: j.right.expand subs

/-- The predicate of a condition whose values are `labels`: false for none, an equation for one. -/
def Condition.expand (subs : List (List (Part α))) (c : Condition) (labels : List α) :
    List (Part α) :=
  match labels with
  | [] => [.text "FALSE"]
  | [v] => c.column.expand subs ++ [.text " = ", .value v]
  | many => c.column.expand subs ++ .text " IN (" :: commaList (many.map fun v => [.value v]) ++
      [.text ")"]

/-- A clause with its keyword, or nothing if it has no items. -/
def clause (keyword separator : String) (items : List (List (Part α))) : List (Part α) :=
  if items.isEmpty then [] else .text keyword :: List.intercalate [.text separator] items

/-- The whole text. `labels` holds what is written for the values of each condition, `subs` the
texts of the attached statements. -/
def Clauses.expand (c : Clauses) (labels : List (List α)) (subs : List (List (Part α))) :
    List (Part α) :=
  .text "SELECT " ::
    (if c.selected.isEmpty then [.text "*"] else commaList (c.selected.map (·.expand subs))) ++
    (match c.source with
      | none => []
      | some table => .text " FROM " :: table.expand subs) ++
    c.joins.flatMap (·.expand subs) ++
    clause " WHERE " " AND " (List.zipWith (Condition.expand subs) c.conditions labels) ++
    clause " GROUP BY " ", " (c.grouping.map (·.expand subs)) ++
    c.unions.flatMap fun i => .text " UNION " :: subs.getD i []

end Assembly

def Clauses.values (c : Clauses) : List String := c.conditions.flatMap (·.values)

/-- Numbers the values of conditions one after the other, the first of them with `start`. -/
def numberFrom (start : Nat) : List Condition → List (List Nat)
  | [] => []
  | c :: rest =>
    List.range' start c.values.length :: numberFrom (start + c.values.length) rest

namespace Statement

mutual

/-- The values of a statement: its own, then those of the attached statements in their order,
whether a fragment embeds them or not. -/
def values : Statement → List String
  | ⟨c, subs⟩ => c.values ++ valuesOfAll subs

def valuesOfAll : List Statement → List String
  | [] => []
  | s :: rest => s.values ++ valuesOfAll rest

end

mutual

/-- The text with each value in its place. -/
def inPlace : Statement → List (Part String)
  | ⟨c, subs⟩ => c.expand (c.conditions.map (·.values)) (inPlaceAll subs)

def inPlaceAll : List Statement → List (List (Part String))
  | [] => []
  | s :: rest => s.inPlace :: inPlaceAll rest

end

mutual

/-- The text with the number of each value in its place, the first of them `start`. -/
def numbered (start : Nat) : Statement → List (Part Nat)
  | ⟨c, subs⟩ =>
    c.expand (numberFrom start c.conditions) (numberedAll (start + c.values.length) subs)

def numberedAll (start : Nat) : List Statement → List (List (Part Nat))
  | [] => []
  | s :: rest => s.numbered start :: numberedAll (start + s.values.length) rest

end

/-- The statement with every value written as a literal. -/
def literal (s : Statement) : String := fill quoteLiteral s.inPlace

end Statement

/-- A statement's text with the placeholders `$1`, `$2`, …, and the values bound to them. -/
structure Compiled where
  sql : String
  values : List String
  deriving DecidableEq

def Statement.compile (s : Statement) : Compiled where
  sql := fill (fun n => "$" ++ toString n) (s.numbered 1)
  values := s.values

end EntityFeed.Sql
