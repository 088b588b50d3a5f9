import EntityFeed.Postgres.Uuid
import EntityFeed.Sql.Statement
import EntityFeed.Text.Replacement

/-! Statements put together as texts. Values and nested statements are kept out of a text by tokens,
which are replaced when the whole is written out. Tokens are drawn at random, so that nobody writes one
by chance. -/
namespace EntityFeed.Sql

/-- A name that stands for a value or a statement. -/
structure Token where
  id : Postgres.Uuid
  deriving DecidableEq

instance : Inhabited Token := ⟨⟨List.replicate 16 0, rfl⟩⟩

namespace Token

/-- The part of a token that is drawn at random. -/
def digits (t : Token) : List Char := Text.hexOfBytes t.id.bytes

def text (t : Token) : String := String.ofList ("__qb_".toList ++ t.digits ++ "__".toList)

end Token

/-- Clauses as texts with tokens in them. -/
structure Texts where
  selected : List String := []
  source : Option String := none
  joins : List String := []
  conditions : List String := []
  grouping : List String := []
  unions : List String := []

namespace Texts

/-- A clause with its keyword, or nothing if it has no items. -/
def clause (keyword separator : String) (items : List String) : String :=
  if items.isEmpty then "" else keyword ++ String.intercalate separator items

/-- The whole text. -/
def text (c : Texts) : String :=
  "SELECT " ++ (if c.selected.isEmpty then "*" else String.intercalate ", " c.selected) ++
    (match c.source with
      | none => ""
      | some table => " FROM " ++ table) ++
    String.join (c.joins.map (" " ++ ·)) ++
    clause " WHERE " " AND " c.conditions ++
    clause " GROUP BY " ", " c.grouping ++
    String.join (c.unions.map (" UNION " ++ ·))

end Texts

/-- A statement as it is put together: its texts, the values that tokens in them stand for, and the
statements that tokens in them stand for. -/
inductive Builder where
  | mk (texts : Texts) (bindings : List (Token × String)) (nested : List (Token × Builder))

/-- A text in which all statements have been put in, with the values that its tokens stand for. -/
structure Rendered where
  sql : String
  bindings : List (Token × String)

namespace Builder

def empty : Builder := ⟨{}, [], []⟩

instance : Inhabited Builder := ⟨empty⟩

def texts : Builder → Texts
  | ⟨c, _, _⟩ => c

def bindings : Builder → List (Token × String)
  | ⟨_, bindings, _⟩ => bindings

def nested : Builder → List (Token × Builder)
  | ⟨_, _, nested⟩ => nested

def withTexts (f : Texts → Texts) : Builder → Builder
  | ⟨c, bindings, nested⟩ => ⟨f c, bindings, nested⟩

def source (b : Builder) (table : String) : Builder :=
  b.withTexts fun c => { c with source := some table }

def select (b : Builder) (expression : String) : Builder :=
  b.withTexts fun c => { c with selected := c.selected ++ [expression] }

def groupBy (b : Builder) (expression : String) : Builder :=
  b.withTexts fun c => { c with grouping := c.grouping ++ [expression] }

def joinText (kind : JoinKind) (table left right : String) : String :=
  kind.keyword ++ " " ++ table ++ " ON " ++ left ++ " = " ++ right

def join (b : Builder) (kind : JoinKind) (table left right : String) : Builder :=
  b.withTexts fun c => { c with joins := c.joins ++ [joinText kind table left right] }

/-- The predicate that a column has one of some values, which stand there as `labels`. -/
def predicate (column : String) : List String → String
  | [] => "FALSE"
  | [label] => column ++ " = " ++ label
  | labels => column ++ " IN (" ++ String.intercalate ", " labels ++ ")"

/-- Restricts `column` to `values`. Each distinct value is bound to a token of its own. -/
def whereIn (b : Builder) (column : String) (values : List String) (draw : Nat → Token) : Builder :=
  let bound := (distinct values).mapIdx fun i value => (draw i, value)
  let c := b.texts
  ⟨{ c with conditions := c.conditions ++ [predicate column (bound.map (·.1.text))] },
    b.bindings ++ bound, b.nested⟩

/-- Takes in a statement, which texts then embed by the token returned. -/
def subQuery (b : Builder) (t : Token) (q : Builder) : String × Builder :=
  (t.text, ⟨b.texts, b.bindings, b.nested ++ [(t, q)]⟩)

/-- Unites the result with that of other statements. -/
def union (b : Builder) : List (Token × Builder) → Builder
  | [] => b
  | (t, q) :: rest =>
    let (name, b) := b.subQuery t q
    union (b.withTexts fun c => { c with unions := c.unions ++ [name] }) rest

mutual

/-- Puts every nested statement in the places of its token, one after the other. -/
def render : Builder → Rendered
  | ⟨c, bindings, nested⟩ => splice ⟨c.text, bindings⟩ nested

def splice (r : Rendered) : List (Token × Builder) → Rendered
  | [] => r
  | (t, q) :: rest =>
    let inner := q.render
    splice ⟨Text.replace t.text inner.sql r.sql, r.bindings ++ inner.bindings⟩ rest

end

/-- Puts something in the places of bound values, one after the other. `spell` is given the number of
the value beside it; the first one has the number `start`. -/
def fillIn (spell : Nat → String → String) (start : Nat) : List (Token × String) → String → String
  | [], sql => sql
  | (t, value) :: rest, sql =>
    fillIn spell (start + 1) rest (Text.replace t.text (spell start value) sql)

def compile (b : Builder) : Compiled where
  sql := fillIn (fun n _ => "$" ++ toString n) 1 b.render.bindings b.render.sql
  values := b.render.bindings.map (·.2)

/-- The statement with every value written as a literal. -/
def literal (b : Builder) : String :=
  fillIn (fun _ value => quoteLiteral value) 1 b.render.bindings b.render.sql

end Builder
end EntityFeed.Sql
