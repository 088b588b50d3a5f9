import EntityFeed.Proofs.Sql.Wording

/-! What is read from the text of a query, with placeholders and with literals: its lexemes, among
which every value has one place. -/
namespace EntityFeed.Sql

namespace Lexeme

def number? : Lexeme → Option Nat
  | placeholder n => some n
  | _ => none

/-- The numbers of the placeholders. -/
def numbers (xs : List Lexeme) : List Nat := xs.filterMap number?

@[simp] theorem numbers_append (xs ys : List Lexeme) : numbers (xs ++ ys) = numbers xs ++ numbers ys :=
  List.filterMap_append

theorem numbers_intercalate {sep : List Lexeme} (none : numbers sep = [])
    (items : List (List Lexeme)) : numbers (sep.intercalate items) = items.flatMap numbers := by
  induction items with
  | nil => rfl
  | cons first rest ih =>
    cases rest with
    | nil => simp
    | cons next rest => simp [List.intercalate_cons_cons, none, ih]

theorem numbers_eq_flatMap (xs : List Lexeme) : numbers xs = xs.flatMap fun x => numbers [x] := by
  induction xs with
  | nil => rfl
  | cons x xs ih => rw [List.flatMap_cons, ← ih, ← numbers_append, List.singleton_append]

/-- A lexeme with the value that belongs to it, if it is a placeholder. -/
def inPlace (values : List String) : Lexeme → Lexeme
  | placeholder n => literal (values.getD (n - 1) "")
  | x => x

theorem valid_inPlace (values : List String) (x : Lexeme) : (x.inPlace values).valid = x.valid := by
  cases x <;> rfl

theorem closed_inPlace (values : List String) (x : Lexeme) : (x.inPlace values).closed = x.closed := by
  cases x <;> rfl

theorem Readable.map_inPlace {xs : List Lexeme} (h : Readable xs) (values : List String) :
    Readable (xs.map (inPlace values)) := by
  refine ⟨?_, ?_⟩
  · intro y hy
    obtain ⟨x, hx, rfl⟩ := List.mem_map.mp hy
    rw [valid_inPlace]
    exact h.valid x hx
  · rw [List.isChain_map]
    simpa only [closed_inPlace] using h.apart

theorem writeAll_inPlace (values : List String) (xs : List Lexeme) :
    writeAll (fun n => quoteLiteral (values.getD (n - 1) "")) xs =
      textOf (xs.map (inPlace values)) := by
  rw [writeAll, textOf, List.map_map]
  congr 1
  exact List.map_congr_left fun x _ => by cases x <;> rfl

end Lexeme

open Lexeme

section Numbers

theorem ColumnRef.numbers_lexemes (r : ColumnRef) : numbers r.lexemes = [] := rfl

theorem TableRef.numbers_lexemes (t : TableRef) : numbers t.lexemes = [] := rfl

mutual

theorem Expr.numbers_lexemes (e : Expr) : numbers e.lexemes = [] := by
  match e with
  | .column r => rfl
  | .record fields =>
    rw [lexemes, numbers_append, numbers_append, numbers_intercalate rfl, numbers_fieldLexemes fields]
    rfl
  | .arrayOrEmpty r => rfl

theorem Expr.numbers_fieldLexemes (fields : List (String × Expr)) :
    (fieldLexemes fields).flatMap numbers = [] := by
  match fields with
  | [] => rfl
  | (name, e) :: rest =>
    rw [fieldLexemes, List.flatMap_cons, numbers_append, numbers_append, e.numbers_lexemes,
      numbers_fieldLexemes rest]
    rfl

end

theorem Output.numbers_lexemes (o : Output) : numbers o.lexemes = [] := by
  have selection : numbers o.selection.lexemes = [] := by
    cases o.selection with
    | value e => exact e.numbers_lexemes
    | gathered e =>
      rw [Selection.lexemes, numbers_append, numbers_append, e.numbers_lexemes]
      rfl
  rw [lexemes, numbers_append, selection]
  rfl

theorem Output.numbers_listLexemes (outputs : List Output) : numbers (listLexemes outputs) = [] := by
  unfold listLexemes
  split
  · rfl
  · rw [numbers_intercalate rfl, List.flatMap_map]
    simp [numbers_lexemes]

theorem numbers_placeholders (start : Nat) (values : List String) :
    numbers (placeholders start values) = List.range' start values.length := by
  simp [numbers, placeholders, List.filterMap_map, Function.comp_def, number?]

theorem ColumnRef.numbers_among (r : ColumnRef) (labels : List Lexeme) :
    numbers (r.among labels) = numbers labels := by
  match labels with
  | [] => rfl
  | [x] => rfl
  | x :: y :: rest =>
    rw [among, numbers_append, numbers_append, numbers_append, numbers_intercalate rfl,
      List.flatMap_map, ← numbers_eq_flatMap]
    · exact List.append_nil _
    all_goals simp

theorem Membership.numbers_clauseLexemes (start : Nat) (condition : Option Membership) :
    numbers (clauseLexemes start condition) = List.range' start (bound condition).length := by
  cases condition with
  | none => rfl
  | some m =>
    rw [clauseLexemes, numbers_append, ColumnRef.numbers_among, numbers_placeholders, bound,
      Option.toList_some, List.flatMap_singleton]
    rfl

theorem ColumnRef.numbers_groupLexemes (grouping : Option ColumnRef) :
    numbers (groupLexemes grouping) = [] := by
  cases grouping <;> rfl

theorem JoinKind.numbers_joinLexemes (kind : JoinKind) (table : List Lexeme) (left right : ColumnRef) :
    numbers (kind.joinLexemes table left right) = numbers table := by
  have keyword : numbers kind.lexemes = [] := by cases kind <;> rfl
  rw [joinLexemes, numbers_append, numbers_append, keyword]
  exact List.append_nil _

theorem Select.values_statement (outputs : List Output) (source : TableRef) (joins : List Joined)
    (condition : Option Membership) (grouping : Option ColumnRef) :
    (Select.mk outputs source joins condition grouping).statement.values =
      Membership.bound condition ++ Statement.valuesOfAll (Joined.statements joins) := by
  rw [Select.statement, Statement.values, Clauses.values, List.flatMap_map]
  rfl

mutual

/-- Every value of a query has one placeholder. -/
theorem Select.perm_numbers (q : Select) (start : Nat) :
    (numbers (q.lexemes start)).Perm (List.range' start q.statement.values.length) := by
  match q with
  | ⟨outputs, source, joins, condition, grouping⟩ =>
    have joined := Joined.perm_numbers joins (start + (Membership.bound condition).length)
    have shown : numbers (Select.lexemes start ⟨outputs, source, joins, condition, grouping⟩) =
        numbers (Joined.lexemes (start + (Membership.bound condition).length) joins) ++
          List.range' start (Membership.bound condition).length := by
      rw [Select.lexemes]
      simp only [numbers_append, Output.numbers_listLexemes, TableRef.numbers_lexemes,
        Membership.numbers_clauseLexemes, ColumnRef.numbers_groupLexemes, List.append_nil]
      rfl
    rw [shown, Select.values_statement, List.length_append, ← List.range'_append_1]
    exact List.perm_append_comm.trans (joined.append_left _)

theorem Joined.perm_numbers (joins : List Joined) (start : Nat) :
    (numbers (Joined.lexemes start joins)).Perm
      (List.range' start (Statement.valuesOfAll (Joined.statements joins)).length) := by
  match joins with
  | [] => exact .nil
  | .table kind t left right :: rest =>
    rw [Joined.lexemes, Joined.statements, numbers_append, JoinKind.numbers_joinLexemes]
    exact Joined.perm_numbers rest start
  | .nested kind q qualifier left right :: rest =>
    have here := q.perm_numbers start
    have later := Joined.perm_numbers rest (start + q.statement.values.length)
    have table : numbers ([.mark '('] ++ (q.lexemes start ++ ([.mark ')'] ++ (asName ++
        [.ident qualifier])))) = numbers (q.lexemes start) := by
      rw [numbers_append, numbers_append]
      exact List.append_nil _
    rw [Joined.lexemes, Joined.statements, numbers_append, JoinKind.numbers_joinLexemes, table,
      Statement.valuesOfAll, List.length_append, ← List.range'_append_1]
    exact here.append later

end

end Numbers

/-- The lexemes of queries, each numbered after the values of those before it. -/
def Select.lexemesOfAll (start : Nat) : List Select → List (List Lexeme)
  | [] => []
  | q :: rest => q.lexemes start :: Select.lexemesOfAll (start + q.statement.values.length) rest

def Query.lexemes (q : Query) : List Lexeme :=
  [.blank, .word "UNION", .blank].intercalate (Select.lexemesOfAll 1 q.selects)

/-- That a statement is written as these lexemes, and that they can be told apart. -/
structure Statement.Spelled (s : Statement) (xs : List Lexeme) : Prop where
  text : ∀ f, fill f (s.numbered 1) = writeAll f xs
  readable : Readable xs
  numbers : (Lexeme.numbers xs).Perm (List.range' 1 s.values.length)

namespace Statement.Spelled

variable {s : Statement} {xs : List Lexeme}

theorem lex_sql (h : s.Spelled xs) : lex s.compile.sql.toList = some xs := by
  rw [compile, h.text]
  exact h.readable.lex_textOf

/-- Written with literals, a statement has the same lexemes but for the values, each of which is one
literal. -/
theorem lex_literal (h : s.Spelled xs) :
    lex s.literal.toList = some (xs.map (Lexeme.inPlace s.values)) := by
  have text : s.literal = textOf (xs.map (Lexeme.inPlace s.values)) := by
    rw [← s.fill_literals, h.text]
    exact writeAll_inPlace s.values xs
  rw [text]
  exact (h.readable.map_inPlace s.values).lex_textOf

end Statement.Spelled

theorem Select.spelled (q : Select) : q.statement.Spelled (q.lexemes 1) :=
  ⟨fun f => q.fill_statement f 1, q.readable 1, q.perm_numbers 1⟩

theorem Select.map_fill_numberedAll (f : Nat → String) (qs : List Select) (start : Nat) :
    (Statement.numberedAll start (qs.map (·.statement))).map (fill f) =
      (lexemesOfAll start qs).map (writeAll f) := by
  induction qs generalizing start with
  | nil => rfl
  | cons q rest ih =>
    rw [List.map_cons, Statement.numberedAll, List.map_cons, lexemesOfAll, List.map_cons, ih,
      q.fill_statement f start]

theorem Select.readable_lexemesOfAll (qs : List Select) (start : Nat) :
    ∀ item ∈ lexemesOfAll start qs, Readable item := by
  induction qs generalizing start with
  | nil => simp [lexemesOfAll]
  | cons q rest ih => exact List.forall_mem_cons.mpr ⟨q.readable start, ih _⟩

theorem Select.perm_numbers_lexemesOfAll (qs : List Select) (start : Nat) :
    ((lexemesOfAll start qs).flatMap numbers).Perm
      (List.range' start (Statement.valuesOfAll (qs.map (·.statement))).length) := by
  induction qs generalizing start with
  | nil => exact .nil
  | cons q rest ih =>
    rw [lexemesOfAll, List.flatMap_cons, List.map_cons, Statement.valuesOfAll, List.length_append,
      ← List.range'_append_1]
    exact (q.perm_numbers start).append (ih _)

theorem Query.values_statement (q : Query) {c : Clauses} (first : q.first.statement = ⟨c, []⟩) :
    q.statement.values = q.selects.flatMap (·.statement.values) := by
  rw [statement, first, Statement.values_union, ← first, ← List.map_cons, List.flatMap_map]
  rfl

/-- A union is written one query after the other. -/
theorem Query.spelled (q : Query) {c : Clauses} (first : q.first.statement = ⟨c, []⟩)
    (plain : c.Plain) : q.statement.Spelled q.lexemes := by
  have selects : q.selects.map (·.statement) = ⟨c, []⟩ :: q.others.map (·.statement) := by
    rw [selects, List.map_cons, first]
  refine ⟨fun f => ?_, Readable.intercalate (by decide) (Select.readable_lexemesOfAll _ 1), ?_⟩
  · have keyword : writeAll f [.blank, .word "UNION", .blank] = " UNION " := rfl
    rw [statement, first, Statement.fill_union plain, ← selects, Select.map_fill_numberedAll, lexemes,
      writeAll_intercalate, keyword]
  · have numbered := Select.perm_numbers_lexemesOfAll q.selects 1
    rw [Statement.valuesOfAll_eq, List.flatMap_map] at numbered
    rw [q.values_statement first, lexemes, numbers_intercalate rfl]
    exact numbered

end EntityFeed.Sql
