import EntityFeed.Proofs.Sql.Lexing
import EntityFeed.Proofs.Sql.Template
import EntityFeed.Sql.Select

/-! The lexemes of queries. The text of a query is the text of its lexemes, and these are kept apart
in it. -/
namespace EntityFeed.Sql

namespace Lexeme

def comma : List Lexeme := [.mark ',', .blank]

def asName : List Lexeme := [.blank, .word "AS", .blank]

def equals : List Lexeme := [.blank, .mark '=', .blank]

@[simp] theorem writeAll_nil (spell : Nat → String) : writeAll spell [] = "" := rfl

@[simp] theorem writeAll_cons (spell : Nat → String) (x : Lexeme) (xs : List Lexeme) :
    writeAll spell (x :: xs) = x.write spell ++ writeAll spell xs :=
  String.join_cons

@[simp] theorem writeAll_append (spell : Nat → String) (xs ys : List Lexeme) :
    writeAll spell (xs ++ ys) = writeAll spell xs ++ writeAll spell ys := by
  simp [writeAll]

theorem writeAll_intercalate (spell : Nat → String) (sep : List Lexeme) (items : List (List Lexeme)) :
    writeAll spell (sep.intercalate items) =
      String.intercalate (writeAll spell sep) (items.map (writeAll spell)) := by
  induction items with
  | nil => simp
  | cons first rest ih =>
    cases rest with
    | nil => simp
    | cons next rest =>
      rw [List.intercalate_cons_cons, List.map_cons, List.map_cons, String.intercalate_cons_cons]
      simp [ih, String.append_assoc]

end Lexeme

open Lexeme

def ColumnRef.lexemes (r : ColumnRef) : List Lexeme := [.ident r.qualifier, .mark '.', .ident r.column]

def TableRef.lexemes (t : TableRef) : List Lexeme :=
  [.ident t.table] ++ (asName ++ [.ident t.qualifier])

namespace Expr

mutual

def lexemes : Expr → List Lexeme
  | .column r => r.lexemes
  | .record fields =>
    [.word "JSON_BUILD_OBJECT", .mark '('] ++ (comma.intercalate (fieldLexemes fields) ++ [.mark ')'])
  | .arrayOrEmpty r =>
    [.word "COALESCE", .mark '('] ++ (r.lexemes ++
      (comma ++ [.literal "[]", .cast, .word "json", .mark ')']))

def fieldLexemes : List (String × Expr) → List (List Lexeme)
  | [] => []
  | (name, e) :: rest => ([.literal name] ++ (comma ++ e.lexemes)) :: fieldLexemes rest

end

end Expr

def Selection.lexemes : Selection → List Lexeme
  | value e => e.lexemes
  | gathered e => [.word "JSON_AGG", .mark '('] ++ (e.lexemes ++ [.mark ')'])

def Output.lexemes (o : Output) : List Lexeme := o.selection.lexemes ++ (asName ++ [.ident o.name])

def JoinKind.lexemes : JoinKind → List Lexeme
  | .left => [.blank, .word "LEFT", .blank, .word "JOIN", .blank]
  | .inner => [.blank, .word "INNER", .blank, .word "JOIN", .blank]

/-- A join with what `table` spells. -/
def JoinKind.joinLexemes (kind : JoinKind) (table : List Lexeme) (left right : ColumnRef) :
    List Lexeme :=
  kind.lexemes ++ (table ++ ([.blank, .word "ON", .blank] ++
    (left.lexemes ++ (equals ++ right.lexemes))))

/-- The predicate that a column has one of some values. -/
def ColumnRef.among (r : ColumnRef) : List Lexeme → List Lexeme
  | [] => [.word "FALSE"]
  | [label] => r.lexemes ++ (equals ++ [label])
  | labels => r.lexemes ++ ([.blank, .word "IN", .blank, .mark '('] ++
      (comma.intercalate (labels.map ([·])) ++ [.mark ')']))

/-- The placeholders of some values, the first of them `start`. -/
def placeholders (start : Nat) (values : List String) : List Lexeme :=
  (List.range' start values.length).map .placeholder

/-- What a query selects: everything, if nothing is named. -/
def Output.listLexemes (outputs : List Output) : List Lexeme :=
  if outputs.isEmpty then [.mark '*'] else comma.intercalate (outputs.map lexemes)

def Membership.clauseLexemes (start : Nat) : Option Membership → List Lexeme
  | none => []
  | some m =>
    [.blank, .word "WHERE", .blank] ++ m.column.among (placeholders start (distinct m.values))

def ColumnRef.groupLexemes : Option ColumnRef → List Lexeme
  | none => []
  | some r => [.blank, .word "GROUP", .blank, .word "BY", .blank] ++ r.lexemes

/-- The values of a condition, each once. -/
def Membership.bound (condition : Option Membership) : List String :=
  condition.toList.flatMap fun m => distinct m.values

mutual

/-- The lexemes of a query whose first value has the number `start`. -/
def Select.lexemes (start : Nat) : Select → List Lexeme
  | ⟨outputs, source, joins, condition, grouping⟩ =>
    [.word "SELECT", .blank] ++ (Output.listLexemes outputs ++
      ([.blank, .word "FROM", .blank] ++ (source.lexemes ++
        (Joined.lexemes (start + (Membership.bound condition).length) joins ++
          (Membership.clauseLexemes start condition ++ ColumnRef.groupLexemes grouping)))))

def Joined.lexemes (start : Nat) : List Joined → List Lexeme
  | [] => []
  | .table kind t left right :: rest =>
    kind.joinLexemes t.lexemes left right ++ Joined.lexemes start rest
  | .nested kind q qualifier left right :: rest =>
    kind.joinLexemes ([.mark '('] ++ (q.lexemes start ++ ([.mark ')'] ++ (asName ++
      [.ident qualifier])))) left right ++ Joined.lexemes (start + q.statement.values.length) rest

end

theorem Joined.valuesOfAll_append (joins rest : List Joined) :
    Statement.valuesOfAll (Joined.statements (joins ++ rest)) =
      Statement.valuesOfAll (Joined.statements joins) ++
        Statement.valuesOfAll (Joined.statements rest) := by
  induction joins with
  | nil => rfl
  | cons j joins ih =>
    cases j with
    | table kind t left right => exact ih
    | nested kind q outer left right =>
      rw [List.cons_append, Joined.statements, Joined.statements, Statement.valuesOfAll,
        Statement.valuesOfAll, ih, List.append_assoc]

theorem Joined.lexemes_append (joins rest : List Joined) (start : Nat) :
    Joined.lexemes start (joins ++ rest) = Joined.lexemes start joins ++
      Joined.lexemes (start + (Statement.valuesOfAll (Joined.statements joins)).length) rest := by
  induction joins generalizing start with
  | nil => rfl
  | cons j joins ih =>
    cases j with
    | table kind t left right =>
      rw [List.cons_append, Joined.lexemes, Joined.lexemes, ih, List.append_assoc, Joined.statements]
    | nested kind q outer left right =>
      rw [List.cons_append, Joined.lexemes, Joined.lexemes, ih, List.append_assoc, Joined.statements,
        Statement.valuesOfAll, List.length_append, Nat.add_assoc]

section Text

variable (f : Nat → String)

theorem ColumnRef.writeAll_lexemes (r : ColumnRef) : writeAll f r.lexemes = r.text := by
  simp [lexemes, text, write, String.append_assoc]

theorem TableRef.writeAll_lexemes (t : TableRef) : writeAll f t.lexemes = t.text := by
  have as : writeAll f asName = " AS " := rfl
  simp [lexemes, text, write, as, String.append_assoc]

mutual

theorem Expr.writeAll_lexemes (e : Expr) : writeAll f e.lexemes = e.text := by
  have sep : writeAll f comma = ", " := rfl
  match e with
  | .column r =>
    dsimp only [lexemes, Expr.text]
    exact r.writeAll_lexemes f
  | .record fields =>
    dsimp only [lexemes, Expr.text]
    have opening : writeAll f [.word "JSON_BUILD_OBJECT", .mark '('] = "JSON_BUILD_OBJECT(" := rfl
    have closing : writeAll f [.mark ')'] = ")" := rfl
    rw [writeAll_append, writeAll_append, opening, closing, writeAll_intercalate, sep,
      writeAll_fieldLexemes fields, String.append_assoc]
  | .arrayOrEmpty r =>
    dsimp only [lexemes, Expr.text]
    have opening : writeAll f [.word "COALESCE", .mark '('] = "COALESCE(" := rfl
    have empty : quoteLiteral "[]" = "'[]'" := by decide +kernel
    have closing : writeAll f (comma ++ [.literal "[]", .cast, .word "json", .mark ')']) =
      ", '[]'::json)" := by
      rw [writeAll_append, writeAll_cons, write, empty]
      rfl
    rw [writeAll_append, writeAll_append, opening, closing, r.writeAll_lexemes f, String.append_assoc]

theorem Expr.writeAll_fieldLexemes (fields : List (String × Expr)) :
    (fieldLexemes fields).map (writeAll f) = fieldTexts fields := by
  match fields with
  | [] => rfl
  | (name, e) :: rest =>
    have sep : writeAll f comma = ", " := rfl
    rw [fieldLexemes, fieldTexts, List.map_cons, writeAll_fieldLexemes rest, writeAll_append,
      writeAll_append, e.writeAll_lexemes, sep]
    simp [write, String.append_assoc]

end

theorem Selection.writeAll_lexemes (x : Selection) : writeAll f x.lexemes = x.text := by
  cases x with
  | value e => exact e.writeAll_lexemes f
  | gathered e =>
    have opening : writeAll f [.word "JSON_AGG", .mark '('] = "JSON_AGG(" := rfl
    have closing : writeAll f [.mark ')'] = ")" := rfl
    rw [lexemes, text, writeAll_append, writeAll_append, opening, closing, e.writeAll_lexemes f,
      String.append_assoc]

theorem Output.writeAll_lexemes (o : Output) : writeAll f o.lexemes = o.text := by
  have as : writeAll f asName = " AS " := rfl
  simp [lexemes, text, write, as, o.selection.writeAll_lexemes f, String.append_assoc]

theorem ColumnRef.writeAll_among (r : ColumnRef) (labels : List Lexeme) :
    writeAll f (r.among labels) = Builder.predicate r.text (labels.map (write f)) := by
  have eq : writeAll f equals = " = " := rfl
  have sep : writeAll f comma = ", " := rfl
  match labels with
  | [] => rfl
  | [x] => simp [among, Builder.predicate, eq, r.writeAll_lexemes f, String.append_assoc]
  | x :: y :: rest =>
    have opening : writeAll f [.blank, .word "IN", .blank, .mark '('] = " IN (" := rfl
    have closing : writeAll f [.mark ')'] = ")" := rfl
    have items : ((x :: y :: rest).map ([·])).map (writeAll f) = (x :: y :: rest).map (write f) := by
      simp [writeAll]
    rw [among, writeAll_append, writeAll_append, writeAll_append, opening, closing,
      writeAll_intercalate, sep, items, r.writeAll_lexemes f]
    · simp only [List.map_cons, Builder.predicate, String.append_assoc]
    all_goals simp

theorem JoinKind.writeAll_joinLexemes (kind : JoinKind) (table : List Lexeme)
    (left right : ColumnRef) :
    writeAll f (kind.joinLexemes table left right) =
      " " ++ Builder.joinText kind (writeAll f table) left.text right.text := by
  have eq : writeAll f equals = " = " := rfl
  have on : writeAll f [.blank, .word "ON", .blank] = " ON " := rfl
  have opening : writeAll f kind.lexemes = " " ++ (kind.keyword ++ " ") := by cases kind <;> rfl
  simp only [joinLexemes, writeAll_append, opening, on, eq, ColumnRef.writeAll_lexemes,
    Builder.joinText, String.append_assoc]

theorem write_placeholders (start : Nat) (values : List String) :
    (placeholders start values).map (write f) = (List.range' start values.length).map f := by
  simp [placeholders, Function.comp_def, write]

/-- A join as text, given the texts of the attached statements. -/
def Join.written (subs : List String) (j : Join) : String :=
  " " ++ Builder.joinText j.kind (j.table.written subs) (j.left.written subs) (j.right.written subs)

theorem Clauses.text_written (c : Clauses) (labels : List (List String)) (subs : List String) :
    (c.written labels subs).text =
      "SELECT " ++ (if c.selected.isEmpty then "*" else
        String.intercalate ", " (c.selected.map (·.written subs))) ++
      (match c.source with
        | none => ""
        | some table => " FROM " ++ table.written subs) ++
      String.join (c.joins.map (·.written subs)) ++
      Texts.clause " WHERE " " AND " (List.zipWith (fun d => Builder.predicate (d.column.written subs))
        c.conditions labels) ++
      Texts.clause " GROUP BY " ", " (c.grouping.map (·.written subs)) ++
      String.join (c.unions.map fun i => " UNION " ++ subs.getD i "") := by
  obtain ⟨selected, source, joins, conditions, grouping, unions⟩ := c
  cases source <;>
    simp [Clauses.written, Texts.text, Join.written, Function.comp_def, String.append_assoc]

section Clauses

variable (subs : List String)

theorem Output.writeAll_listLexemes (outputs : List Output) :
    writeAll f (listLexemes outputs) =
      if (outputs.map fun o => Fragment.ofText o.text).isEmpty then "*" else
        String.intercalate ", "
          ((outputs.map fun o => Fragment.ofText o.text).map (·.written subs)) := by
  have sep : writeAll f comma = ", " := rfl
  unfold listLexemes
  cases outputs with
  | nil => rfl
  | cons o rest =>
    simp [writeAll_intercalate, sep, Fragment.written_ofText, writeAll_lexemes, Function.comp_def]

theorem Membership.writeAll_clauseLexemes (start : Nat) (condition : Option Membership) :
    writeAll f (clauseLexemes start condition) =
      Texts.clause " WHERE " " AND " (List.zipWith
        (fun (d : Condition) => Builder.predicate (d.column.written subs))
        (condition.toList.map fun m => ⟨m.column.text, distinct m.values⟩)
        ((numberFrom start (condition.toList.map fun m => ⟨m.column.text, distinct m.values⟩)).map
          (·.map f))) := by
  have keyword : writeAll f [.blank, .word "WHERE", .blank] = " WHERE " := rfl
  cases condition with
  | none => rfl
  | some m =>
    rw [clauseLexemes, writeAll_append, keyword, ColumnRef.writeAll_among, write_placeholders]
    simp [numberFrom, Texts.clause, Fragment.written_ofText]

theorem ColumnRef.writeAll_groupLexemes (grouping : Option ColumnRef) :
    writeAll f (groupLexemes grouping) = Texts.clause " GROUP BY " ", "
      ((grouping.toList.map fun r => Fragment.ofText r.text).map (·.written subs)) := by
  have keyword : writeAll f [.blank, .word "GROUP", .blank, .word "BY", .blank] = " GROUP BY " := rfl
  cases grouping with
  | none => rfl
  | some r =>
    rw [groupLexemes, writeAll_append, keyword, writeAll_lexemes]
    simp [Texts.clause, Fragment.written_ofText]

end Clauses

theorem Fragment.written_nested (before after : List String) (inner qualifier : String) :
    Fragment.written (before ++ inner :: after)
      [.text "(", .attached before.length, .text (") AS " ++ quoteIdent qualifier)] =
      "(" ++ (inner ++ (")" ++ (" AS " ++ quoteIdent qualifier))) := by
  have closing : ")" ++ (" AS " ++ quoteIdent qualifier) = ") AS " ++ quoteIdent qualifier := by
    rw [← String.append_assoc]
    rfl
  simp [Fragment.written, closing]

mutual

/-- A query is written out lexeme by lexeme. -/
theorem Select.fill_statement (q : Select) (start : Nat) :
    fill f (q.statement.numbered start) = writeAll f (q.lexemes start) := by
  match q with
  | ⟨outputs, source, joins, condition, grouping⟩ =>
    have joined := Joined.written_clauses joins [] (start + (Membership.bound condition).length)
    rw [List.nil_append, Membership.bound] at joined
    have opening : writeAll f [.word "SELECT", .blank] = "SELECT " := rfl
    have keyword : writeAll f [.blank, .word "FROM", .blank] = " FROM " := rfl
    rw [Select.statement, Statement.numbered, Clauses.values, List.flatMap_map, Clauses.fill_expand,
      Clauses.text_written]
    simp only [Select.lexemes, writeAll_append, opening, keyword, source.writeAll_lexemes,
      Membership.bound]
    rw [← joined]
    -- Besides the joins, no clause embeds a statement, so it does not matter what is attached.
    generalize (Statement.numberedAll _ (Joined.statements joins)).map (fill f) = subs
    rw [Output.writeAll_listLexemes f subs, Membership.writeAll_clauseLexemes f subs,
      ColumnRef.writeAll_groupLexemes f subs]
    simp only [Fragment.written_ofText, String.append_assoc, List.length_nil, List.map_nil,
      String.join_nil, String.append_empty]

theorem Joined.written_clauses (joins : List Joined) (before : List String) (start : Nat) :
    String.join ((Joined.clauses before.length joins).map (Join.written
      (before ++ (Statement.numberedAll start (Joined.statements joins)).map (fill f)))) =
      writeAll f (Joined.lexemes start joins) := by
  match joins with
  | [] => rfl
  | .table kind t left right :: rest =>
    have later := Joined.written_clauses rest before start
    rw [Joined.clauses, Joined.statements, Joined.lexemes, List.map_cons, String.join_cons, later,
      writeAll_append, JoinKind.writeAll_joinLexemes, TableRef.writeAll_lexemes]
    simp only [Join.written, Fragment.written_ofText]
  | .nested kind q qualifier left right :: rest =>
    have here := q.fill_statement start
    have later := Joined.written_clauses rest (before ++ [fill f (q.statement.numbered start)])
      (start + q.statement.values.length)
    have as : writeAll f asName = " AS " := rfl
    rw [Joined.clauses, Joined.statements, Joined.lexemes, Statement.numberedAll, List.map_cons,
      List.map_cons, String.join_cons, writeAll_append, JoinKind.writeAll_joinLexemes, ← later]
    simp [Join.written, Fragment.written_ofText, Fragment.written_nested, here, write, as,
      String.append_assoc]

end

end Text

section Readable

open Readable

theorem ColumnRef.readable (r : ColumnRef) : Readable r.lexemes :=
  (single rfl).separated (by decide : Separates [.mark '.']) (single rfl)

theorem TableRef.readable (t : TableRef) : Readable t.lexemes :=
  (single rfl).separated (by decide : Separates asName) (single rfl)

mutual

theorem Expr.readable (e : Expr) : Readable e.lexemes := by
  match e with
  | .column r => exact r.readable
  | .record fields =>
    have inner := intercalate (by decide : Separates comma) (readable_fields fields)
    exact enclosed (by decide) rfl inner (by decide) rfl
  | .arrayOrEmpty r => exact enclosed (by decide) rfl r.readable (by decide) rfl

theorem Expr.readable_fields (fields : List (String × Expr)) :
    ∀ item ∈ fieldLexemes fields, Readable item := by
  match fields with
  | [] => simp [fieldLexemes]
  | (name, e) :: rest =>
    refine List.forall_mem_cons.mpr ⟨?_, readable_fields rest⟩
    exact (single rfl).separated (by decide : Separates comma) e.readable

end

theorem Output.readable (o : Output) : Readable o.lexemes := by
  have selection : Readable o.selection.lexemes := by
    cases o.selection with
    | value e => exact e.readable
    | gathered e => exact enclosed (by decide) rfl e.readable (by decide) rfl
  exact selection.separated (by decide : Separates asName) (single rfl)

theorem Output.readable_list (outputs : List Output) : Readable (listLexemes outputs) := by
  unfold listLexemes
  split
  · decide
  · refine intercalate (by decide) fun item h => ?_
    obtain ⟨o, -, rfl⟩ := List.mem_map.mp h
    exact o.readable

theorem ColumnRef.readable_among (r : ColumnRef) {labels : List Lexeme}
    (valid : ∀ x ∈ labels, x.valid = true) : Readable (r.among labels) := by
  match labels with
  | [] => exact (by decide : Readable [.word "FALSE"])
  | [x] => exact r.readable.separated (by decide : Separates equals) (single (valid x (.head _)))
  | x :: y :: rest =>
    have items : Readable (comma.intercalate ((x :: y :: rest).map ([·]))) := by
      refine intercalate (by decide) fun item h => ?_
      obtain ⟨z, hz, rfl⟩ := List.mem_map.mp h
      exact single (valid z hz)
    exact r.readable.append (enclosed (by decide) rfl items (by decide) rfl) (.inr rfl)

theorem Membership.trails (start : Nat) (condition : Option Membership) :
    Trails (clauseLexemes start condition) := by
  cases condition with
  | none => exact (by decide : Trails [])
  | some m =>
    have predicate : Readable (m.column.among (placeholders start (distinct m.values))) := by
      refine m.column.readable_among fun x h => ?_
      obtain ⟨n, -, rfl⟩ := List.mem_map.mp h
      rfl
    exact ⟨Readable.append (by decide) predicate (.inl rfl), rfl⟩

theorem ColumnRef.trails_group (grouping : Option ColumnRef) : Trails (groupLexemes grouping) := by
  cases grouping with
  | none => decide
  | some r => exact ⟨Readable.append (by decide) r.readable (.inl rfl), rfl⟩

theorem JoinKind.trails_join (kind : JoinKind) {table : List Lexeme} (readable : Readable table)
    (left right : ColumnRef) : Trails (kind.joinLexemes table left right) := by
  have condition := left.readable.separated (by decide : Separates equals) right.readable
  have inner := readable.separated (by decide : Separates [.blank, .word "ON", .blank]) condition
  cases kind with
  | left => exact ⟨Readable.append (by decide) inner (.inl rfl), rfl⟩
  | inner => exact ⟨Readable.append (by decide) inner (.inl rfl), rfl⟩

mutual

theorem Select.readable (q : Select) (start : Nat) : Readable (q.lexemes start) := by
  match q with
  | ⟨outputs, source, joins, condition, grouping⟩ =>
    have clauses := (Joined.trails joins (start + (Membership.bound condition).length)).append
      ((Membership.trails start condition).append (ColumnRef.trails_group grouping))
    have rows := source.readable.append clauses.1 (.inr clauses.2)
    have selected := (Output.readable_list outputs).separated
      (by decide : Separates [.blank, .word "FROM", .blank]) rows
    exact Readable.append (by decide) selected (.inl rfl)

theorem Joined.trails (joins : List Joined) (start : Nat) : Trails (Joined.lexemes start joins) := by
  match joins with
  | [] => exact (by decide : Trails [])
  | .table kind t left right :: rest =>
    exact (kind.trails_join t.readable left right).append (Joined.trails rest start)
  | .nested kind q qualifier left right :: rest =>
    have named : Readable ([.mark ')'] ++ (asName ++ [.ident qualifier])) :=
      Readable.separated (by decide) (by decide) (single rfl)
    have table : Readable ([.mark '('] ++ (q.lexemes start ++ ([.mark ')'] ++ (asName ++
        [.ident qualifier])))) :=
      enclosed (by decide) rfl (q.readable start) named rfl
    exact (kind.trails_join table left right).append (Joined.trails rest _)

end

end Readable

end EntityFeed.Sql
