import EntityFeed.Proofs.Quoting

/-! Where the ids of an object query stand. Only the outermost query has a condition, so its
placeholders are all there are, and what stands before its WHERE is the same for all ids. -/
namespace EntityFeed
open Sql Lexeme

namespace Sql

mutual

/-- That neither a query nor any one nested in it has a condition. -/
def Select.Unfiltered : Select → Prop
  | ⟨_, _, joins, condition, _⟩ => condition = none ∧ Joined.AllUnfiltered joins

def Joined.AllUnfiltered : List Joined → Prop
  | [] => True
  | .table _ _ _ _ :: rest => Joined.AllUnfiltered rest
  | .nested _ q _ _ _ :: rest => q.Unfiltered ∧ Joined.AllUnfiltered rest

end

theorem Joined.allUnfiltered_append {joins rest : List Joined} (h : Joined.AllUnfiltered joins)
    (h' : Joined.AllUnfiltered rest) : Joined.AllUnfiltered (joins ++ rest) := by
  induction joins with
  | nil => exact h'
  | cons j joins ih =>
    cases j with
    | table => exact ih h
    | nested => exact ⟨h.1, ih h.2⟩

mutual

theorem Select.values_of_unfiltered (q : Select) (h : q.Unfiltered) : q.statement.values = [] := by
  match q with
  | ⟨outputs, source, joins, condition, grouping⟩ =>
    obtain ⟨rfl, joined⟩ := h
    rw [Select.values_statement, Joined.values_of_unfiltered joins joined]
    rfl

theorem Joined.values_of_unfiltered (joins : List Joined) (h : Joined.AllUnfiltered joins) :
    Statement.valuesOfAll (Joined.statements joins) = [] := by
  match joins with
  | [] => rfl
  | .table _ _ _ _ :: rest => exact Joined.values_of_unfiltered rest h
  | .nested _ q _ _ _ :: rest =>
    rw [Joined.statements, Statement.valuesOfAll, q.values_of_unfiltered h.1,
      Joined.values_of_unfiltered rest h.2, List.append_nil]

end

mutual

/-- What has no placeholders is written the same whatever number they would start with. -/
theorem Select.lexemes_of_unfiltered (q : Select) (h : q.Unfiltered) (start : Nat) :
    q.lexemes start = q.lexemes 1 := by
  match q with
  | ⟨outputs, source, joins, condition, grouping⟩ =>
    obtain ⟨rfl, joined⟩ := h
    rw [Select.lexemes, Select.lexemes, Joined.lexemes_of_unfiltered joins joined,
      Joined.lexemes_of_unfiltered joins joined (1 + _)]
    rfl

theorem Joined.lexemes_of_unfiltered (joins : List Joined) (h : Joined.AllUnfiltered joins)
    (start : Nat) : Joined.lexemes start joins = Joined.lexemes 1 joins := by
  match joins with
  | [] => rfl
  | .table _ _ _ _ :: rest =>
    rw [Joined.lexemes, Joined.lexemes, Joined.lexemes_of_unfiltered rest h]
  | .nested _ q _ _ _ :: rest =>
    rw [Joined.lexemes, Joined.lexemes, q.lexemes_of_unfiltered h.1,
      Joined.lexemes_of_unfiltered rest h.2, Joined.lexemes_of_unfiltered rest h.2 (1 + _)]

end

theorem Joined.numbers_of_unfiltered {joins : List Joined} (h : Joined.AllUnfiltered joins)
    (start : Nat) : numbers (Joined.lexemes start joins) = [] := by
  have places := Joined.perm_numbers joins start
  rw [Joined.values_of_unfiltered joins h] at places
  exact places.eq_nil

section Where

theorem notMem_intercalate {α : Type} {x : α} {sep : List α} (hs : x ∉ sep) {items : List (List α)}
    (hi : ∀ item ∈ items, x ∉ item) : x ∉ sep.intercalate items := by
  intro h
  rcases Text.of_mem_intercalate h with between | ⟨item, among, inside⟩
  · exact hs between
  · exact hi item among inside

mutual

theorem Expr.where_notMem (e : Expr) : .word "WHERE" ∉ e.lexemes := by
  match e with
  | .column r => simp [Expr.lexemes, ColumnRef.lexemes]
  | .record fields =>
    have list := notMem_intercalate (by decide : .word "WHERE" ∉ comma) (Expr.where_notMem_fields fields)
    simp [Expr.lexemes, list]
  | .arrayOrEmpty r => simp [Expr.lexemes, ColumnRef.lexemes, comma]

theorem Expr.where_notMem_fields (fields : List (String × Expr)) :
    ∀ item ∈ fieldLexemes fields, .word "WHERE" ∉ item := by
  match fields with
  | [] => simp [fieldLexemes]
  | (name, e) :: rest =>
    rw [fieldLexemes, List.forall_mem_cons]
    exact ⟨by simp [comma, e.where_notMem], Expr.where_notMem_fields rest⟩

end

theorem Output.where_notMem (o : Output) : .word "WHERE" ∉ o.lexemes := by
  have selection : .word "WHERE" ∉ o.selection.lexemes := by
    cases o.selection <;> simp [Selection.lexemes, Expr.where_notMem]
  simp [Output.lexemes, asName, selection]

theorem Output.where_notMem_list (outputs : List Output) : .word "WHERE" ∉ listLexemes outputs := by
  unfold listLexemes
  split
  · decide
  · refine notMem_intercalate (by decide) fun item hi => ?_
    obtain ⟨o, -, rfl⟩ := List.mem_map.mp hi
    exact o.where_notMem

theorem ColumnRef.where_notMem_group (grouping : Option ColumnRef) :
    .word "WHERE" ∉ groupLexemes grouping := by
  cases grouping <;> simp [groupLexemes, lexemes]

theorem JoinKind.where_notMem {kind : JoinKind} {table : List Lexeme} (h : .word "WHERE" ∉ table)
    (left right : ColumnRef) : .word "WHERE" ∉ kind.joinLexemes table left right := by
  cases kind <;> simp [joinLexemes, lexemes, ColumnRef.lexemes, equals, h]

mutual

theorem Select.where_notMem (q : Select) (h : q.Unfiltered) (start : Nat) :
    .word "WHERE" ∉ q.lexemes start := by
  match q with
  | ⟨outputs, source, joins, condition, grouping⟩ =>
    obtain ⟨rfl, joined⟩ := h
    simp [Select.lexemes, Output.where_notMem_list, TableRef.lexemes, asName,
      Joined.where_notMem joins joined, Membership.clauseLexemes, ColumnRef.where_notMem_group]

theorem Joined.where_notMem (joins : List Joined) (h : Joined.AllUnfiltered joins) (start : Nat) :
    .word "WHERE" ∉ Joined.lexemes start joins := by
  match joins with
  | [] => exact List.not_mem_nil
  | .table kind t left right :: rest =>
    have plain : .word "WHERE" ∉ t.lexemes := by simp [TableRef.lexemes, asName]
    have first := kind.where_notMem plain left right
    simp [Joined.lexemes, first, Joined.where_notMem rest h]
  | .nested kind q qualifier left right :: rest =>
    have table : .word "WHERE" ∉ [.mark '('] ++ (q.lexemes start ++ ([.mark ')'] ++ (asName ++
        [.ident qualifier]))) := by
      simp [q.where_notMem h.1, asName]
    rw [Joined.lexemes, List.mem_append]
    exact fun mem => mem.elim (kind.where_notMem table left right) (Joined.where_notMem rest h.2 _)

end

end Where

end Sql

theorem Frame.unfiltered_select {p : Projection} (h : Joined.AllUnfiltered p.joins) (r : Relation)
    (source : TableRef) (key : String) : (r.frame.select source key p).Unfiltered := by
  cases r <;> exact ⟨rfl, h⟩

theorem Relation.unfiltered_projection (r : Relation) {kind : JoinKind} {q : Select}
    {qualifier : String} {left right : ColumnRef} (h : q.Unfiltered) :
    Joined.AllUnfiltered (r.projection (.nested kind q qualifier left right)).joins := by
  cases r <;> exact ⟨h, trivial⟩

mutual

theorem Node.project_unfiltered (o : ObjectQueryOptions) (qualifier : String) (node : Node)
    (a : Aliases) : Joined.AllUnfiltered (node.project o qualifier a).1.joins := by
  match node with
  | .column name =>
    rw [project]
    trivial
  | .object properties =>
    rw [project]
    exact projectAll_unfiltered o qualifier properties a
  | .relation r node =>
    rw [project_relation]
    have inner := project_unfiltered o (a.next (r.target o node).relation.table).1
      (r.target o node).node (a.next (r.target o node).relation.table).2
    exact Relation.unfiltered_projection _ (Frame.unfiltered_select inner _ _ _)
termination_by sizeOf node
decreasing_by
  · exact Node.sizeOf_properties_lt properties
  · exact Relation.sizeOf_target_lt o r node

theorem Node.projectAll_unfiltered (o : ObjectQueryOptions) (qualifier : String)
    (properties : List (String × Node)) (a : Aliases) :
    Joined.AllUnfiltered (projectAll o qualifier properties a).1.2 := by
  match properties with
  | [] =>
    rw [projectAll]
    trivial
  | (name, node) :: rest =>
    rw [projectAll]
    exact Joined.allUnfiltered_append (project_unfiltered o qualifier node a)
      (projectAll_unfiltered o qualifier rest _)
termination_by sizeOf properties

end

/-- That a statement is read as what stands in front of its WHERE and the predicate that `key` is one
of some values, under the placeholders `$1`, `$2`, … in this order. -/
structure Sql.Statement.Asks (s : Statement) (front : List Lexeme) (key : ColumnRef)
    (values : List String) : Prop where
  reads : s.Reads (front ++ ([.blank, .word "WHERE", .blank] ++ key.among (placeholders 1 values)))
  places : numbers (key.among (placeholders 1 values)) = List.range' 1 values.length
  bound : s.compile.values = values
  sql : s.compile.sql = textOf front ++ (" WHERE " ++
    Builder.predicate key.text ((List.range' 1 values.length).map fun n => "$" ++ toString n))

/-- What stands in front of the WHERE of a query. -/
def Sql.Select.frontLexemes (outputs : List Output) (source : TableRef) (joins : List Joined) :
    List Lexeme :=
  [.word "SELECT", .blank] ++ (Output.listLexemes outputs ++
    ([.blank, .word "FROM", .blank] ++ (source.lexemes ++ Joined.lexemes 1 joins)))

/-- A query whose joins have no conditions asks for the values of its own. -/
theorem Sql.Select.asks {outputs : List Output} {source : TableRef} {joins : List Joined}
    (h : Joined.AllUnfiltered joins) (key : ColumnRef) (values : List String) :
    (Select.mk outputs source joins (some ⟨key, values⟩) none).statement.Asks
      (frontLexemes outputs source joins) key (distinct values) := by
  have lexemes : (Select.mk outputs source joins (some ⟨key, values⟩) none).lexemes 1 =
      frontLexemes outputs source joins ++
        ([.blank, .word "WHERE", .blank] ++ key.among (placeholders 1 (distinct values))) := by
    rw [Select.lexemes, Joined.lexemes_of_unfiltered joins h, Membership.clauseLexemes,
      ColumnRef.groupLexemes, frontLexemes, List.append_nil]
    simp only [List.append_assoc]
  have spelled := Select.spelled (Select.mk outputs source joins (some ⟨key, values⟩) none)
  have reads := Select.reads (Select.mk outputs source joins (some ⟨key, values⟩) none)
  rw [lexemes] at spelled reads
  refine ⟨reads, ?_, ?_, ?_⟩
  · rw [ColumnRef.numbers_among, numbers_placeholders]
  · rw [Statement.compile, Select.values_statement, Joined.values_of_unfiltered joins h,
      List.append_nil]
    exact List.flatMap_singleton ..
  · have keyword : writeAll (fun n => "$" ++ toString n) [.blank, .word "WHERE", .blank] = " WHERE " :=
      rfl
    rw [Statement.compile, spelled.text, writeAll_append, writeAll_append, keyword,
      ColumnRef.writeAll_among, write_placeholders]
    rfl

/-- An object query depends on the ids only through the distinct ones: these are what it binds, in the
order in which they are first named, and their number is all that its text shows. Every placeholder is
in the condition of the outermost query, which is the only one there is. -/
theorem RootSchema.objectQuery_asks (s : RootSchema) (o : ObjectQueryOptions) :
    ∃ front : List Lexeme, .word "WHERE" ∉ front ∧ numbers front = [] ∧
      ∀ ids, (s.objectQuery ids o).statement.Asks front
        ⟨(Aliases.next {} s.table).1, s.primaryKey⟩ (distinct ids) := by
  have unfiltered := s.node.project_unfiltered o (Aliases.next {} s.table).1
    (Aliases.next {} s.table).2
  refine ⟨_, ?_, ?_, fun ids => Select.asks unfiltered _ ids⟩
  · simp [Select.frontLexemes, Output.where_notMem_list, TableRef.lexemes, asName,
      Joined.where_notMem _ unfiltered]
  · simp only [Select.frontLexemes, numbers_append, Output.numbers_listLexemes,
      TableRef.numbers_lexemes, Joined.numbers_of_unfiltered unfiltered]
    rfl

/-- Put together with tokens, the query for two users binds them in its condition and nothing in the
nested query for the titles. -/
theorem authors_asks :
    (authorsBuilder ["a", "b"]).Made (authors.objectQuery ["a", "b"]).statement ∧
    ∃ front : List Lexeme, .word "WHERE" ∉ front ∧ numbers front = [] ∧
      lex (authorsBuilder ["a", "b"]).compile.sql.toList = some (front ++
        ([.blank, .word "WHERE", .blank] ++
          ColumnRef.among ⟨"user_1", "id"⟩ [.placeholder 1, .placeholder 2])) ∧
      (authorsBuilder ["a", "b"]).compile.values = ["a", "b"] := by
  have made := made_authorsBuilder ["a", "b"]
  obtain ⟨front, clear, none, asked⟩ := authors.objectQuery_asks {}
  have asks := asked ["a", "b"]
  have lexemes := Option.some.inj ((Select.reads _).sql.symm.trans asks.reads.sql)
  have drawn := drawn_authorsBuilder.of_inPlace
  rw [lexemes] at drawn
  have same := asks.reads.compiled _ made drawn
  refine ⟨made, front, clear, none, ?_, ?_⟩
  · rw [same]
    exact asks.reads.sql
  · rw [same]
    exact asks.bound

end EntityFeed
