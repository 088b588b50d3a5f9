import EntityFeed.Proofs.Renaming
import EntityFeed.Proofs.Sql.Spelling

/-! What becomes of the lexemes of a query when the names of its schema change. Each name has a lexeme
of its own, and nothing else changes. -/
namespace EntityFeed
open Sql Sql.Lexeme

/-- The lexemes that no name or value is in. -/
def vocabulary : List Lexeme :=
  keywords.map .word ++ ['(', ')', ',', '.', '='].map .mark ++
  [.blank, .cast, .ident "id", .ident objectColumn, .literal "[]"]

/-- What becomes of a lexeme when the names of a schema change: each name has a lexeme of its own, and
all others stay. -/
inductive Respelled (ρ : Renaming) (names : List Name) : Lexeme → Lexeme → Prop
  | fixed {x : Lexeme} (h : x ∈ vocabulary) : Respelled ρ names x x
  | placeholder (n : Nat) : Respelled ρ names (.placeholder n) (.placeholder n)
  | table {t : String} (h : .table t ∈ names) : Respelled ρ names (.ident t) (.ident (ρ.table t))
  | alias {t : String} (h : .table t ∈ names) (n : Nat) :
    Respelled ρ names (.ident (aliasOf t n)) (.ident (aliasOf (ρ.table t) n))
  | column {c : String} (h : .column c ∈ names) : Respelled ρ names (.ident c) (.ident (ρ.column c))
  | property {p : String} (h : .property p ∈ names) :
    Respelled ρ names (.literal p) (.literal (ρ.property p))

/-- Lexemes of which the second are the first with other names. -/
abbrev RespelledAll (ρ : Renaming) (names : List Name) : List Lexeme → List Lexeme → Prop :=
  List.Forall₂ (Respelled ρ names)

/-- That two identifiers are the same name, spelled differently. -/
abbrev RespelledIdent (ρ : Renaming) (names : List Name) (name name' : String) : Prop :=
  Respelled ρ names (.ident name) (.ident name')

section Parts

variable {ρ : Renaming} {names : List Name}

theorem respelledAll_fixed {xs : List Lexeme} (h : ∀ x ∈ xs, x ∈ vocabulary) :
    RespelledAll ρ names xs xs :=
  List.forall₂_same.mpr fun x hx => .fixed (h x hx)

theorem respelledAll_placeholders (start : Nat) (values : List String) :
    RespelledAll ρ names (placeholders start values) (placeholders start values) := by
  refine List.forall₂_same.mpr fun x hx => ?_
  obtain ⟨n, -, rfl⟩ := List.mem_map.mp hx
  exact .placeholder n

theorem respelledAll_intercalate {sep : List Lexeme} (fixed : ∀ x ∈ sep, x ∈ vocabulary)
    {items items' : List (List Lexeme)} (h : List.Forall₂ (RespelledAll ρ names) items items') :
    RespelledAll ρ names (sep.intercalate items) (sep.intercalate items') := by
  induction h with
  | nil => exact .nil
  | cons here later ih =>
    cases later with
    | nil => simpa using here
    | cons =>
      rw [List.intercalate_cons_cons, List.intercalate_cons_cons]
      exact List.rel_append (List.rel_append here (respelledAll_fixed fixed)) ih

theorem respelledAll_between {opening closing xs xs' : List Lexeme}
    (first : ∀ x ∈ opening, x ∈ vocabulary) (h : RespelledAll ρ names xs xs')
    (last : ∀ x ∈ closing, x ∈ vocabulary) :
    RespelledAll ρ names (opening ++ (xs ++ closing)) (opening ++ (xs' ++ closing)) :=
  List.rel_append (respelledAll_fixed first) (List.rel_append h (respelledAll_fixed last))

/-- A column of the same table, where both are named anew. -/
structure ColumnsRespelled (ρ : Renaming) (names : List Name) (r r' : ColumnRef) : Prop where
  qualifier : RespelledIdent ρ names r.qualifier r'.qualifier
  column : RespelledIdent ρ names r.column r'.column

theorem ColumnsRespelled.lexemes {r r' : ColumnRef} (h : ColumnsRespelled ρ names r r') :
    RespelledAll ρ names r.lexemes r'.lexemes :=
  .cons h.qualifier (.cons (.fixed (by decide)) (.cons h.column .nil))

structure TablesRespelled (ρ : Renaming) (names : List Name) (t t' : TableRef) : Prop where
  table : RespelledIdent ρ names t.table t'.table
  qualifier : RespelledIdent ρ names t.qualifier t'.qualifier

theorem TablesRespelled.lexemes {t t' : TableRef} (h : TablesRespelled ρ names t t') :
    RespelledAll ρ names t.lexemes t'.lexemes := by
  have as : RespelledAll ρ names asName asName := respelledAll_fixed (by decide)
  exact .cons h.table (List.rel_append as (.cons h.qualifier .nil))

theorem respelledAll_output {x x' : Selection} {name name' : String}
    (selection : RespelledAll ρ names x.lexemes x'.lexemes) (h : RespelledIdent ρ names name name') :
    RespelledAll ρ names (Output.mk x name).lexemes (Output.mk x' name').lexemes :=
  List.rel_append selection (List.rel_append (respelledAll_fixed (by decide)) (.cons h .nil))

theorem ColumnsRespelled.among {r r' : ColumnRef} (h : ColumnsRespelled ρ names r r')
    {labels : List Lexeme} (same : RespelledAll ρ names labels labels) :
    RespelledAll ρ names (r.among labels) (r'.among labels) := by
  match labels with
  | [] => exact .cons (.fixed (by decide)) .nil
  | [x] => exact List.rel_append h.lexemes (List.rel_append (respelledAll_fixed (by decide)) same)
  | x :: y :: rest =>
    have items : List.Forall₂ (RespelledAll ρ names) ((x :: y :: rest).map ([·]))
        ((x :: y :: rest).map ([·])) := by
      rw [List.forall₂_map_left_iff, List.forall₂_map_right_iff]
      exact same.imp fun z w hz => .cons hz .nil
    exact List.rel_append h.lexemes (respelledAll_between (by decide)
      (respelledAll_intercalate (by decide) items) (by decide))

theorem respelledAll_join (kind : JoinKind) {table table' : List Lexeme}
    (h : RespelledAll ρ names table table') {left left' right right' : ColumnRef}
    (hl : ColumnsRespelled ρ names left left') (hr : ColumnsRespelled ρ names right right') :
    RespelledAll ρ names (kind.joinLexemes table left right)
      (kind.joinLexemes table' left' right') := by
  have keyword : ∀ x ∈ kind.lexemes, x ∈ vocabulary := by cases kind <;> decide
  refine List.rel_append (respelledAll_fixed keyword) (List.rel_append h ?_)
  exact List.rel_append (respelledAll_fixed (by decide)) (List.rel_append hl.lexemes
    (List.rel_append (respelledAll_fixed (by decide)) hr.lexemes))

/-- Conditions on the same values. -/
inductive ConditionsRespelled (ρ : Renaming) (names : List Name) :
    Option Membership → Option Membership → Prop
  | none : ConditionsRespelled ρ names none none
  | some {r r' : ColumnRef} (h : ColumnsRespelled ρ names r r') (values : List String) :
    ConditionsRespelled ρ names (some ⟨r, values⟩) (some ⟨r', values⟩)

inductive GroupingsRespelled (ρ : Renaming) (names : List Name) :
    Option ColumnRef → Option ColumnRef → Prop
  | none : GroupingsRespelled ρ names none none
  | some {r r' : ColumnRef} (h : ColumnsRespelled ρ names r r') :
    GroupingsRespelled ρ names (some r) (some r')

/-- Joins that bind the same values. -/
structure JoinsRespelled (ρ : Renaming) (names : List Name) (joins joins' : List Joined) : Prop where
  lexemes : ∀ start, RespelledAll ρ names (Joined.lexemes start joins) (Joined.lexemes start joins')
  values : Statement.valuesOfAll (Joined.statements joins') =
    Statement.valuesOfAll (Joined.statements joins)

/-- Queries that bind the same values. -/
structure SelectsRespelled (ρ : Renaming) (names : List Name) (q q' : Select) : Prop where
  lexemes : ∀ start, RespelledAll ρ names (q.lexemes start) (q'.lexemes start)
  values : q'.statement.values = q.statement.values

theorem SelectsRespelled.of_parts {outputs outputs' : List Output} {source source' : TableRef}
    {joins joins' : List Joined} {condition condition' : Option Membership}
    {grouping grouping' : Option ColumnRef} (nonempty : outputs.isEmpty = false)
    (ho : List.Forall₂ (fun o o' => RespelledAll ρ names o.lexemes o'.lexemes) outputs outputs')
    (hs : TablesRespelled ρ names source source') (hj : JoinsRespelled ρ names joins joins')
    (hc : ConditionsRespelled ρ names condition condition')
    (hg : GroupingsRespelled ρ names grouping grouping') :
    SelectsRespelled ρ names ⟨outputs, source, joins, condition, grouping⟩
      ⟨outputs', source', joins', condition', grouping'⟩ := by
  have bound : Membership.bound condition' = Membership.bound condition := by cases hc <;> rfl
  refine ⟨fun start => ?_, ?_⟩
  · have selected : RespelledAll ρ names (Output.listLexemes outputs)
        (Output.listLexemes outputs') := by
      have items := List.forall₂_map_right_iff.mpr (List.forall₂_map_left_iff.mpr ho)
      cases ho with
      | nil => contradiction
      | cons => exact respelledAll_intercalate (by decide) items
    have restricted : RespelledAll ρ names (Membership.clauseLexemes start condition)
        (Membership.clauseLexemes start condition') := by
      cases hc with
      | none => exact .nil
      | some h values =>
        exact List.rel_append (respelledAll_fixed (by decide))
          (h.among (respelledAll_placeholders _ _))
    have grouped : RespelledAll ρ names (ColumnRef.groupLexemes grouping)
        (ColumnRef.groupLexemes grouping') := by
      cases hg with
      | none => exact .nil
      | some h => exact List.rel_append (respelledAll_fixed (by decide)) h.lexemes
    rw [Select.lexemes, Select.lexemes, bound]
    refine List.rel_append (respelledAll_fixed (by decide)) (List.rel_append selected ?_)
    exact List.rel_append (respelledAll_fixed (by decide)) (List.rel_append hs.lexemes
      (List.rel_append (hj.lexemes _) (List.rel_append restricted grouped)))
  · rw [Select.values_statement, Select.values_statement, bound, hj.values]

namespace JoinsRespelled

theorem nil : JoinsRespelled ρ names [] [] := ⟨fun _ => .nil, rfl⟩

theorem table (kind : JoinKind) {t t' : TableRef} {left left' right right' : ColumnRef}
    {rest rest' : List Joined} (ht : TablesRespelled ρ names t t')
    (hl : ColumnsRespelled ρ names left left') (hr : ColumnsRespelled ρ names right right')
    (later : JoinsRespelled ρ names rest rest') :
    JoinsRespelled ρ names (.table kind t left right :: rest)
      (.table kind t' left' right' :: rest') :=
  ⟨fun start => List.rel_append (respelledAll_join kind ht.lexemes hl hr) (later.lexemes start),
    later.values⟩

theorem nested (kind : JoinKind) {q q' : Select} {outer outer' : String}
    {left left' right right' : ColumnRef} (hq : SelectsRespelled ρ names q q')
    (ho : RespelledIdent ρ names outer outer') (hl : ColumnsRespelled ρ names left left')
    (hr : ColumnsRespelled ρ names right right') :
    JoinsRespelled ρ names [.nested kind q outer left right]
      [.nested kind q' outer' left' right'] := by
  refine ⟨fun start => ?_, ?_⟩
  · have named : RespelledAll ρ names ([.mark ')'] ++ (asName ++ [.ident outer]))
        ([.mark ')'] ++ (asName ++ [.ident outer'])) :=
      List.rel_append (respelledAll_fixed (by decide))
        (List.rel_append (respelledAll_fixed (by decide)) (.cons ho .nil))
    have table : RespelledAll ρ names
        ([.mark '('] ++ (q.lexemes start ++ ([.mark ')'] ++ (asName ++ [.ident outer]))))
        ([.mark '('] ++ (q'.lexemes start ++ ([.mark ')'] ++ (asName ++ [.ident outer'])))) :=
      List.rel_append (respelledAll_fixed (by decide)) (List.rel_append (hq.lexemes start) named)
    exact List.rel_append (respelledAll_join kind table hl hr) .nil
  · simp only [Joined.statements, Statement.valuesOfAll, hq.values]

theorem append {js js' ks ks' : List Joined} (h : JoinsRespelled ρ names js js')
    (later : JoinsRespelled ρ names ks ks') : JoinsRespelled ρ names (js ++ ks) (js' ++ ks') := by
  refine ⟨fun start => ?_, ?_⟩
  · rw [Joined.lexemes_append, Joined.lexemes_append, h.values]
    exact List.rel_append (h.lexemes start) (later.lexemes _)
  · rw [Joined.valuesOfAll_append, Joined.valuesOfAll_append, h.values, later.values]

end JoinsRespelled

end Parts
end EntityFeed
