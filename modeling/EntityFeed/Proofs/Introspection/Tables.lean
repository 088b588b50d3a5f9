import EntityFeed.Proofs.ObjectQuery.Entities
import EntityFeed.Proofs.ObjectQuery.Provenance
import EntityFeed.Schema.Introspection

/-! The tables and columns that a schema reads. They are listed without repetition, and they are those
that the object query takes from tables when every relation is joined. -/
namespace EntityFeed
open Sql

namespace TableColumns

def Lists (found : TableColumns) (table column : String) : Prop :=
  ∃ columns, (table, columns) ∈ found ∧ column ∈ columns

/-- That nothing is listed twice, and a certain column of a certain table comes first. -/
structure Orderly (table key : String) (found : TableColumns) : Prop where
  tables : (found.map (·.1)).Nodup
  columns : ∀ entry ∈ found, entry.2.Nodup
  first : ∃ columns others, found = (table, key :: columns) :: others

theorem lists_cons (table : String) (columns : List String) (rest : TableColumns) (t c : String) :
    Lists ((table, columns) :: rest) t c ↔ (t = table ∧ c ∈ columns) ∨ rest.Lists t c := by
  simp [Lists, or_and_right, exists_or, and_assoc]

theorem mem_noted (column : String) (columns : List String) (c : String) :
    c ∈ (if column ∈ columns then columns else columns ++ [column]) ↔ c ∈ columns ∨ c = column := by
  by_cases h : column ∈ columns
  · rw [if_pos h]
    exact ⟨.inl, fun hc => hc.elim id (· ▸ h)⟩
  · rw [if_neg h, List.mem_append, List.mem_singleton]

theorem nodup_noted {column : String} {columns : List String} (h : columns.Nodup) :
    (if column ∈ columns then columns else columns ++ [column]).Nodup := by
  split
  · exact h
  · rename_i hn
    exact List.nodup_append_comm.mp (List.nodup_cons.mpr ⟨hn, h⟩)

/-- Noting a column lists it and keeps what is listed. -/
theorem lists_note (table column : String) (found : TableColumns) (t c : String) :
    (found.note table column).Lists t c ↔ found.Lists t c ∨ (t = table ∧ c = column) := by
  induction found with
  | nil => simp [note, Lists]
  | cons entry rest ih =>
    obtain ⟨t', columns⟩ := entry
    by_cases h : t' = table
    · rw [note, if_pos h, lists_cons, lists_cons, mem_noted, h]
      tauto
    · rw [note, if_neg h, lists_cons, lists_cons, ih, or_assoc]

/-- Noting a column adds no table but its own, and that at the end. -/
theorem map_fst_note (table column : String) (found : TableColumns) :
    (found.note table column).map (·.1) =
      if table ∈ found.map (·.1) then found.map (·.1) else found.map (·.1) ++ [table] := by
  induction found with
  | nil => simp [note]
  | cons entry rest ih =>
    obtain ⟨t, columns⟩ := entry
    by_cases h : t = table
    · simp [note, h]
    · by_cases hm : table ∈ rest.map (·.1) <;> simp_all [note, Ne.symm h]

theorem nodup_note {table column : String} {found : TableColumns}
    (h : ∀ entry ∈ found, entry.2.Nodup) : ∀ entry ∈ found.note table column, entry.2.Nodup := by
  induction found with
  | nil => simp [note]
  | cons entry rest ih =>
    obtain ⟨t, columns⟩ := entry
    obtain ⟨own, others⟩ := List.forall_mem_cons.mp h
    rw [note]
    split
    · exact List.forall_mem_cons.mpr ⟨nodup_noted own, others⟩
    · exact List.forall_mem_cons.mpr ⟨own, ih others⟩

theorem Orderly.note {table key : String} {found : TableColumns} (h : found.Orderly table key)
    (t c : String) : (found.note t c).Orderly table key := by
  obtain ⟨tables, columns, own, others, rfl⟩ := h
  refine ⟨?_, nodup_note columns, ?_⟩
  · rw [map_fst_note]
    exact nodup_noted tables
  · rw [TableColumns.note]
    split
    · split
      · exact ⟨own, others, rfl⟩
      · exact ⟨own ++ [c], others, rfl⟩
    · exact ⟨own, TableColumns.note t c others, rfl⟩

/-- Noting columns one after the other. -/
def noteAll (found : TableColumns) (uses : List (String × String)) : TableColumns :=
  uses.foldl (fun found (table, column) => found.note table column) found

theorem Orderly.noteAll {table key : String} {found : TableColumns} (h : found.Orderly table key)
    (uses : List (String × String)) : (found.noteAll uses).Orderly table key := by
  induction uses generalizing found with
  | nil => exact h
  | cons use rest ih => exact ih (h.note use.1 use.2)

theorem lists_noteAll (found : TableColumns) (uses : List (String × String)) (t c : String) :
    (found.noteAll uses).Lists t c ↔ found.Lists t c ∨ (t, c) ∈ uses := by
  induction uses generalizing found with
  | nil => simp [noteAll]
  | cons use rest ih =>
    rw [noteAll, List.foldl_cons]
    refine (ih (found.note use.1 use.2)).trans ?_
    rw [lists_note, or_assoc, List.mem_cons, Prod.ext_iff]

end TableColumns

/-- What joining a relation takes from tables. -/
theorem Relation.mem_joinUses_table (table : String) (r : Relation) (t c : String) :
    ⟨some (.table t), c⟩ ∈ r.joinUses table ↔
      (t, c) ∈ [(table, r.column), (r.table, r.key)] := by
  simp [joinUses]

mutual

theorem Node.mem_uses_of_query (o : ObjectQueryOptions) (table : String) (node : Node) {t c : String}
    (h : ⟨some (.table t), c⟩ ∈ node.queryUses o table) : (t, c) ∈ node.uses table := by
  match node with
  | .column name =>
    rw [queryUses] at h
    simpa [uses] using h
  | .object properties =>
    rw [queryUses] at h
    rw [uses]
    exact mem_usesOfAll_of_query o table properties h
  | .relation r node =>
    rw [queryUses, List.mem_append, Relation.mem_joinUses_table] at h
    have behind := h.imp_right (mem_uses_of_query o _ (r.target o node).node)
    rw [uses, List.mem_append]
    rcases r.target_cases o node with ht | ⟨b, back, inner, rfl, -, hb, ht⟩
    · rw [ht] at behind
      exact behind.symm
    · obtain ⟨rfl, -⟩ := BelongsTo.eq_of_reverse? hb
      -- The column comes from the belongs-to and the key from the has-many.
      rw [ht] at behind
      simp only [BelongsTo.across, Relation.column, Relation.table, Relation.key, List.mem_cons,
        List.not_mem_nil, or_false] at behind ⊢
      rw [uses, List.mem_append]
      simp only [Relation.column, Relation.table, Relation.key, List.mem_cons, List.not_mem_nil,
        or_false]
      tauto
termination_by sizeOf node
decreasing_by
  · exact Node.sizeOf_properties_lt properties
  · exact Relation.sizeOf_target_lt o r node

theorem Node.mem_usesOfAll_of_query (o : ObjectQueryOptions) (table : String)
    (properties : List (String × Node)) {t c : String}
    (h : ⟨some (.table t), c⟩ ∈ queryUsesOfAll o table properties) :
    (t, c) ∈ usesOfAll table properties := by
  match properties with
  | [] =>
    rw [queryUsesOfAll] at h
    contradiction
  | (name, node) :: rest =>
    rw [queryUsesOfAll, List.mem_append] at h
    rw [usesOfAll, List.mem_append]
    exact h.imp (mem_uses_of_query o table node) (mem_usesOfAll_of_query o table rest)
termination_by sizeOf properties

end

mutual

/-- With every relation joined, nothing that a schema reads is left out. -/
theorem Node.mem_query_of_uses (table : String) (node : Node) {t c : String}
    (h : (t, c) ∈ node.uses table) : ⟨some (.table t), c⟩ ∈ node.queryUses ⟨false⟩ table := by
  match node with
  | .column name =>
    rw [queryUses]
    simpa [uses] using h
  | .object properties =>
    rw [uses] at h
    rw [queryUses]
    exact mem_query_of_usesOfAll table properties h
  | .relation r node =>
    have joined : r.target ⟨false⟩ node = ⟨r, node⟩ := by
      cases r with
      | belongsTo b => exact Relation.target_eq_self ⟨false⟩ (.inl rfl)
      | hasMany m => rfl
    rw [uses, List.mem_append] at h
    rw [queryUses, joined, List.mem_append, Relation.mem_joinUses_table]
    exact (h.imp_left (mem_query_of_uses r.table node)).symm

theorem Node.mem_query_of_usesOfAll (table : String) (properties : List (String × Node))
    {t c : String} (h : (t, c) ∈ usesOfAll table properties) :
    ⟨some (.table t), c⟩ ∈ queryUsesOfAll ⟨false⟩ table properties := by
  match properties with
  | [] =>
    rw [usesOfAll] at h
    contradiction
  | (name, node) :: rest =>
    rw [usesOfAll, List.mem_append] at h
    rw [queryUsesOfAll, List.mem_append]
    exact h.imp (mem_query_of_uses table node) (mem_query_of_usesOfAll table rest)

end

namespace RootSchema

variable (s : RootSchema)

theorem tables_eq_noteAll :
    s.tables = TableColumns.noteAll [(s.table, [s.primaryKey])] (s.node.uses s.table) := rfl

theorem lists_tables (t c : String) :
    s.tables.Lists t c ↔ (t, c) = (s.table, s.primaryKey) ∨ (t, c) ∈ s.node.uses s.table := by
  rw [tables_eq_noteAll, TableColumns.lists_noteAll, TableColumns.lists_cons]
  simp [TableColumns.Lists]

/-- The tables are listed with their columns, beginning with the root and its key and without
repetition. Listed is all that the query takes from tables if it joins every relation, and no query
for the entities takes anything else. -/
theorem tables_are_query_sources (ids : List String) :
    s.tables.Orderly s.table s.primaryKey ∧
      (∀ t c, s.tables.Lists t c ↔ ⟨some (.table t), c⟩ ∈ (s.objectQuery ids ⟨false⟩).uses) ∧
      ∀ o t c, ⟨some (.table t), c⟩ ∈ (s.objectQuery ids o).uses → s.tables.Lists t c := by
  have start : TableColumns.Orderly s.table s.primaryKey [(s.table, [s.primaryKey])] :=
    ⟨by simp, by simp, [], [], rfl⟩
  have within : ∀ o t c, ⟨some (.table t), c⟩ ∈ (s.objectQuery ids o).uses → s.tables.Lists t c := by
    intro o t c h
    rw [mem_uses_objectQuery] at h
    rw [lists_tables]
    exact h.imp (fun h => by simpa using h) (s.node.mem_uses_of_query o s.table)
  refine ⟨start.noteAll _, ?_, within⟩
  intro t c
  refine ⟨?_, within ⟨false⟩ t c⟩
  intro h
  rw [lists_tables] at h
  rw [mem_uses_objectQuery]
  exact h.imp (fun h => by simpa using h) (s.node.mem_query_of_uses s.table)

/-- The query that leaves out the teams on the way to mates still reads the column that leads there. -/
theorem crew_tables_are_sources :
    ⟨some (.table "people"), "team_id"⟩ ∈ (crew.objectQuery ["2"]).uses ∧
      crew.tables.Lists "people" "team_id" :=
  ⟨by decide +kernel, (crew.tables_are_query_sources ["2"]).2.2 {} _ _ (by decide +kernel)⟩

end RootSchema
end EntityFeed
