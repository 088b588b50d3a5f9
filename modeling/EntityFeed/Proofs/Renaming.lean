import EntityFeed.Proofs.ObjectQuery.Target
import EntityFeed.Impact.Basic
import Mathlib.Data.List.Count
import Mathlib.Logic.Embedding.Basic

/-! Other names for the tables, columns and properties of a schema. A change is described in the same
names, and what it hits stays the same. -/
namespace EntityFeed
open Sql

/-- A name that a schema is written with. -/
inductive Name where
  | table (name : String)
  | column (name : String)
  | property (name : String)

/-- Other names, different ones for different names. -/
structure Renaming where
  table : String ↪ String
  column : String ↪ String
  property : String ↪ String

section Rename

variable (ρ : Renaming)

def BelongsTo.rename (r : BelongsTo) : BelongsTo :=
  ⟨ρ.column r.column, ρ.table r.table, ρ.column r.key, r.guarded⟩

def HasMany.rename (r : HasMany) : HasMany := ⟨ρ.column r.column, ρ.table r.table, ρ.column r.key⟩

def Relation.rename : Relation → Relation
  | .belongsTo r => .belongsTo (r.rename ρ)
  | .hasMany r => .hasMany (r.rename ρ)

mutual

def Node.rename : Node → Node
  | .column name => .column (ρ.column name)
  | .object properties => .object (Node.renameAll properties)
  | .relation r node => .relation (r.rename ρ) (Node.rename node)

def Node.renameAll : List (String × Node) → List (String × Node)
  | [] => []
  | (name, node) :: rest => (ρ.property name, Node.rename node) :: Node.renameAll rest

end

def RootSchema.rename (s : RootSchema) : RootSchema :=
  ⟨ρ.table s.table, ρ.column s.primaryKey, s.node.rename ρ⟩

def Row.rename (row : Row) : Row := row.map fun (column, value) => (ρ.column column, value)

def ChangeEvent.rename (e : ChangeEvent) : ChangeEvent :=
  ⟨ρ.table e.table, e.action, e.data.map (Row.rename ρ), e.dataOld.map (Row.rename ρ)⟩

def Step.rename (x : Step) : Step := ⟨x.relation.rename ρ, ρ.table x.table⟩

def Visit.rename (v : Visit) : Visit :=
  ⟨v.relation.rename ρ, ρ.table v.table, v.node.rename ρ, v.path.map (Step.rename ρ)⟩

def Target.rename (t : Target) : Target := ⟨t.relation.rename ρ, t.node.rename ρ⟩

def Sql.Aliases.rename (a : Aliases) : Aliases := ⟨a.issued.map ρ.table⟩

end Rename

section Names

def Relation.names (r : Relation) : List Name := [.column r.column, .table r.table, .column r.key]

mutual

def Node.names : Node → List Name
  | .column name => [.column name]
  | .object properties => Node.namesOfAll properties
  | .relation r node => r.names ++ node.names

def Node.namesOfAll : List (String × Node) → List Name
  | [] => []
  | (name, node) :: rest => .property name :: node.names ++ Node.namesOfAll rest

end

def RootSchema.names (s : RootSchema) : List Name :=
  .table s.table :: .column s.primaryKey :: s.node.names

def Step.names (x : Step) : List Name := .table x.table :: x.relation.names

def Visit.names (v : Visit) : List Name :=
  .table v.table :: v.relation.names ++ v.path.flatMap Step.names

theorem Relation.names_target_subset (o : ObjectQueryOptions) (r : Relation) (node : Node) :
    (r.target o node).relation.names ++ (r.target o node).node.names ⊆
      (Node.relation r node).names := by
  rw [Node.names]
  rcases r.target_cases o node with ht | ⟨b, back, behind, rfl, -, hr, ht⟩
  · rw [ht]
    exact List.Subset.refl _
  · obtain ⟨rfl, -⟩ := BelongsTo.eq_of_reverse? hr
    rw [ht, Node.names]
    intro name h
    simp only [Relation.names, BelongsTo.across, Relation.column, Relation.table, Relation.key,
      List.mem_append, List.mem_cons] at h ⊢
    tauto

mutual

/-- The visits of a node have names of the node and of what leads to it. -/
theorem Node.names_visits {names : List Name} {table : String} {path : List Step} (node : Node)
    (inside : node.names ⊆ names) (near : .table table ∈ names)
    (before : path.flatMap Step.names ⊆ names) :
    ∀ v ∈ node.visits table path, v.names ⊆ names := by
  match node with
  | .column name => simp [visits]
  | .object properties =>
    rw [visits]
    exact names_visitsOfAll properties inside near before
  | .relation r node =>
    rw [Node.names, List.append_subset] at inside
    obtain ⟨own, behind⟩ := inside
    have far : .table r.table ∈ names := own (by simp [Relation.names])
    have step : (⟨r, table⟩ : Step).names ⊆ names := List.cons_subset.mpr ⟨near, own⟩
    rw [visits_relation]
    refine List.forall_mem_cons.mpr ⟨?_, names_visits node behind far ?_⟩
    · exact List.cons_subset.mpr ⟨near, List.append_subset.mpr ⟨own, before⟩⟩
    · exact List.append_subset.mpr ⟨step, before⟩

theorem Node.names_visitsOfAll {names : List Name} {table : String} {path : List Step}
    (properties : List (String × Node)) (inside : namesOfAll properties ⊆ names)
    (near : .table table ∈ names) (before : path.flatMap Step.names ⊆ names) :
    ∀ v ∈ visitsOfAll table path properties, v.names ⊆ names := by
  match properties with
  | [] => simp [visitsOfAll]
  | (name, node) :: rest =>
    rw [namesOfAll, List.append_subset] at inside
    intro v hv
    rcases List.mem_append.mp hv with hv | hv
    · exact names_visits node (List.cons_subset.mp inside.1).2 near before v hv
    · exact names_visitsOfAll rest inside.2 near before v hv

end

theorem RootSchema.names_visits (s : RootSchema) : ∀ v ∈ s.visits, v.names ⊆ s.names :=
  s.node.names_visits (fun _ h => .tail _ (.tail _ h)) (.head _) (List.nil_subset _)

end Names

section Equivariance

variable (ρ : Renaming)

theorem Renaming.column_beq (c d : String) : (ρ.column c == ρ.column d) = (c == d) := by simp

namespace Relation

@[simp] theorem column_rename (r : Relation) : (r.rename ρ).column = ρ.column r.column := by
  cases r <;> rfl

@[simp] theorem table_rename (r : Relation) : (r.rename ρ).table = ρ.table r.table := by
  cases r <;> rfl

@[simp] theorem key_rename (r : Relation) : (r.rename ρ).key = ρ.column r.key := by
  cases r <;> rfl

end Relation

mutual

theorem Node.localColumns_rename (node : Node) :
    (node.rename ρ).localColumns = node.localColumns.map ρ.column := by
  match node with
  | .column name => rfl
  | .object properties =>
    rw [rename, localColumns, localColumns]
    exact localColumns_renameAll properties
  | .relation r node => simp [rename, localColumns]

theorem Node.localColumns_renameAll (properties : List (String × Node)) :
    localColumnsOfAll (renameAll ρ properties) = (localColumnsOfAll properties).map ρ.column := by
  match properties with
  | [] => rfl
  | (name, node) :: rest =>
    rw [renameAll, localColumnsOfAll, localColumnsOfAll, List.map_append, localColumns_rename node,
      localColumns_renameAll rest]

end

mutual

theorem Node.visits_rename (table : String) (path : List Step) (node : Node) :
    (node.rename ρ).visits (ρ.table table) (path.map (Step.rename ρ)) =
      (node.visits table path).map (Visit.rename ρ) := by
  match node with
  | .column name => rfl
  | .object properties =>
    rw [rename, visits, visits]
    exact visits_renameAll table path properties
  | .relation r node =>
    have behind := visits_rename r.table (⟨r, table⟩ :: path) node
    rw [rename, visits_relation, visits_relation, List.map_cons, ← behind, r.table_rename]
    rfl

theorem Node.visits_renameAll (table : String) (path : List Step)
    (properties : List (String × Node)) :
    visitsOfAll (ρ.table table) (path.map (Step.rename ρ)) (renameAll ρ properties) =
      (visitsOfAll table path properties).map (Visit.rename ρ) := by
  match properties with
  | [] => rfl
  | (name, node) :: rest =>
    rw [renameAll, visitsOfAll, visitsOfAll, List.map_append, visits_rename table path node,
      visits_renameAll table path rest]

end

theorem Row.get?_rename (row : Row) (column : String) :
    Members.get? (Row.rename ρ row) (ρ.column column) = row.get? column := by
  unfold Members.get? rename
  induction row with
  | nil => rfl
  | cons head rest ih =>
    obtain ⟨c, value⟩ := head
    simp only [List.map_cons, List.lookup_cons, ρ.column_beq, ih]

namespace ChangeEvent

theorem idValues_rename (e : ChangeEvent) (column : String) :
    (e.rename ρ).idValues (ρ.column column) = e.idValues column := by
  have images : (e.rename ρ).data.toList ++ (e.rename ρ).dataOld.toList =
      (e.data.toList ++ e.dataOld.toList).map (Row.rename ρ) := by
    cases hd : e.data <;> cases ho : e.dataOld <;> simp [rename, hd, ho]
  rw [idValues, images, idValues, Row.idColumn, Row.idColumn, List.filterMap_map]
  congr 1
  funext row
  simp [Row.get?_rename]

theorem unchanged_rename (old : Option Row) (column : String) (value : Json) :
    unchanged (old.map (Row.rename ρ)) (ρ.column column) value = unchanged old column value := by
  cases old with
  | none => rfl
  | some row => simp [unchanged, Row.get?_rename]

theorem changedColumns_rename (e : ChangeEvent) :
    (e.rename ρ).changedColumns = e.changedColumns.map ρ.column := by
  obtain ⟨table, action, data, dataOld⟩ := e
  cases action <;> cases data <;>
    simp [rename, changedColumns, Row.rename, List.filter_map, Function.comp_def, unchanged_rename]

theorem touches_rename (e : ChangeEvent) (columns : List String) :
    (e.rename ρ).touches (columns.map ρ.column) = e.touches columns := by
  simp [touches, changedColumns_rename, List.any_map, Function.comp_def]

end ChangeEvent

namespace Visit

theorem watched_rename (v : Visit) : (v.rename ρ).watched = v.watched.map ρ.column := by
  obtain ⟨r, table, node, path⟩ := v
  cases r with
  | belongsTo r =>
    cases hg : r.guarded <;>
      simp [watched, rename, Relation.rename, BelongsTo.rename, Node.localColumns_rename, hg]
  | hasMany r => simp [watched, rename, Relation.rename, HasMany.rename, Node.localColumns_rename]

theorem hit_rename (e : ChangeEvent) (v : Visit) : (v.rename ρ).hit (e.rename ρ) = v.hit e := by
  have rows : (v.rename ρ).watchesRows = v.watchesRows := by
    obtain ⟨r, table, node, path⟩ := v
    cases r <;> rfl
  have table : (e.rename ρ).table = (v.rename ρ).relation.table ↔ e.table = v.relation.table := by
    rw [rename, Relation.table_rename]
    exact ρ.table.injective.eq_iff
  unfold hit
  rw [rows, watched_rename, ChangeEvent.touches_rename]
  congr 1
  exact Bool.eq_iff_iff.mpr (by simpa using table)

theorem direct_rename (s : RootSchema) (v : Visit) :
    (v.rename ρ).direct (s.rename ρ) = v.direct s := by
  simp only [direct, rename, RootSchema.rename, Relation.column_rename, ρ.column_beq,
    List.isEmpty_map]

end Visit

theorem RootSchema.hits_rename (s : RootSchema) (e : ChangeEvent) :
    (s.rename ρ).hits (e.rename ρ) = (s.hits e).map (Visit.rename ρ) := by
  have visits : (s.rename ρ).visits = s.visits.map (Visit.rename ρ) :=
    s.node.visits_rename ρ s.table []
  simp [hits, visits, List.filter_map, Function.comp_def, Visit.hit_rename]

theorem BelongsTo.reverse?_rename (r : BelongsTo) (node : Node) :
    (r.rename ρ).reverse? (node.rename ρ) =
      (r.reverse? node).map fun (back, behind) => (back.rename ρ, behind.rename ρ) := by
  match node with
  | .column name => rfl
  | .object properties => rfl
  | .relation (.belongsTo b) behind => rfl
  | .relation (.hasMany back) behind =>
    have same : (back.rename ρ).column = (r.rename ρ).key ↔ back.column = r.key :=
      ρ.column.injective.eq_iff
    rw [Node.rename, Relation.rename, reverse?, reverse?]
    by_cases h : back.column = r.key
    · rw [if_pos h, if_pos (same.mpr h)]
      rfl
    · rw [if_neg h, if_neg (mt same.mp h)]
      rfl

theorem Relation.target_rename (o : ObjectQueryOptions) (r : Relation) (node : Node) :
    (r.rename ρ).target o (node.rename ρ) = (r.target o node).rename ρ := by
  cases r with
  | hasMany r => rfl
  | belongsTo r =>
    rw [rename, target, target, BelongsTo.reverse?_rename]
    cases o.skipMiddleTables with
    | false => rfl
    | true => cases r.reverse? node <;> rfl

theorem belongsToOn_rename (column : String) (path : List Step) :
    belongsToOn (ρ.column column) (path.map (Step.rename ρ)) = belongsToOn column path := by
  match path with
  | [] => rfl
  | ⟨.belongsTo r, table⟩ :: rest =>
    simp [belongsToOn, Step.rename, Relation.rename, BelongsTo.rename]
  | ⟨.hasMany r, table⟩ :: rest => rfl

/-- A table is issued its aliases with the same numbers. -/
theorem Sql.Aliases.next_rename (a : Aliases) (table : String) :
    (a.rename ρ).next (ρ.table table) =
      (aliasOf (ρ.table table) (a.issued.count table + 1), (a.next table).2.rename ρ) := by
  rw [next, rename, List.count_map_of_injective _ _ ρ.table.injective]
  rfl

end Equivariance

end EntityFeed
