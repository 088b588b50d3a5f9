import EntityFeed.Proofs.Entity
import EntityFeed.Proofs.ObjectQuery.Scope
import EntityFeed.Proofs.Sql.Grouping

/-! What a nested query gives. It shows each row of its table once, so that joining it leaves every
row around it once, with the object for the row it leads to or the array for the rows it leads to. -/
namespace EntityFeed
open Sql

section Extension

variable {c : Comparison} {ω : Arrangement} {db : Database}

/-- A row joined with a nested query of which one row at most matches. -/
theorem Sql.Joined.extend_nested {q : Select} {outer key : String} {near : ColumnRef} {s : Scope}
    {row : Row} (hs : s.lookup near.qualifier = some row) (ho : outer ∉ s.map (·.1))
    {found : Option Row}
    (hm : (q.rows c ω db).filter (fun far => c.equal (row.value near.column) (far.value key)) =
      found.toList) :
    (Joined.nested .left q outer near ⟨outer, key⟩).extend c ω db s =
      [s ++ [(outer, found.getD [])]] := by
  have hf : ((q.rows c ω db).map fun far => s ++ [(outer, far)]).filter
      (fun t => c.equal (t.value near) (t.value ⟨outer, key⟩)) =
      found.toList.map fun far => s ++ [(outer, far)] := by
    rw [List.filter_map, ← hm]
    congr 1
    refine List.filter_congr ?_
    intro far _
    rw [Function.comp, Scope.value_of_lookup hs, Scope.value_of_notMem ho]
  simp only [extend, Joined.kind, Joined.qualifier, Joined.left, Joined.right, far,
    JoinKind.extend, hf]
  cases found <;> rfl

/-- The rows that a query reads and joins, before any are left out. -/
def Projection.scopes (c : Comparison) (ω : Arrangement) (db : Database) (p : Projection)
    (source : TableRef) : List Scope :=
  Joined.extendAll c ω db p.joins ((db source.table).map fun row => [(source.qualifier, row)])

/-- That a projection joins a row in one way only and then gives a value of some kind, whatever is
joined later. -/
def Projection.Gives (c : Comparison) (ω : Arrangement) (db : Database) (p : Projection) (s : Scope)
    (a : Aliases) (good : Json → Prop) : Prop :=
  ∃ extra : Scope, Joined.extendAll c ω db p.joins [s] = [s ++ extra] ∧
    (∀ q ∈ extra.map (·.1), q ∈ a.names) ∧ ∀ later, good (p.object.value (s ++ extra ++ later))

/-- That joined rows have a row's value in a column and show what a node gives for the row. -/
def Projection.Shows (c : Comparison) (db : Database) (p : Projection) (identifier : ColumnRef)
    (node : Node) (row : Row) (s : Scope) : Prop :=
  s.value identifier = row.value identifier.column ∧
    node.Alike Eq (p.object.value s) (node.view c db row)

/-- Each row of the table is shown once. -/
theorem Projection.forall₂_scopes (p : Projection) (source : TableRef) (key : String) {node : Node}
    {a : Aliases}
    (hp : ∀ row ∈ db source.table, p.Gives c ω db [(source.qualifier, row)] a
      fun v => node.Alike Eq v (node.view c db row)) :
    List.Forall₂ (p.Shows c db ⟨source.qualifier, key⟩ node) (db source.table)
      (p.scopes c ω db source) := by
  rw [scopes, Joined.extendAll_eq_flatMap, List.flatMap_map]
  generalize db source.table = rows at hp ⊢
  induction rows with
  | nil => exact .nil
  | cons row rest ih =>
    obtain ⟨extra, he, -, hg⟩ := hp row List.mem_cons_self
    rw [List.flatMap_cons, he]
    refine .cons ⟨?_, ?_⟩ (ih fun far hf => hp far (List.mem_cons_of_mem _ hf))
    · exact Scope.value_of_lookup List.lookup_cons_self extra
    · have hv := hg []
      rwa [List.append_nil] at hv

/-- Rows with a value are shown by what is joined with the value. -/
theorem Projection.upToOrder_matching (p : Projection) (source : TableRef) {key : String}
    {node : Node}
    (hs : List.Forall₂ (p.Shows c db ⟨source.qualifier, key⟩ node) (db source.table)
      (p.scopes c ω db source)) (v : Json) :
    UpToOrder (p.Shows c db ⟨source.qualifier, key⟩ node) (rowsWith c db source.table key v)
      ((ω.arrange (p.scopes c ω db source)).filter
        fun s => c.equal v (s.value ⟨source.qualifier, key⟩)) := by
  refine UpToOrder.filter ?_ ⟨_, hs, (ω.perm _).symm⟩
  intro row s hr
  rw [hr.1]

theorem Frame.rows_requested (ids : List String) (source : TableRef) (key : String)
    (p : Projection) :
    ((Frame.requested ids).select source key p).rows c ω db =
      (ω.arrange ((p.scopes c ω db source).filter
        (Membership.holds c ⟨⟨source.qualifier, key⟩, ids⟩))).map fun s =>
          [("id", s.value ⟨source.qualifier, key⟩), (objectColumn, p.object.value s)] := by
  rw [select, Select.rows]
  rfl

end Extension

section Matched

variable {c : Comparison} {ω : Arrangement} {db : Database} {p : Projection} {inner : String}
  {node : Node}

/-- The row of a query with one row for each key, if the key is unique. -/
theorem BelongsTo.exists_matched (b : BelongsTo) (hu : Unique c db b.table b.key)
    (hk : b.key ≠ objectColumn)
    (hs : List.Forall₂ (p.Shows c db ⟨inner, b.key⟩ node) (db b.table)
      (p.scopes c ω db ⟨b.table, inner⟩)) (row : Row) :
    ∃ found : Option Row,
      ((Frame.single.select ⟨b.table, inner⟩ b.key p).rows c ω db).filter
        (fun far => c.equal (row.value b.column) (far.value b.key)) = found.toList ∧
      (Node.relation (.belongsTo b) node).Alike Eq ((found.getD []).value objectColumn)
        ((Node.relation (.belongsTo b) node).view c db row) := by
  have hkept := p.upToOrder_matching ⟨b.table, inner⟩ hs (row.value b.column)
  have hrows : ((Frame.single.select ⟨b.table, inner⟩ b.key p).rows c ω db).filter
      (fun far => c.equal (row.value b.column) (far.value b.key)) =
      ((ω.arrange (p.scopes c ω db ⟨b.table, inner⟩)).filter
        fun s => c.equal (row.value b.column) (s.value ⟨inner, b.key⟩)).map fun s =>
          [(b.key, s.value ⟨inner, b.key⟩), (objectColumn, p.object.value s)] := by
    simp only [Frame.select, Select.rows, Option.all_none, List.filter_true, List.filter_map]
    congr 1
    refine List.filter_congr ?_
    intro s _
    simp [outputRow, Selection.valueOf, Expr.value]
  rw [hrows]
  simp only [Node.Alike, Node.view, Relation.follow, Relation.table, Relation.key, Relation.column]
  rcases rowsWith_of_unique hu (row.value b.column) with he | ⟨far, he⟩
  · rw [he] at hkept ⊢
    rw [hkept.eq_nil]
    exact ⟨none, rfl, .inl ⟨rfl, rfl⟩⟩
  · rw [he] at hkept ⊢
    obtain ⟨s, hm, -, hv⟩ := hkept.eq_singleton
    rw [hm]
    refine ⟨some [(b.key, s.value ⟨inner, b.key⟩), (objectColumn, p.object.value s)], rfl, .inr ?_⟩
    rw [Option.getD_some, value_cons_of_ne hk.symm, value_cons_self]
    exact hv

/-- The row of a query with one row for each key, which holds the group's objects. -/
theorem HasMany.exists_matched (m : HasMany) (hk : m.key ≠ objectColumn)
    (hs : List.Forall₂ (p.Shows c db ⟨inner, m.key⟩ node) (db m.table)
      (p.scopes c ω db ⟨m.table, inner⟩)) (row : Row) :
    ∃ found : Option Row,
      ((Frame.grouped.select ⟨m.table, inner⟩ m.key p).rows c ω db).filter
        (fun far => c.equal (row.value m.column) (far.value m.key)) = found.toList ∧
      (Node.relation (.hasMany m) node).Alike Eq
        (match (found.getD []).value objectColumn with
          | .null => .arr []
          | v => v)
        ((Node.relation (.hasMany m) node).view c db row) := by
  have hkept := p.upToOrder_matching ⟨m.table, inner⟩ hs (row.value m.column)
  have hrows : ((Frame.grouped.select ⟨m.table, inner⟩ m.key p).rows c ω db).filter
      (fun far => c.equal (row.value m.column) (far.value m.key)) =
      ((groups (fun s => c.key (s.value ⟨inner, m.key⟩))
        (ω.arrange (p.scopes c ω db ⟨m.table, inner⟩))).filter
          fun g => c.equal (row.value m.column) ((g.headD []).value ⟨inner, m.key⟩)).map fun g =>
            [(m.key, (g.headD []).value ⟨inner, m.key⟩),
              (objectColumn, .arr (g.map fun s => p.object.value s))] := by
    simp only [Frame.select, Select.rows, Option.all_none, List.filter_true, List.filter_map]
    congr 1
    refine List.filter_congr ?_
    intro g _
    simp [outputRow, Selection.valueOf, Expr.value]
  have hgroup := filter_groups_equal c (row.value m.column) (fun s : Scope => s.value ⟨inner, m.key⟩)
    (ω.arrange (p.scopes c ω db ⟨m.table, inner⟩)) []
  rw [hrows, hgroup]
  simp only [Node.Alike, Node.view, Relation.follow, Relation.table, Relation.key, Relation.column]
  generalize (ω.arrange (p.scopes c ω db ⟨m.table, inner⟩)).filter
    (fun s => c.equal (row.value m.column) (s.value ⟨inner, m.key⟩)) = kept at hkept ⊢
  have hitems : UpToOrder (fun x y => node.Alike Eq x y) (kept.map fun s => p.object.value s)
      ((rowsWith c db m.table m.key (row.value m.column)).map fun far => node.view c db far) := by
    refine UpToOrder.map ?_ (hkept.symm fun _ _ h => h)
    intro s far hf
    exact hf.2
  -- Without a group for the value, the join finds null, which stands for the empty array.
  by_cases he : kept = []
  · subst he
    exact ⟨none, rfl, _, _, rfl, rfl, hitems⟩
  · rw [if_neg he]
    refine ⟨some [(m.key, (kept.headD []).value ⟨inner, m.key⟩),
      (objectColumn, .arr (kept.map fun s => p.object.value s))], rfl, _, _, ?_, rfl, hitems⟩
    rw [Option.getD_some, value_cons_of_ne hk.symm, value_cons_self]

end Matched
end EntityFeed
