import EntityFeed.Proofs.Impact.Completeness
import EntityFeed.Proofs.ObjectQuery.Target
import EntityFeed.Proofs.Sql.Hygiene
import Mathlib.Data.List.Perm.Subperm

/-! The aliases of the queries that are compiled. Whatever the tables are called, every alias is brought
in once in a whole statement, and every column is one of its own query's. An object query brings in
all aliases that it has been issued; the search for ids leaves some of them unused. -/
namespace EntityFeed
open Sql

/-- What a projection for the row under an alias may use, and which aliases it brings in: those that
have been issued for it. -/
structure Projection.Tidy (qualifier : String) (a : Aliases) (p : Projection) (b : Aliases) : Prop where
  issued : (Joined.aliasesOf p.joins ++ a.names).Perm b.names
  joins : Joined.closedAll [qualifier] p.joins = true
  object : ∀ r ∈ p.object.refs, r.qualifier ∈ qualifier :: p.joins.map Joined.qualifier

theorem Frame.aliases_select (frame : Frame) (source : TableRef) (key : String) (p : Projection) :
    (frame.select source key p).aliases = source.qualifier :: Joined.aliasesOf p.joins := by
  cases frame <;> rfl

theorem Projection.Tidy.closed_select {qualifier : String} {a b : Aliases} {p : Projection}
    (h : p.Tidy qualifier a b) (frame : Frame) (table key : String) :
    (frame.select ⟨table, qualifier⟩ key p).closed = true := by
  have object := h.object
  cases frame <;>
    simpa [Frame.select, Select.closed, Selection.refs, Expr.refs, h.joins] using object

theorem Projection.Tidy.of_join {qualifier : String} {a b : Aliases} {j : Joined}
    (issued : (Joined.aliasesOf [j] ++ a.names).Perm b.names)
    (closed : Joined.closedAll [qualifier] [j] = true) (r : Relation) :
    (r.projection j).Tidy qualifier a b := by
  have object (column : String) : ∀ c ∈ [(⟨j.qualifier, column⟩ : ColumnRef)],
      c.qualifier ∈ qualifier :: [j].map Joined.qualifier := by simp
  cases r with
  | belongsTo r => exact ⟨issued, closed, object objectColumn⟩
  | hasMany r => exact ⟨issued, closed, object objectColumn⟩

/-- A nested query is joined under the alias that comes after those in it. -/
theorem Projection.Tidy.relation {table : String} {a b : Aliases} {p : Projection}
    (h : p.Tidy (a.next table).1 (a.next table).2 b) (r : Relation) (qualifier near key : String) :
    (r.projection (.nested .left (r.frame.select ⟨table, (a.next table).1⟩ key p) (b.next table).1
      ⟨qualifier, near⟩ ⟨(b.next table).1, key⟩)).Tidy qualifier a (b.next table).2 := by
  have closed := h.closed_select r.frame table key
  refine .of_join ?_ (by simp [Joined.closedAll, closed]) r
  -- The inner alias has been issued first and the outer one last.
  have first : ((a.next table).1 :: Joined.aliasesOf p.joins ++ a.names).Perm b.names :=
    List.perm_middle.symm.trans h.issued
  have last : ((a.next table).1 :: Joined.aliasesOf p.joins ++ (b.next table).1 :: a.names).Perm
      ((b.next table).1 :: ((a.next table).1 :: Joined.aliasesOf p.joins ++ a.names)) :=
    List.perm_middle
  rw [Joined.aliasesOf, Joined.aliasesOf, Frame.aliases_select, List.append_assoc]
  exact last.trans (first.cons _)

mutual

theorem Node.project_tidy (o : ObjectQueryOptions) (qualifier : String) (node : Node) (a : Aliases) :
    (node.project o qualifier a).1.Tidy qualifier a (node.project o qualifier a).2 := by
  match node with
  | .column name =>
    rw [project]
    exact ⟨.refl _, rfl, by simp [Expr.refs]⟩
  | .object properties =>
    rw [project]
    exact projectAll_tidy o qualifier properties a
  | .relation r node =>
    rw [project_relation]
    exact (project_tidy o (a.next (r.target o node).relation.table).1 (r.target o node).node
      (a.next (r.target o node).relation.table).2).relation (r.target o node).relation qualifier _ _
termination_by sizeOf node
decreasing_by
  · exact Node.sizeOf_properties_lt properties
  · exact Relation.sizeOf_target_lt o r node

theorem Node.projectAll_tidy (o : ObjectQueryOptions) (qualifier : String)
    (properties : List (String × Node)) (a : Aliases) :
    Projection.Tidy qualifier a
      ⟨.record (projectAll o qualifier properties a).1.1, (projectAll o qualifier properties a).1.2⟩
      (projectAll o qualifier properties a).2 := by
  match properties with
  | [] =>
    rw [projectAll]
    exact ⟨.refl _, rfl, by simp [Expr.refs, Expr.fieldRefs]⟩
  | (name, node) :: rest =>
    have first := project_tidy o qualifier node a
    have others := projectAll_tidy o qualifier rest (node.project o qualifier a).2
    rw [projectAll]
    refine ⟨?_, ?_, ?_⟩
    · rw [Joined.aliasesOf_append]
      refine (List.perm_append_comm.append_right a.names).trans ?_
      rw [List.append_assoc]
      exact (first.issued.append_left _).trans others.issued
    · rw [Joined.closedAll_append, first.joins, Bool.true_and]
      exact Joined.closedAll_mono (List.subset_append_left _ _) others.joins
    · intro r hr
      rw [List.map_append, ← List.cons_append]
      rcases List.mem_append.mp hr with hr | hr
      · exact List.mem_append_left _ (first.object r hr)
      · rcases List.mem_cons.mp (others.object r hr) with own | joined
        · rw [own]
          exact List.mem_cons_self
        · exact List.mem_append_right _ joined
termination_by sizeOf properties

end

theorem RootSchema.objectQuery_tidy (s : RootSchema) (ids : List String) (o : ObjectQueryOptions) :
    (s.objectQuery ids o).aliases.Nodup ∧ (s.objectQuery ids o).closed = true := by
  have tidy := s.node.project_tidy o (Aliases.next {} s.table).1 (Aliases.next {} s.table).2
  refine ⟨?_, tidy.closed_select (.requested ids) s.table s.primaryKey⟩
  have all : (s.objectQuery ids o).aliases.Perm
      (s.node.project o (Aliases.next {} s.table).1 (Aliases.next {} s.table).2).2.names := by
    rw [objectQuery, Frame.aliases_select, ← List.append_nil (_ :: _)]
    exact List.perm_middle.symm.trans tidy.issued
  exact all.nodup_iff.mpr (Aliases.nodup_names _)

section Search

theorem Search.names_eq (s : Search) :
    s.names = s.source.qualifier :: Joined.aliasesOf s.joinedTables := by
  have joined : ((s.joinedTables.map Joined.entry).map (·.1)) = Joined.aliasesOf s.joinedTables := by
    unfold joinedTables
    induction s.joins with
    | nil => rfl
    | cons j rest ih => exact congrArg (j.table.qualifier :: ·) ih
  rw [← joined]
  rfl

theorem Discovery.aliases_select (d : Discovery) : d.select.aliases = d.search.names :=
  d.search.names_eq.symm

variable {earlier : List String} {t : Trail} {a : Aliases}

/-- That the aliases of a search have been issued, each for itself, since some others. -/
def Search.Issued (earlier : List String) (s : Search) (a : Aliases) : Prop :=
  (s.names ++ earlier).Subperm a.names

theorem Search.issued_start (h : earlier.Subperm a.names) (table column : String)
    (values : List String) :
    Search.Issued earlier ⟨⟨table, (a.next table).1⟩, column, values, []⟩ (a.next table).2 :=
  (List.subperm_cons _).mpr h

theorem Search.Issued.subperm {s : Search} (h : s.Issued earlier a) : earlier.Subperm a.names :=
  (List.sublist_append_right _ _).subperm.trans h

theorem Search.Issued.joined {s : Search} (h : s.Issued earlier a) (table : String)
    (left right : ColumnRef) :
    (s.joined ⟨table, (a.next table).1⟩ left right).Issued earlier (a.next table).2 := by
  have last : ((s.names ++ [(a.next table).1]) ++ earlier).Perm
      ((a.next table).1 :: (s.names ++ earlier)) := by
    rw [List.append_assoc]
    exact List.perm_middle
  rw [Issued, names, header_joined, List.map_append]
  exact last.subperm.trans ((List.subperm_cons _).mpr h)

/-- A search that starts anew leaves the aliases that it had behind. -/
theorem Trail.issued_pastBelongsTo (h : t.search.Issued earlier a) (r : BelongsTo) (table : String) :
    (t.pastBelongsTo r table (a.next table).1).search.Issued earlier (a.next table).2 := by
  unfold pastBelongsTo
  cases t.leaf with
  | none => exact h.joined table _ _
  | some leaf =>
    dsimp only
    split
    · exact Search.issued_start h.subperm table r.column leaf.values
    · exact h.joined table _ _

theorem climb_issued (s : RootSchema) {path : List Step} (h : t.search.Issued earlier a) :
    (climb s path t a).1.search.Issued earlier (climb s path t a).2 := by
  induction path generalizing t a with
  | nil => exact h
  | cons step outer ih =>
    obtain ⟨r, table⟩ := step
    cases r with
    | belongsTo r =>
      rw [climb]
      exact ih (Trail.issued_pastBelongsTo h r table)
    | hasMany r =>
      rw [climb]
      split
      · exact h
      · split
        · exact ih h
        · exact ih (h.joined table _ _)

theorem Visit.search_trail (e : ChangeEvent) (v : Visit) (qualifier : String) :
    (v.trail e qualifier).search =
      ⟨⟨v.table, qualifier⟩, v.relation.column, e.idValues v.relation.key, []⟩ := by
  unfold trail
  cases v.relation <;> rfl

theorem Visit.discovery_issued (s : RootSchema) (e : ChangeEvent) (v : Visit) (a : Aliases) :
    (v.discovery s e a).1.search.Issued a.names (v.discovery s e a).2 := by
  refine climb_issued s ?_
  rw [v.search_trail]
  exact Search.issued_start (List.Subperm.refl _) _ _ _

theorem discoveries_issued (s : RootSchema) (e : ChangeEvent) (vs : List Visit) (a : Aliases) :
    ∃ b : Aliases,
      ((discoveries s e vs a).flatMap (·.select.aliases) ++ a.names).Subperm b.names := by
  induction vs generalizing a with
  | nil => exact ⟨a, .refl _⟩
  | cons v rest ih =>
    obtain ⟨b, others⟩ := ih (v.discovery s e a).2
    have first := v.discovery_issued s e a
    rw [Search.Issued, ← Discovery.aliases_select] at first
    refine ⟨b, ?_⟩
    rw [discoveries, List.flatMap_cons]
    refine (List.perm_append_comm.append_right a.names).subperm.trans ?_
    rw [List.append_assoc]
    exact ((List.subperm_append_left _).mpr first).trans others

theorem discoveries_closed (s : RootSchema) (e : ChangeEvent) (vs : List Visit) (a : Aliases) :
    ∀ d ∈ discoveries s e vs a, d.select.closed = true := by
  induction vs generalizing a with
  | nil => simp [discoveries]
  | cons v rest ih =>
    intro d hd
    rcases List.mem_cons.mp hd with rfl | hd
    · exact Select.closed_of_scoped (v.discovery_fits s e a).select_scoped
    · exact ih _ d hd

end Search

theorem Impact.selects_union? (i : Impact) :
    i.union?.toList.flatMap Query.selects = i.branches.map (·.select) := by
  unfold union?
  cases i.branches with
  | nil => rfl
  | cons d rest => simp [Query.unite?, Query.selects]

/-- In the query for the entities with some ids and in the query for the ids of an event, every alias
is brought in once, and a column is one of the source, of a join or, in a join, of one before it. -/
theorem RootSchema.aliases_clean (s : RootSchema) :
    (∀ ids o, (s.objectQuery ids o).aliases.Nodup ∧ (s.objectQuery ids o).closed = true) ∧
      ∀ e, (((s.impact e).union?.toList.flatMap Query.selects).flatMap Select.aliases).Nodup ∧
        ((s.impact e).union?.toList.flatMap Query.selects).all Select.closed = true := by
  refine ⟨fun ids o => s.objectQuery_tidy ids o, fun e => ?_⟩
  rw [Impact.selects_union?]
  refine ⟨?_, ?_⟩
  · obtain ⟨b, part, perm, sublist⟩ := discoveries_issued s e ((s.hits e).filter (!·.direct s)) {}
    have distinct := perm.nodup_iff.mp (b.nodup_names.sublist sublist)
    rw [List.flatMap_map]
    exact (List.nodup_append.mp distinct).1
  · rw [List.all_map, List.all_eq_true]
    exact discoveries_closed s e _ {}

/-- A table that is called like an alias, and another one that refers to itself. -/
example : (RootSchema.objectQuery ⟨"user", "id", .relation (.belongsTo ⟨"boss", "user", "id", true⟩)
    (.relation (.hasMany ⟨"id", "user_1", "owner"⟩) (.column "name"))⟩ []
      ⟨false⟩).aliases = ["user_1", "user_2", "user_1_1", "user_1_2", "user_3"] := by
  decide +kernel

end EntityFeed
