import EntityFeed.Proofs.ObjectQuery.Target
import EntityFeed.Proofs.Sql.Scoping

/-! A query for objects is accepted. Its aliases are all different, and every column it uses is found,
if no relation joins on a column with the name of the objects. -/
namespace EntityFeed
open Sql

/-- That no relation of a node joins on a column that would hide the objects. -/
def Node.LeavesObjects (table : String) (path : List Step) (node : Node) : Prop :=
  ∀ v ∈ node.visits table path, v.relation.key ≠ objectColumn

theorem Node.LeavesObjects.target {table : String} {path : List Step} {r : Relation} {node : Node}
    (h : (Node.relation r node).LeavesObjects table path) (o : ObjectQueryOptions) :
    (r.target o node).relation.key ≠ objectColumn ∧
      ∃ path', (r.target o node).node.LeavesObjects (r.target o node).relation.table path' := by
  obtain ⟨v, hv, path', hk, hs⟩ := r.exists_visit_target o node table path
  refine ⟨hk ▸ h v hv, path', ?_⟩
  intro w hw
  exact h w (hs hw)

/-- What a projection can be used for in a query with this header: its joins are accepted under
aliases that have been issued, and its object is found, whatever is joined later. -/
structure Projection.Fits (h : Header) (p : Projection) (a : Aliases) : Prop where
  joins : Joined.scopedAll h p.joins = true
  object : ∀ later, p.object.resolves (h ++ p.joins.map Joined.entry ++ later) = true
  issued : ∀ q ∈ p.joins.map (·.entry.1), q ∈ a.names

theorem Frame.select_scoped (frame : Frame) (source : TableRef) (key : String) {p : Projection}
    {a : Aliases} (hp : p.Fits [(source.qualifier, none)] a) :
    (frame.select source key p).scoped = true := by
  have hi : ∀ later, ColumnRef.resolves ([(source.qualifier, none)] ++ later)
      ⟨source.qualifier, key⟩ = true :=
    ColumnRef.resolves_of_table (by simp)
  have hk := hi (p.joins.map Joined.entry)
  have ho := hp.object []
  rw [List.append_nil] at ho
  rw [List.singleton_append] at hk ho
  cases frame with
  | requested ids =>
    simp [select, Select.scoped, hp.joins, Selection.resolves_value, Expr.resolves, hk, ho]
  | single => simp [select, Select.scoped, hp.joins, Selection.resolves_value, Expr.resolves, hk, ho]
  | grouped =>
    simp [select, Select.scoped, hp.joins, Selection.resolves, hk, ho]

theorem Relation.outputs_select (r : Relation) (source : TableRef) (key : String) (p : Projection) :
    (r.frame.select source key p).outputs.map (·.name) = [key, objectColumn] := by
  cases r <;> rfl

/-- A nested query can be joined under a new alias, and then its objects are found. -/
theorem Relation.projection_fits (r : Relation) {source : TableRef} {key outer : String}
    {near : ColumnRef} {p : Projection} {h : Header} {a b : Aliases}
    (hs : p.Fits [(source.qualifier, none)] b) (hn : h.lookup near.qualifier = some none)
    (ho : outer ∉ h.map (·.1)) (ha : outer ∈ a.names) (hk : key ≠ objectColumn) :
    (r.projection (.nested .left (r.frame.select source key p) outer near ⟨outer, key⟩)).Fits h a := by
  have he := r.outputs_select source key p
  have hl := ColumnRef.resolves_of_table hn [(outer, some [key, objectColumn])]
  have hr : ColumnRef.resolves (h ++ [(outer, some [key, objectColumn])]) ⟨outer, key⟩ = true :=
    ColumnRef.resolves_of_nested ho (by simp [hk.symm]) []
  have hv : ∀ later, ColumnRef.resolves (h ++ (outer, some [key, objectColumn]) :: later)
      ⟨outer, objectColumn⟩ = true :=
    ColumnRef.resolves_of_nested ho (by simp [hk])
  have hj : Joined.scopedAll h
      [.nested .left (r.frame.select source key p) outer near ⟨outer, key⟩] = true := by
    simp only [Joined.scopedAll, Joined.fits, Joined.entry, Joined.left, Joined.right, he, hl, hr,
      Frame.select_scoped r.frame source key hs, Bool.and_true, Bool.true_and]
    simpa using ho
  cases r with
  | belongsTo b =>
    refine ⟨hj, ?_, ?_⟩
    · intro later
      simpa [projection, Projection.ofSingle, Expr.resolves, Joined.entry, Joined.qualifier, he]
        using hv later
    · simpa [projection, Projection.ofSingle, Joined.entry] using ha
  | hasMany m =>
    refine ⟨hj, ?_, ?_⟩
    · intro later
      simpa [projection, Projection.ofGroup, Expr.resolves, Joined.entry, Joined.qualifier, he]
        using hv later
    · simpa [projection, Projection.ofGroup, Joined.entry] using ha

mutual

/-- A node's value fits wherever the table of its row has an alias. -/
theorem Node.project_fits (o : ObjectQueryOptions) (qualifier table : String) (path : List Step)
    (node : Node) (a : Aliases) {h : Header} (hq : h.lookup qualifier = some none)
    (ha : ∀ q ∈ h.map (·.1), q ∈ a.names) (hk : node.LeavesObjects table path) :
    (node.project o qualifier a).1.Fits h (node.project o qualifier a).2 := by
  match node with
  | .column name =>
    rw [project]
    refine ⟨rfl, ?_, by simp⟩
    intro later
    rw [Expr.resolves, List.append_assoc]
    exact ColumnRef.resolves_of_table hq _
  | .object properties =>
    rw [project]
    rw [LeavesObjects, visits] at hk
    exact projectAll_fits o qualifier table path properties a hq ha hk
  | .relation r node =>
    obtain ⟨ht, path', hb⟩ := LeavesObjects.target hk o
    rw [project_relation]
    -- The nested query stands alone under its inner alias; the join is under a later one.
    have hp := project_fits o (a.next (r.target o node).relation.table).1
      (r.target o node).relation.table path' (r.target o node).node
      (a.next (r.target o node).relation.table).2
      (h := [((a.next (r.target o node).relation.table).1, none)]) List.lookup_cons_self
      (by simp [Aliases.names_next]) hb
    exact Relation.projection_fits (r.target o node).relation hp hq
      ((r.target o node).outer_notMem o ha) List.mem_cons_self ht
termination_by sizeOf node
decreasing_by
  · exact Node.sizeOf_properties_lt properties
  · exact Relation.sizeOf_target_lt o r node

theorem Node.projectAll_fits (o : ObjectQueryOptions) (qualifier table : String) (path : List Step)
    (properties : List (String × Node)) (a : Aliases) {h : Header}
    (hq : h.lookup qualifier = some none) (ha : ∀ q ∈ h.map (·.1), q ∈ a.names)
    (hk : ∀ v ∈ visitsOfAll table path properties, v.relation.key ≠ objectColumn) :
    Projection.Fits h
      ⟨.record (projectAll o qualifier properties a).1.1, (projectAll o qualifier properties a).1.2⟩
      (projectAll o qualifier properties a).2 := by
  match properties with
  | [] =>
    rw [projectAll]
    refine ⟨rfl, ?_, by simp⟩
    intro later
    rfl
  | (name, node) :: rest =>
    rw [visitsOfAll] at hk
    have hf := project_fits o qualifier table path node a hq ha
      (fun v hv => hk v (List.mem_append_left _ hv))
    have hr := projectAll_fits o qualifier table path rest (node.project o qualifier a).2
      (h := h ++ (node.project o qualifier a).1.joins.map Joined.entry)
      (lookup_append_of_eq_some hq _) ?_ (fun v hv => hk v (List.mem_append_right _ hv))
    · rw [projectAll]
      refine ⟨?_, ?_, ?_⟩
      · rw [Joined.scopedAll_append, hf.joins, hr.joins]
        rfl
      · intro later
        have ho := hr.object later
        have hv := hf.object (((projectAll o qualifier rest (node.project o qualifier a).2).1.2.map
          Joined.entry) ++ later)
        simp only [Expr.resolves, Expr.fieldsResolve, List.map_append, List.append_assoc,
          Bool.and_eq_true] at ho hv ⊢
        exact ⟨hv, ho⟩
      · intro q hm
        rw [List.map_append, List.mem_append] at hm
        rcases hm with hm | hm
        · exact (names_suffix_projectAll o qualifier rest _).subset (hf.issued q hm)
        · exact hr.issued q hm
    · intro q hm
      rw [List.map_append, List.map_map, List.mem_append] at hm
      rcases hm with hm | hm
      · exact (names_suffix_project o qualifier node a).subset (ha q hm)
      · exact hf.issued q hm
termination_by sizeOf properties

end

/-- The query for objects is accepted. -/
theorem RootSchema.objectQuery_scoped (s : RootSchema) (ids : List String) (o : ObjectQueryOptions)
    (h : s.node.LeavesObjects s.table []) : (s.objectQuery ids o).scoped = true := by
  have hp := s.node.project_fits o (Aliases.next {} s.table).1 s.table [] (Aliases.next {} s.table).2
    (h := [((Aliases.next {} s.table).1, none)]) List.lookup_cons_self
    (by simp [Aliases.names_next]) h
  exact Frame.select_scoped (.requested ids) ⟨s.table, (Aliases.next {} s.table).1⟩ s.primaryKey hp

end EntityFeed
