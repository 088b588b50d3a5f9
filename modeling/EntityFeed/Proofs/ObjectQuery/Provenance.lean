import EntityFeed.Proofs.Aliasing
import EntityFeed.Proofs.ObjectQuery.Scope
import EntityFeed.Proofs.Sql.Provenance
import EntityFeed.Schema.Flaw

/-! Which columns an object query uses and where they come from, said from the schema alone: each
relation that is joined brings in four uses, whatever is around it and behind it. -/
namespace EntityFeed
open Sql

/-- What joining a relation uses: of the nested query the objects and the key, and of either table the
column that the relation joins on. -/
def Relation.joinUses (table : String) (r : Relation) : List Use :=
  let far := some (.nested [r.key, objectColumn])
  [⟨far, objectColumn⟩, ⟨some (.table table), r.column⟩, ⟨far, r.key⟩,
    ⟨some (.table r.table), r.key⟩]

namespace Node

mutual

/-- What the query for a node uses for rows of `table`. -/
def queryUses (o : ObjectQueryOptions) (table : String) : Node → List Use
  | .column name => [⟨some (.table table), name⟩]
  | .object properties => queryUsesOfAll o table properties
  | .relation r node =>
    (r.target o node).relation.joinUses table ++
      queryUses o (r.target o node).relation.table (r.target o node).node
termination_by node => sizeOf node
decreasing_by
  · exact Node.sizeOf_properties_lt properties
  · exact Relation.sizeOf_target_lt o r node

def queryUsesOfAll (o : ObjectQueryOptions) (table : String) : List (String × Node) → List Use
  | [] => []
  | (_, node) :: rest => queryUses o table node ++ queryUsesOfAll o table rest
termination_by properties => sizeOf properties

end

end Node

namespace Projection

def refs (p : Projection) : List ColumnRef := p.object.refs ++ p.joins.flatMap Joined.refs

/-- What a projection uses where aliases stand for these things. -/
def uses (h : Bindings) (p : Projection) : List Use :=
  p.refs.map (ColumnRef.use h) ++ Joined.usesOfAll p.joins

/-- The aliases of a query for some projection and what they stand for. -/
def bindings (p : Projection) (source : TableRef) : Bindings :=
  (source.qualifier, .table source.table) :: p.joins.map Joined.binding

end Projection

namespace Frame

variable (frame : Frame) (source : TableRef) (key : String) (p : Projection)

/-- A query uses the columns of its projection and, maybe more than once, the key of its rows. -/
theorem refs_select : ∃ again ⊆ [(⟨source.qualifier, key⟩ : ColumnRef)],
    (frame.select source key p).refs = ⟨source.qualifier, key⟩ :: (p.refs ++ again) := by
  cases frame with
  | requested ids =>
    refine ⟨Membership.refs ⟨⟨source.qualifier, key⟩, ids⟩, ?_, ?_⟩
    · unfold Membership.refs
      split <;> simp
    · simp [select, Select.refs, Selection.refs, Expr.refs, Projection.refs]
  | single =>
    refine ⟨[], List.nil_subset _, ?_⟩
    simp [select, Select.refs, Selection.refs, Expr.refs, Projection.refs]
  | grouped =>
    refine ⟨[⟨source.qualifier, key⟩], List.Subset.refl _, ?_⟩
    simp [select, Select.refs, Selection.refs, Expr.refs, Projection.refs]

/-- A query uses what its projection uses, and the key of its rows. -/
theorem mem_uses_select (u : Use) :
    u ∈ (frame.select source key p).uses ↔
      u = ⟨some (.table source.table), key⟩ ∨ u ∈ p.uses (p.bindings source) := by
  have shape : (frame.select source key p).uses =
      (frame.select source key p).refs.map (ColumnRef.use (p.bindings source)) ++
        Joined.usesOfAll p.joins := by
    cases frame <;> rfl
  have identifier : ColumnRef.use (p.bindings source) ⟨source.qualifier, key⟩ =
      ⟨some (.table source.table), key⟩ := by
    rw [ColumnRef.use, Projection.bindings, List.lookup_cons_self]
  obtain ⟨again, ha, hr⟩ := refs_select frame source key p
  have repeated : ∀ r ∈ again, ColumnRef.use (p.bindings source) r =
      ⟨some (.table source.table), key⟩ := by
    intro r h
    rw [List.mem_singleton.mp (ha h), identifier]
  rw [shape, hr, List.map_cons, List.map_append, identifier, Projection.uses]
  simp only [List.cons_append, List.mem_cons, List.mem_append, List.mem_map]
  constructor
  · rintro (h | (h | ⟨r, h, rfl⟩) | h)
    · exact .inl h
    · exact .inr (.inl h)
    · exact .inl (repeated r h)
    · exact .inr (.inr h)
  · rintro (h | h | h)
    · exact .inl h
    · exact .inr (.inl (.inl h))
    · exact .inr (.inr h)

end Frame

/-- Under the alias of a nested query stand its key and its objects. -/
theorem Relation.mem_uses_projection (r : Relation) {qualifier outer inner table : String}
    {p : Projection} {h : Bindings} (hq : h.lookup qualifier = some (.table table))
    (ho : h.lookup outer = some (.nested [r.key, objectColumn])) (u : Use) :
    u ∈ (r.projection (.nested .left (r.frame.select ⟨r.table, inner⟩ r.key p) outer
        ⟨qualifier, r.column⟩ ⟨outer, r.key⟩)).uses h ↔
      u ∈ r.joinUses table ∨ u ∈ p.uses (p.bindings ⟨r.table, inner⟩) := by
  have own : (r.projection (.nested .left (r.frame.select ⟨r.table, inner⟩ r.key p) outer
      ⟨qualifier, r.column⟩ ⟨outer, r.key⟩)).uses h =
      [⟨some (.nested [r.key, objectColumn]), objectColumn⟩, ⟨some (.table table), r.column⟩,
        ⟨some (.nested [r.key, objectColumn]), r.key⟩] ++
        (r.frame.select ⟨r.table, inner⟩ r.key p).uses := by
    rw [← ho, ← hq]
    cases r <;> simp [projection, Projection.ofSingle, Projection.ofGroup, Projection.uses,
      Projection.refs, Expr.refs, Joined.refs, Joined.left, Joined.right, Joined.usesOfAll,
      Joined.qualifier, ColumnRef.use]
  rw [own, List.mem_append, Frame.mem_uses_select, joinUses]
  simp only [List.mem_cons, List.not_mem_nil, or_false, or_assoc]

theorem Relation.joins_projection (r : Relation) (j : Joined) : (r.projection j).joins = [j] := by
  cases r <;> rfl

theorem Projection.mem_uses_record_cons {h : Bindings} (name : String) (p : Projection)
    (fields : List (String × Expr)) (joins : List Joined) (u : Use) :
    u ∈ uses h ⟨.record ((name, p.object) :: fields), p.joins ++ joins⟩ ↔
      u ∈ p.uses h ∨ u ∈ uses h ⟨.record fields, joins⟩ := by
  simp only [uses, refs, Expr.refs, Expr.fieldRefs, List.flatMap_append, List.map_append,
    Joined.usesOfAll_append, List.mem_append]
  tauto

theorem Projection.Tidy.nodup {table : String} {a b : Aliases} {p : Projection}
    (h : p.Tidy (a.next table).1 (a.next table).2 b) :
    ((a.next table).1 :: Joined.aliasesOf p.joins).Nodup := by
  have all := (List.perm_middle.symm.trans h.issued).nodup_iff.mpr b.nodup_names
  exact all.sublist ((List.sublist_append_left _ _).cons_cons _)

mutual

/-- What a node's projection uses does not depend on the query around it. -/
theorem Node.mem_uses_project (o : ObjectQueryOptions) (qualifier table : String) (node : Node)
    (a : Aliases) {h : Bindings} (hq : h.lookup qualifier = some (.table table))
    (hj : ∀ j ∈ (node.project o qualifier a).1.joins, h.lookup j.qualifier = some j.origin)
    (u : Use) :
    u ∈ (node.project o qualifier a).1.uses h ↔ u ∈ node.queryUses o table := by
  match node with
  | .column name =>
    rw [project, queryUses]
    simp [Projection.uses, Projection.refs, Expr.refs, ColumnRef.use, hq, Joined.usesOfAll]
  | .object properties =>
    rw [project] at hj ⊢
    rw [queryUses]
    exact mem_uses_projectAll o qualifier table properties a hq hj u
  | .relation r node =>
    have far := hj _ (by
      rw [project_relation, Relation.joins_projection]
      exact List.mem_singleton_self _)
    rw [Target.join, nestedQuery, Joined.qualifier, Joined.origin,
      Relation.outputs_select] at far
    -- The nested query stands alone: its aliases are its source's and those of its own joins.
    have behind := mem_uses_project o (a.next (r.target o node).relation.table).1
      (r.target o node).relation.table (r.target o node).node
      (a.next (r.target o node).relation.table).2 List.lookup_cons_self
      (fun _ => Joined.lookup_binding ⟨_, _⟩ (project_tidy o _ _ _).nodup) u
    rw [project_relation, queryUses, List.mem_append, ← behind]
    exact (r.target o node).relation.mem_uses_projection hq far u
termination_by sizeOf node
decreasing_by
  all_goals
    first
    | exact Relation.sizeOf_target_lt o r node
    | exact Node.sizeOf_properties_lt properties

theorem Node.mem_uses_projectAll (o : ObjectQueryOptions) (qualifier table : String)
    (properties : List (String × Node)) (a : Aliases) {h : Bindings}
    (hq : h.lookup qualifier = some (.table table))
    (hj : ∀ j ∈ (projectAll o qualifier properties a).1.2, h.lookup j.qualifier = some j.origin)
    (u : Use) :
    u ∈ Projection.uses h ⟨.record (projectAll o qualifier properties a).1.1,
        (projectAll o qualifier properties a).1.2⟩ ↔
      u ∈ queryUsesOfAll o table properties := by
  match properties with
  | [] =>
    rw [projectAll, queryUsesOfAll]
    simp [Projection.uses, Projection.refs, Expr.refs, Expr.fieldRefs, Joined.usesOfAll]
  | (name, node) :: rest =>
    rw [projectAll] at hj ⊢
    rw [queryUsesOfAll, List.mem_append, Projection.mem_uses_record_cons]
    exact or_congr
      (mem_uses_project o qualifier table node a hq
        (fun j h => hj j (List.mem_append_left _ h)) u)
      (mem_uses_projectAll o qualifier table rest (node.project o qualifier a).2 hq
        (fun j h => hj j (List.mem_append_right _ h)) u)
termination_by sizeOf properties

end

theorem RootSchema.mem_uses_objectQuery (s : RootSchema) (ids : List String) (o : ObjectQueryOptions)
    (u : Use) :
    u ∈ (s.objectQuery ids o).uses ↔
      u = ⟨some (.table s.table), s.primaryKey⟩ ∨ u ∈ s.node.queryUses o s.table := by
  have root := s.node.mem_uses_project o (Aliases.next {} s.table).1 s.table
    (Aliases.next {} s.table).2 List.lookup_cons_self
    (fun _ => Joined.lookup_binding ⟨_, _⟩ (s.node.project_tidy o _ _).nodup) u
  rw [objectQuery, Frame.mem_uses_select, ← root]
  rfl

/-- A nested query has two columns, the key and the objects. -/
theorem Relation.joinUses_clear_iff (table : String) (r : Relation) :
    (∀ u ∈ r.joinUses table, u.clear = true) ↔ r.key ≠ objectColumn := by
  by_cases h : r.key = objectColumn
  · simp [joinUses, Use.clear, h]
  · simp [joinUses, Use.clear, h, Ne.symm h]

/-- That the query joins what is behind a belongs-to in place of its table. -/
def Visit.LeftOut (o : ObjectQueryOptions) (v : Visit) : Prop :=
  o.skipMiddleTables = true ∧
    ∃ b back behind, v.relation = .belongsTo b ∧ b.reverse? v.node = some (back, behind)

theorem Visit.not_leftOut_of_hasMany (o : ObjectQueryOptions) {v : Visit} {m : HasMany}
    (h : v.relation = .hasMany m) : ¬v.LeftOut o := by
  rintro ⟨-, b, back, behind, hr, -⟩
  rw [h] at hr
  contradiction

theorem Visit.not_leftOut_of_target {o : ObjectQueryOptions} {v : Visit}
    (h : v.relation.target o v.node = ⟨v.relation, v.node⟩) : ¬v.LeftOut o := by
  rintro ⟨ho, b, back, behind, hr, hb⟩
  rw [hr, Relation.target_eq_across ho hb] at h
  exact Relation.noConfusion (congrArg Target.relation h)

mutual

theorem Node.queryUses_clear_iff (o : ObjectQueryOptions) (table : String) (path : List Step)
    (node : Node) :
    (∀ u ∈ node.queryUses o table, u.clear = true) ↔
      ∀ v ∈ node.visits table path, v.relation.key = objectColumn → v.LeftOut o := by
  match node with
  | .column name =>
    rw [queryUses, visits]
    simp [Use.clear]
  | .object properties =>
    rw [queryUses, visits]
    exact queryUsesOfAll_clear_iff o table path properties
  | .relation r node =>
    have inner := fun path => queryUses_clear_iff o (r.target o node).relation.table path
      (r.target o node).node
    rw [queryUses, List.forall_mem_append, Relation.joinUses_clear_iff, visits_relation,
      List.forall_mem_cons]
    rcases r.target_cases o node with ht | ⟨b, back, behind, rfl, ho, hb, ht⟩
    · have joined : ¬Visit.LeftOut o ⟨r, table, node, path⟩ := Visit.not_leftOut_of_target ht
      rw [ht] at inner ⊢
      exact and_congr (imp_congr_right fun _ => (iff_false_intro joined).symm) (inner _)
    · have left : Visit.LeftOut o ⟨.belongsTo b, table, node, path⟩ := ⟨ho, b, back, behind, rfl, hb⟩
      obtain ⟨rfl, -⟩ := BelongsTo.eq_of_reverse? hb
      -- The has-many is joined in place of the belongs-to, from another column but by its own key.
      have joined : ∀ path, ¬Visit.LeftOut o ⟨.hasMany back, b.table, behind, path⟩ :=
        fun path => Visit.not_leftOut_of_hasMany o rfl
      rw [ht] at inner ⊢
      rw [visits_relation, List.forall_mem_cons]
      exact (and_congr (imp_congr_right fun _ => (iff_false_intro (joined _)).symm)
        (inner _)).trans (and_iff_right fun _ => left).symm
termination_by sizeOf node
decreasing_by
  · exact Node.sizeOf_properties_lt properties
  · exact Relation.sizeOf_target_lt o r node

theorem Node.queryUsesOfAll_clear_iff (o : ObjectQueryOptions) (table : String) (path : List Step)
    (properties : List (String × Node)) :
    (∀ u ∈ queryUsesOfAll o table properties, u.clear = true) ↔
      ∀ v ∈ visitsOfAll table path properties, v.relation.key = objectColumn → v.LeftOut o := by
  match properties with
  | [] =>
    rw [queryUsesOfAll, visitsOfAll]
    simp
  | (name, node) :: rest =>
    rw [queryUsesOfAll, visitsOfAll, List.forall_mem_append, List.forall_mem_append]
    exact and_congr (queryUses_clear_iff o table path node)
      (queryUsesOfAll_clear_iff o table path rest)
termination_by sizeOf properties

end

/-- Every column in the query for some entities, at any depth, is found in one place exactly if no
relation that is joined has a key with the name of the objects. -/
theorem RootSchema.uses_clear_iff (s : RootSchema) (ids : List String) (o : ObjectQueryOptions) :
    (∀ u ∈ (s.objectQuery ids o).uses, u.clear = true) ↔
      ∀ v ∈ s.visits, v.relation.key = objectColumn → v.LeftOut o := by
  have behind := s.node.queryUses_clear_iff o s.table []
  simp only [mem_uses_objectQuery, forall_eq_or_imp]
  exact (and_iff_right rfl).trans behind

/-- Articles with the name of a thing that is known by the column `object`. -/
def RootSchema.articles : RootSchema where
  table := "article"
  primaryKey := "id"
  node := .relation (.belongsTo ⟨"thing_id", "thing", "object", true⟩) (.column "name")

/-- The query for a thing has two columns called `object`. -/
theorem RootSchema.articles_unclear :
    articles.flaw? = none ∧ ¬∀ u ∈ (articles.objectQuery ["a"]).uses, u.clear = true := by
  decide +kernel

end EntityFeed
