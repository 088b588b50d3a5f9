import EntityFeed.Impact.Hit
import EntityFeed.ObjectQuery
import EntityFeed.Proofs.Sql.Alias
import Mathlib.Data.List.Infix

/-! How relations are compiled. Every relation becomes one join with a nested query, be it for the
relation itself or for the has-many behind a belongs-to whose table is left out. -/
namespace EntityFeed
open Sql

/-- The has-many right behind a belongs-to and what is behind that, if both join on the same column
of the table between them. -/
def BelongsTo.reverse? (r : BelongsTo) : Node → Option (HasMany × Node)
  | .relation (.hasMany back) behind => if back.column = r.key then some (back, behind) else none
  | _ => none

theorem BelongsTo.eq_of_reverse? {r : BelongsTo} {node behind : Node} {back : HasMany}
    (h : r.reverse? node = some (back, behind)) :
    node = .relation (.hasMany back) behind ∧ back.column = r.key := by
  unfold reverse? at h
  split at h
  · split at h
    · rename_i hc
      cases h
      exact ⟨rfl, hc⟩
    · contradiction
  · contradiction

/-- The has-many that leads straight to where a has-many behind a belongs-to leads. -/
def BelongsTo.across (r : BelongsTo) (back : HasMany) : HasMany := ⟨r.column, back.table, back.key⟩

/-- The relation that is joined in place of a relation, and the node behind it. -/
structure Target where
  relation : Relation
  node : Node

def Relation.target (o : ObjectQueryOptions) (r : Relation) (node : Node) : Target :=
  match r with
  | .hasMany r => ⟨.hasMany r, node⟩
  | .belongsTo r =>
    match o.skipMiddleTables, r.reverse? node with
    | true, some (back, behind) => ⟨.hasMany (r.across back), behind⟩
    | _, _ => ⟨.belongsTo r, node⟩

theorem Relation.target_eq_self (o : ObjectQueryOptions) {b : BelongsTo} {node : Node}
    (h : o.skipMiddleTables = false ∨ b.reverse? node = none) :
    (Relation.belongsTo b).target o node = ⟨.belongsTo b, node⟩ := by
  rcases h with h | h
  · simp only [target, h]
  · cases ho : o.skipMiddleTables <;> simp only [target, ho, h]

theorem Relation.target_eq_across {o : ObjectQueryOptions} {b : BelongsTo} {node behind : Node}
    {back : HasMany} (ho : o.skipMiddleTables = true) (h : b.reverse? node = some (back, behind)) :
    (Relation.belongsTo b).target o node = ⟨.hasMany (b.across back), behind⟩ := by
  simp only [target, ho, h]

/-- A relation is joined as it stands, or it is a belongs-to whose table is left out. -/
theorem Relation.target_cases (o : ObjectQueryOptions) (r : Relation) (node : Node) :
    r.target o node = ⟨r, node⟩ ∨
      ∃ b back behind, r = .belongsTo b ∧ o.skipMiddleTables = true ∧
        b.reverse? node = some (back, behind) ∧
        r.target o node = ⟨.hasMany (b.across back), behind⟩ := by
  cases r with
  | hasMany m => exact .inl rfl
  | belongsTo b =>
    cases ho : o.skipMiddleTables with
    | false => exact .inl (target_eq_self o (.inl ho))
    | true =>
      cases hr : b.reverse? node with
      | none => exact .inl (target_eq_self o (.inr hr))
      | some found => exact .inr ⟨b, found.1, found.2, rfl, rfl, hr, target_eq_across ho hr⟩

theorem Node.sizeOf_properties_lt (properties : List (String × Node)) :
    sizeOf properties < sizeOf (Node.object properties) := by
  simp only [Node.object.sizeOf_spec]
  omega

theorem Relation.sizeOf_target_lt (o : ObjectQueryOptions) (r : Relation) (node : Node) :
    sizeOf (r.target o node).node < sizeOf (Node.relation r node) := by
  rcases r.target_cases o node with ht | ⟨b, back, behind, rfl, -, hr, ht⟩
  · rw [ht]
    simp only [Node.relation.sizeOf_spec]
    omega
  · obtain ⟨rfl, -⟩ := BelongsTo.eq_of_reverse? hr
    rw [ht]
    simp only [Node.relation.sizeOf_spec]
    omega

/-- The rows of the query that is joined for a relation. -/
def Relation.frame : Relation → Frame
  | .belongsTo _ => .single
  | .hasMany _ => .grouped

/-- The value of a relation, given the join for it. -/
def Relation.projection : Relation → Joined → Projection
  | .belongsTo _, j => .ofSingle j
  | .hasMany _, j => .ofGroup j

/-- The join that a target becomes for a row under `qualifier`, under the aliases that come next. -/
def Target.join (o : ObjectQueryOptions) (qualifier : String) (t : Target) (a : Aliases) :
    Joined × Aliases :=
  nestedQuery t.relation.frame ⟨qualifier, t.relation.column⟩ t.relation.table t.relation.key
    (fun inner a => t.node.project o inner a) a

theorem Node.project_relation (o : ObjectQueryOptions) (qualifier : String) (r : Relation)
    (node : Node) (a : Aliases) :
    (Node.relation r node).project o qualifier a =
      ((r.target o node).relation.projection ((r.target o node).join o qualifier a).1,
        ((r.target o node).join o qualifier a).2) := by
  cases r with
  | hasMany m =>
    rw [project]
    rfl
  | belongsTo b =>
    cases node with
    | column name =>
      rw [project, Relation.target_eq_self o (.inr rfl)]
      · rfl
      · rintro back behind ⟨⟩
    | object properties =>
      rw [project, Relation.target_eq_self o (.inr rfl)]
      · rfl
      · rintro back behind ⟨⟩
    | relation r' behind =>
      cases r' with
      | belongsTo b' =>
        rw [project, Relation.target_eq_self o (.inr rfl)]
        · rfl
        · rintro back behind' ⟨⟩
      | hasMany back =>
        rw [project]
        split
        · rename_i h
          obtain ⟨ho, hc⟩ := Bool.and_eq_true_iff.mp h
          have hr : b.reverse? (.relation (.hasMany back) behind) = some (back, behind) :=
            if_pos (beq_iff_eq.mp hc)
          rw [Relation.target_eq_across ho hr]
          rfl
        · rename_i h
          have hr : o.skipMiddleTables = false ∨
              b.reverse? (.relation (.hasMany back) behind) = none := by
            simpa [BelongsTo.reverse?, or_iff_not_imp_left] using h
          rw [Relation.target_eq_self o hr]
          rfl

theorem Node.visits_relation (table : String) (path : List Step) (r : Relation) (node : Node) :
    (Node.relation r node).visits table path =
      ⟨r, table, node, path⟩ :: node.visits r.table (⟨r, table⟩ :: path) := by
  rw [visits]

/-- The join of a relation is for one of the relations of its node, and what is behind it is behind
that relation. -/
theorem Relation.exists_visit_target (o : ObjectQueryOptions) (r : Relation) (node : Node)
    (table : String) (path : List Step) :
    ∃ v ∈ (Node.relation r node).visits table path, ∃ path',
      v.relation.key = (r.target o node).relation.key ∧
      (r.target o node).node.visits (r.target o node).relation.table path' ⊆
        (Node.relation r node).visits table path := by
  rw [Node.visits_relation]
  rcases r.target_cases o node with ht | ⟨b, back, behind, rfl, -, hr, ht⟩
  · rw [ht]
    exact ⟨_, List.mem_cons_self, _, rfl, List.subset_cons_self _ _⟩
  · obtain ⟨rfl, -⟩ := BelongsTo.eq_of_reverse? hr
    rw [ht, Node.visits_relation]
    refine ⟨_, List.mem_cons_of_mem _ List.mem_cons_self,
      ⟨.hasMany back, b.table⟩ :: ⟨.belongsTo b, table⟩ :: path, rfl, ?_⟩
    intro v h
    exact List.mem_cons_of_mem _ (List.mem_cons_of_mem _ h)

mutual

/-- Aliases are only added. -/
theorem Node.names_suffix_project (o : ObjectQueryOptions) (qualifier : String) (node : Node)
    (a : Aliases) : a.names <:+ (node.project o qualifier a).2.names := by
  match node with
  | .column name =>
    rw [project]
  | .object properties =>
    rw [project]
    exact names_suffix_projectAll o qualifier properties a
  | .relation r node =>
    rw [project_relation]
    have h := names_suffix_project o (a.next (r.target o node).relation.table).1
      (r.target o node).node (a.next (r.target o node).relation.table).2
    exact ((Aliases.names_suffix_next a _).trans h).trans (Aliases.names_suffix_next _ _)
termination_by sizeOf node
decreasing_by
  · exact Node.sizeOf_properties_lt properties
  · exact Relation.sizeOf_target_lt o r node

theorem Node.names_suffix_projectAll (o : ObjectQueryOptions) (qualifier : String)
    (properties : List (String × Node)) (a : Aliases) :
    a.names <:+ (projectAll o qualifier properties a).2.names := by
  match properties with
  | [] =>
    rw [projectAll]
  | (name, node) :: rest =>
    rw [projectAll]
    exact (names_suffix_project o qualifier node a).trans
      (names_suffix_projectAll o qualifier rest _)
termination_by sizeOf properties

end

/-- The join of a target is under an alias that has not been issued before. -/
theorem Target.outer_notMem (o : ObjectQueryOptions) (t : Target) {a : Aliases} {qs : List String}
    (ha : ∀ q ∈ qs, q ∈ a.names) :
    ((t.node.project o (a.next t.relation.table).1 (a.next t.relation.table).2).2.next
      t.relation.table).1 ∉ qs := by
  have hs := (Aliases.names_suffix_next a t.relation.table).trans
    (t.node.names_suffix_project o (a.next t.relation.table).1 (a.next t.relation.table).2)
  intro hm
  exact Aliases.next_notMem_names _ _ (hs.subset (ha _ hm))

end EntityFeed
