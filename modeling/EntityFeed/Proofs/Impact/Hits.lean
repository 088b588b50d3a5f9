import EntityFeed.Proofs.Impact.Completeness
import EntityFeed.Proofs.Impact.Sites
import EntityFeed.Proofs.Sql.Template

/-! What an event hits, and what becomes of each hit. A direct hit gives its key values as ids; every
other hit becomes one branch of the query, which is bound to its key values and to nothing else. -/
namespace EntityFeed
open Sql

namespace ChangeEvent

/-- That an event hits a belongs-to: a row behind it appears or disappears and no foreign key keeps
other rows from referring to it, or a column of it changes that the relation looks at. -/
def HitsBelongsTo (e : ChangeEvent) (r : BelongsTo) (node : Node) : Prop :=
  e.table = r.table ∧
    ((e.action = .insert ∨ e.action = .delete) ∧ r.guarded = false ∨
      e.action = .update ∧ ∃ column ∈ e.changedColumns,
        column ∈ node.localColumns ∨ column = r.key ∧ r.guarded = false)

/-- That an event hits a has-many: a row behind it appears, disappears or changes in a column that the
relation looks at. -/
def HitsHasMany (e : ChangeEvent) (r : HasMany) (node : Node) : Prop :=
  e.table = r.table ∧
    (e.action = .insert ∨ e.action = .delete ∨
      e.action = .update ∧ ∃ column ∈ e.changedColumns,
        column = r.key ∨ column ∈ node.localColumns)

def Hits (e : ChangeEvent) : Relation → Node → Prop
  | .belongsTo r, node => e.HitsBelongsTo r node
  | .hasMany r, node => e.HitsHasMany r node

theorem touches_iff {e : ChangeEvent} {columns : List String} :
    e.touches columns = true ↔ ∃ column ∈ e.changedColumns, column ∈ columns := by
  simp [touches]

end ChangeEvent

theorem Visit.hit_iff {e : ChangeEvent} {v : Visit} :
    v.hit e = true ↔ e.Hits v.relation v.node := by
  obtain ⟨r, table, node, path⟩ := v
  cases r with
  | belongsTo r =>
    cases ha : e.action <;>
      simp [Visit.hit, ChangeEvent.Hits, ChangeEvent.HitsBelongsTo, Visit.watchesRows, Visit.watched,
        Relation.table, ChangeEvent.touches_iff, ha]
    cases r.guarded <;> simp [or_comm]
  | hasMany r =>
    cases ha : e.action <;>
      simp [Visit.hit, ChangeEvent.Hits, ChangeEvent.HitsHasMany, Visit.watchesRows, Visit.watched,
        Relation.table, ChangeEvent.touches_iff, ha]

namespace RootSchema

/-- That an event changes a root row so that its entity can show it. -/
def RootHit (s : RootSchema) (e : ChangeEvent) : Prop :=
  e.table = s.table ∧
    (e.action = .insert ∨ e.action = .delete ∨
      e.action = .update ∧ ∃ column ∈ e.changedColumns,
        column = s.primaryKey ∨ column ∈ s.node.localColumns)

instance (s : RootSchema) (e : ChangeEvent) : Decidable (s.RootHit e) :=
  inferInstanceAs (Decidable (_ ∧ _))

/-- That an event hits the relation at a position. -/
def HitAt (s : RootSchema) (e : ChangeEvent) (p : List Nat) : Prop :=
  ∃ r node, s.node.at? p = some (.relation r node) ∧ e.Hits r node

/-- That the relation at a position joins on the key of the root row itself. -/
def DirectAt (s : RootSchema) (p : List Nat) : Prop :=
  s.node.ObjectsAbove p ∧
    ∃ r node, s.node.at? p = some (.relation r node) ∧ r.column = s.primaryKey

/-- The values that an event has for the key of the relation at a position. -/
def keyValuesAt (s : RootSchema) (e : ChangeEvent) (p : List Nat) : List String :=
  match s.node.at? p with
  | some (.relation r _) => e.idValues r.key
  | _ => []

def sites (s : RootSchema) : List (List Nat × Visit) := s.node.sites s.table []

section Sites

variable {s : RootSchema} {e : ChangeEvent} {p : List Nat} {v : Visit}

theorem hitAt_iff (mem : (p, v) ∈ s.sites) : s.HitAt e p ↔ v.hit e = true := by
  rw [HitAt, Node.at?_of_mem_sites mem, Visit.hit_iff]
  constructor
  · rintro ⟨r, node, same, hits⟩
    obtain ⟨rfl, rfl⟩ := Node.relation.inj (Option.some.inj same)
    exact hits
  · exact fun hits => ⟨_, _, rfl, hits⟩

theorem directAt_iff (mem : (p, v) ∈ s.sites) : s.DirectAt p ↔ v.direct s = true := by
  rw [DirectAt, Node.at?_of_mem_sites mem, ← Node.path_eq_iff mem]
  simp [Visit.direct]

theorem keyValuesAt_eq (mem : (p, v) ∈ s.sites) : s.keyValuesAt e p = e.idValues v.relation.key := by
  rw [keyValuesAt, Node.at?_of_mem_sites mem]

theorem exists_mem_sites (h : s.HitAt e p) : ∃ v, (p, v) ∈ s.sites := by
  obtain ⟨r, node, here, -⟩ := h
  obtain ⟨v, mem, -⟩ := Node.exists_mem_sites here
  exact ⟨v, mem⟩

end Sites

/-- The hits that are direct, or those that are not, with their positions. -/
def hitSites (s : RootSchema) (e : ChangeEvent) (direct : Bool) : List (List Nat × Visit) :=
  s.sites.filter fun site => site.2.hit e && site.2.direct s == direct

theorem map_snd_hitSites (s : RootSchema) (e : ChangeEvent) (direct : Bool) :
    (s.hitSites e direct).map (·.2) = (s.hits e).filter (·.direct s == direct) := by
  rw [hits, visits, ← Node.map_snd_sites, List.filter_filter, List.filter_map, hitSites]
  congr 1
  exact List.filter_congr fun site _ => Bool.and_comm _ _

theorem pairwise_hitSites (s : RootSchema) (e : ChangeEvent) (direct : Bool) :
    ((s.hitSites e direct).map (·.1)).Pairwise (· < ·) :=
  List.pairwise_map.mpr ((Node.pairwise_sites s.table [] s.node).filter _)

theorem mem_map_fst_hitSites {s : RootSchema} {e : ChangeEvent} {direct : Bool} {p : List Nat} :
    p ∈ (s.hitSites e direct).map (·.1) ↔ s.HitAt e p ∧ (s.DirectAt p ↔ direct = true) := by
  constructor
  · rintro h
    obtain ⟨⟨p, v⟩, mem, rfl⟩ := List.mem_map.mp h
    obtain ⟨mem, hit⟩ := List.mem_filter.mp mem
    simp only [Bool.and_eq_true, beq_iff_eq] at hit
    exact ⟨(hitAt_iff mem).mpr hit.1, by rw [directAt_iff mem, hit.2]⟩
  · rintro ⟨hit, direct⟩
    obtain ⟨v, mem⟩ := exists_mem_sites hit
    rw [directAt_iff mem] at direct
    refine List.mem_map.mpr ⟨(p, v), List.mem_filter.mpr ⟨mem, ?_⟩, rfl⟩
    simp only [(hitAt_iff mem).mp hit, Bool.true_and, beq_iff_eq]
    exact Bool.eq_iff_iff.mpr direct

theorem flatMap_keyValuesAt (s : RootSchema) (e : ChangeEvent) (direct : Bool) :
    ((s.hitSites e direct).map (·.1)).flatMap (s.keyValuesAt e) =
      ((s.hits e).filter (·.direct s == direct)).flatMap fun v => e.idValues v.relation.key := by
  rw [← map_snd_hitSites, List.flatMap_map, List.flatMap_map]
  exact List.flatMap_congr fun site mem => keyValuesAt_eq (List.mem_of_mem_filter mem)

theorem rootRowChanged_iff {s : RootSchema} {e : ChangeEvent} :
    s.rootRowChanged e = true ↔ s.RootHit e := by
  cases ha : e.action <;> simp [rootRowChanged, RootHit, ChangeEvent.touches_iff, ha]

end RootSchema

/-- That a search and what it remembers of its hit have these values. -/
def Trail.Seeks (t : Trail) (values : List String) : Prop :=
  t.search.values = values ∧ ∀ leaf, t.leaf = some leaf → leaf.values = values

namespace Trail.Seeks

variable {t : Trail} {values : List String}

theorem pastBelongsTo (h : t.Seeks values) (r : BelongsTo) (table qualifier : String) :
    (t.pastBelongsTo r table qualifier).Seeks values := by
  refine ⟨?_, nofun⟩
  rw [Trail.pastBelongsTo]
  cases hl : t.leaf with
  | none => exact h.1
  | some leaf =>
    dsimp only
    split
    · exact h.2 leaf hl
    · exact h.1

theorem pastHasMany (h : t.Seeks values) (r : HasMany) (table qualifier : String) :
    (t.pastHasMany r table qualifier).Seeks values :=
  ⟨h.1, nofun⟩

theorem skipHasMany (h : t.Seeks values) (r : HasMany) : (t.skipHasMany r).Seeks values :=
  ⟨h.1, nofun⟩

theorem climb (h : t.Seeks values) (s : RootSchema) (path : List Step) (a : Aliases) :
    (climb s path t a).1.search.values = values := by
  induction path generalizing t a with
  | nil => exact h.1
  | cons step outer ih =>
    obtain ⟨r, table⟩ := step
    cases r with
    | belongsTo r => exact ih (h.pastBelongsTo r table _) _
    | hasMany r =>
      rw [EntityFeed.climb]
      split
      · exact h.1
      · split
        · exact ih (h.skipHasMany r) _
        · exact ih (h.pastHasMany r table _) _

end Trail.Seeks

theorem Visit.values_discovery (s : RootSchema) (e : ChangeEvent) (v : Visit) (a : Aliases) :
    (v.discovery s e a).1.search.values = e.idValues v.relation.key := by
  refine Trail.Seeks.climb ?_ s v.path _
  obtain ⟨r, table, node, path⟩ := v
  cases r with
  | belongsTo r => exact ⟨rfl, nofun⟩
  | hasMany r => exact ⟨rfl, fun leaf h => by obtain rfl := Option.some.inj h; rfl⟩

/-- A join with tables alone has nothing attached. -/
theorem Discovery.statement_select (d : Discovery) :
    ∃ c : Clauses, d.select.statement = ⟨c, []⟩ ∧ c.Plain ∧
      c.values = d.search.values.eraseDups := by
  have attached (joins : List InnerJoin) : Joined.statements
      (joins.map fun j => .table .inner j.table j.left j.right) = [] := by
    induction joins with
    | nil => simp [Joined.statements]
    | cons j rest ih => simpa [Joined.statements] using ih
  have joins (i : Nat) (joins : List InnerJoin) : Joined.clauses i
      (joins.map fun j => .table .inner j.table j.left j.right) =
      joins.map fun j => ⟨.inner, j.table.text, j.left.text, j.right.text⟩ := by
    induction joins with
    | nil => rfl
    | cons j rest ih => simp [Joined.clauses, ih]
  rw [Discovery.select, Select.statement, attached, joins]
  refine ⟨_, rfl, ⟨rfl, fun labels subs => ?_⟩, ?_⟩
  · cases labels <;> simp [Clauses.written, Fragment.written_ofText]
  · simp [Clauses.values, distinct_eq_eraseDups]

namespace RootSchema

theorem query_eq (s : RootSchema) (e : ChangeEvent) :
    (s.impact e).query = match (s.impact e).branches with
      | [] => none
      | d :: rest => some (d.select.statement.union (rest.map (·.select.statement))) := by
  rw [Impact.query, Impact.union?]
  cases (s.impact e).branches with
  | nil => rfl
  | cons d rest => simp [Query.unite?, Query.statement, Function.comp_def]

/-- There is one branch for each hit that is not direct, with the key values of the hit. -/
theorem forall₂_branches (s : RootSchema) (e : ChangeEvent) :
    List.Forall₂ (fun p d => d.search.values = s.keyValuesAt e p)
      ((s.hitSites e false).map (·.1)) (s.impact e).branches := by
  have branches : (s.impact e).branches = discoveries s e ((s.hitSites e false).map (·.2)) {} := by
    simp [impact, map_snd_hitSites]
  have found := forall₂_discoveries s e ((s.hitSites e false).map (·.2)) {}
  rw [branches]
  rw [List.forall₂_map_left_iff] at found ⊢
  refine forall₂_imp_of_mem found ?_
  rintro ⟨p, v⟩ mem d - ⟨a, rfl⟩
  rw [v.values_discovery, keyValuesAt_eq (List.mem_of_mem_filter mem)]

theorem ids_eq (s : RootSchema) (e : ChangeEvent) :
    (s.impact e).ids = (((if s.RootHit e then e.idValues s.primaryKey else []) ++
      ((s.hitSites e true).map (·.1)).flatMap (s.keyValuesAt e)).filter (· != "")).eraseDups := by
  have own : (if s.rootRowChanged e then e.idValues s.primaryKey else []) =
      if s.RootHit e then e.idValues s.primaryKey else [] := if_congr rootRowChanged_iff rfl rfl
  simp [impact, directIds, distinct_eq_eraseDups, flatMap_keyValuesAt, own]

/-- Each hit that is not direct, in pre-order, has a SELECT of its own in the query, bound to the
distinct key values of the hit and to nothing else. The ids are the values of the root's key, if the
event hits the root row, and the key values of direct hits. -/
theorem impact_of_hits (s : RootSchema) (e : ChangeEvent) :
    ∃ direct others : List (List Nat),
      direct.Pairwise (· < ·) ∧ (∀ p, p ∈ direct ↔ s.HitAt e p ∧ s.DirectAt p) ∧
      others.Pairwise (· < ·) ∧ (∀ p, p ∈ others ↔ s.HitAt e p ∧ ¬ s.DirectAt p) ∧
      (s.impact e).ids = (((if s.RootHit e then e.idValues s.primaryKey else []) ++
        direct.flatMap (s.keyValuesAt e)).filter (· != "")).eraseDups ∧
      (others = [] ∧ (s.impact e).query = none ∨
        others ≠ [] ∧ ∃ (q : Statement) (branches : List Statement), (s.impact e).query = some q ∧
          List.Forall₂ (fun p u => u.attached = [] ∧ u.clauses.unions = [] ∧
            u.values = (s.keyValuesAt e p).eraseDups) others branches ∧
          q.compile.sql = String.intercalate " UNION "
            ((Statement.numberedAll 1 branches).map (fill fun k => "$" ++ toString k)) ∧
          q.literal = String.intercalate " UNION " (branches.map (·.literal)) ∧
          q.compile.values = branches.flatMap (·.values)) := by
  have branches := s.forall₂_branches e
  refine ⟨(s.hitSites e true).map (·.1), (s.hitSites e false).map (·.1), s.pairwise_hitSites e true,
    fun p => by simp [mem_map_fst_hitSites], s.pairwise_hitSites e false,
    fun p => by simp [mem_map_fst_hitSites], s.ids_eq e, ?_⟩
  rw [query_eq]
  generalize (s.hitSites e false).map (·.1) = others at branches ⊢
  generalize (s.impact e).branches = ds at branches ⊢
  cases branches with
  | nil => exact .inl ⟨rfl, rfl⟩
  | @cons p d others rest here later =>
    have bound (p : List Nat) (d : Discovery) (same : d.search.values = s.keyValuesAt e p) :
        d.select.statement.attached = [] ∧ d.select.statement.clauses.unions = [] ∧
          d.select.statement.values = (s.keyValuesAt e p).eraseDups := by
      obtain ⟨c, statement, plain, values⟩ := d.statement_select
      rw [statement, ← same]
      exact ⟨rfl, plain.1, by simpa [Statement.values, Statement.valuesOfAll] using values⟩
    refine .inr ⟨nofun, _, (d :: rest).map (·.select.statement), rfl, ?_, ?_⟩
    · exact .cons (bound p d here) (List.forall₂_map_right_iff.mpr (later.imp bound))
    · obtain ⟨c, statement, plain, -⟩ := d.statement_select
      rw [List.map_cons, statement]
      exact ⟨Statement.fill_union plain _ _ 1, Statement.literal_union plain _,
        Statement.values_union _⟩

end RootSchema
end EntityFeed
