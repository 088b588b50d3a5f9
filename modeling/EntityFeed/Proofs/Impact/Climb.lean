import EntityFeed.Proofs.Impact.Finding
import EntityFeed.Proofs.Impact.Search

/-! The way from a hit to the root finds every entity that the hit reaches. The trail keeps a row for
the table it has come to, or, where it leaves a table out, a row of the table before with a value that
serves in its place. -/
namespace EntityFeed
open Sql

namespace Trail

/-- That a row serves in place of another one for the relation that a path goes on with. -/
def Serves (c : Comparison) (t : Trail) (path : List Step) (x row : Row) : Prop :=
  match t.override with
  | none => x = row
  | some column => ∃ r table outer, path = ⟨.belongsTo r, table⟩ :: outer ∧
      c.equal (row.value r.key) (x.value column) = true

/-- That a trail has found a row, or one that serves in its place. -/
structure Covers (c : Comparison) (ω : Arrangement) (db : Database) (t : Trail) (path : List Step)
    (row : Row) : Prop where
  found : ∃ scope x, t.search.Finds c ω db scope ∧ scope.lookup t.qualifier = some x ∧
    t.Serves c path x row
  leaf : ∀ leaf, t.leaf = some leaf →
    ∃ k ∈ leaf.values, c.equal (row.value leaf.column) (.str k) = true

/-- That a trail's search is accepted and has the table that it has come to. -/
structure Fits (t : Trail) (a : Aliases) : Prop where
  search : t.search.Fits a
  reached : t.qualifier ∈ t.search.names

section Steps

variable {c : Comparison} {ω : Arrangement} {db : Database} {t : Trail} {path outer : List Step}
  {row near : Row} {a : Aliases} {table : String}

/-- Going on with anything but a belongs-to takes the row itself. -/
theorem Serves.eq {x : Row} (h : t.Serves c path x row)
    (hp : ∀ r table outer, path ≠ ⟨.belongsTo r, table⟩ :: outer) :
    t.override = none ∧ x = row := by
  unfold Serves at h
  split at h
  · rename_i ho
    exact ⟨ho, h⟩
  · obtain ⟨r, table, outer, he, -⟩ := h
    exact absurd he (hp r table outer)

theorem Serves.equal_key {x : Row} {r : BelongsTo} {v : Json}
    (h : t.Serves c (⟨.belongsTo r, table⟩ :: outer) x row)
    (hv : c.equal v (row.value r.key) = true) :
    c.equal v (x.value (t.override.getD r.key)) = true := by
  unfold Serves at h
  split at h
  · rename_i ho
    rw [ho, h]
    exact hv
  · rename_i column ho
    obtain ⟨r', table', outer', he, hx⟩ := h
    cases he
    rw [ho]
    exact Comparison.equal_trans hv hx

/-- A trail that is joined with the row of a table has found it. -/
theorem Covers.of_joined {x : Row} {scope : Scope} (hf : t.search.Fits a)
    (hs : t.search.Finds c ω db scope) (hx : scope.lookup t.qualifier = some x)
    (hn : near ∈ db table) {column key : String}
    (he : c.equal (near.value column) (x.value key) = true) :
    Covers c ω db ⟨t.search.joined ⟨table, (a.next table).1⟩ ⟨(a.next table).1, column⟩
      ⟨t.qualifier, key⟩, (a.next table).1, none, none⟩ outer near := by
  have hq : (a.next table).1 ∉ scope.map (·.1) := by
    rw [hs.names_eq]
    exact fun hm => Aliases.next_notMem_names a table (hf.issued _ hm)
  refine ⟨⟨scope ++ [((a.next table).1, near)], near, hs.joined hn ?_, ?_, rfl⟩, nofun⟩
  · rw [Scope.value_of_notMem hq, Scope.value_of_lookup (r := ⟨t.qualifier, key⟩) hx]
    exact he
  · exact lookup_append_of_notMem hq near []

theorem Covers.pastBelongsTo {r : BelongsTo}
    (h : t.Covers c ω db (⟨.belongsTo r, table⟩ :: outer) row) (hf : t.search.Fits a)
    (hn : near ∈ db table) (hr : row ∈ (Relation.belongsTo r).follow c db near) :
    (t.pastBelongsTo r table (a.next table).1).Covers c ω db outer near := by
  have he : c.equal (near.value r.column) (row.value r.key) = true := (List.mem_filter.mp hr).2
  obtain ⟨scope, x, hs, hx, hv⟩ := h.found
  have hj : Covers c ω db ⟨t.search.joined ⟨table, (a.next table).1⟩
      ⟨(a.next table).1, r.column⟩ ⟨t.qualifier, t.override.getD r.key⟩, (a.next table).1, none,
      none⟩ outer near :=
    .of_joined hf hs hx hn (hv.equal_key he)
  unfold Trail.pastBelongsTo
  cases hl : t.leaf with
  | none => exact hj
  | some leaf =>
    dsimp only
    split
    · -- The values of the leaf are those of the key that the belongs-to follows.
      rename_i hc
      obtain ⟨k, hk, hek⟩ := h.leaf leaf hl
      rw [hc] at hek
      exact ⟨⟨_, near, Search.finds_start hn ⟨k, hk, Comparison.equal_trans he hek⟩,
        List.lookup_cons_self, rfl⟩, nofun⟩
    · exact hj

theorem Covers.pastHasMany {r : HasMany}
    (h : t.Covers c ω db (⟨.hasMany r, table⟩ :: outer) row) (hf : t.search.Fits a)
    (hn : near ∈ db table) (hr : row ∈ (Relation.hasMany r).follow c db near) :
    (t.pastHasMany r table (a.next table).1).Covers c ω db outer near := by
  have he : c.equal (near.value r.column) (row.value r.key) = true := (List.mem_filter.mp hr).2
  obtain ⟨scope, x, hs, hx, hv⟩ := h.found
  obtain ⟨ho, rfl⟩ := hv.eq (by rintro r' table' outer' ⟨⟩)
  refine .of_joined hf hs hx hn ?_
  rw [ho]
  exact he

/-- Where a has-many is left out, a row of its table serves in place of the row before it. -/
theorem Covers.skipHasMany {r : HasMany}
    (h : t.Covers c ω db (⟨.hasMany r, table⟩ :: outer) row)
    (hb : belongsToOn r.column outer = true) (hr : row ∈ (Relation.hasMany r).follow c db near) :
    (t.skipHasMany r).Covers c ω db outer near := by
  have he : c.equal (near.value r.column) (row.value r.key) = true := (List.mem_filter.mp hr).2
  obtain ⟨scope, x, hs, hx, hv⟩ := h.found
  obtain ⟨-, rfl⟩ := hv.eq (by rintro r' table' outer' ⟨⟩)
  unfold belongsToOn at hb
  split at hb
  · rename_i b table' outer'
    rw [beq_iff_eq] at hb
    exact ⟨⟨scope, x, hs, hx, b, table', outer', rfl, hb ▸ he⟩, nofun⟩
  · contradiction

theorem Fits.pastBelongsTo (h : t.Fits a) (r : BelongsTo) (table : String) :
    (t.pastBelongsTo r table (a.next table).1).Fits (a.next table).2 := by
  have hj : Fits ⟨t.search.joined ⟨table, (a.next table).1⟩
      ⟨(a.next table).1, r.column⟩ ⟨t.qualifier, t.override.getD r.key⟩, (a.next table).1, none,
      none⟩ (a.next table).2 :=
    ⟨h.search.joined table _ _ h.reached, Search.mem_names_joined _ _ _ _⟩
  unfold Trail.pastBelongsTo
  cases hl : t.leaf with
  | none => exact hj
  | some leaf =>
    dsimp only
    split
    · exact ⟨Search.fits_start List.mem_cons_self, List.mem_cons_self⟩
    · exact hj

theorem Fits.pastHasMany (h : t.Fits a) (r : HasMany) (table : String) :
    (t.pastHasMany r table (a.next table).1).Fits (a.next table).2 :=
  ⟨h.search.joined table _ _ h.reached, Search.mem_names_joined _ _ _ _⟩

end Steps
end Trail

/-- That a discovery's query is accepted. -/
structure Discovery.Fits (d : Discovery) (a : Aliases) : Prop where
  search : d.search.Fits a
  reached : d.id.qualifier ∈ d.search.names

theorem climb_fits (s : RootSchema) {path : List Step} {t : Trail} {a : Aliases} (h : t.Fits a) :
    (climb s path t a).1.Fits (climb s path t a).2 := by
  induction path generalizing t a with
  | nil => exact ⟨h.search, h.reached⟩
  | cons step outer ih =>
    obtain ⟨r, table⟩ := step
    cases r with
    | belongsTo r =>
      rw [climb]
      exact ih (h.pastBelongsTo r table)
    | hasMany r =>
      rw [climb]
      split
      · exact ⟨h.search, h.reached⟩
      · split
        · exact ih ⟨h.search, h.reached⟩
        · exact ih (h.pastHasMany r table)

/-- A climb finds the ids of the root rows that enclose what it has started from. -/
theorem climb_finds {c : Comparison} {ω : Arrangement} {db : Database} {s : RootSchema} {id : String}
    {path : List Step} {t : Trail} {a : Aliases} {row : Row} (hi : s.Encloses c db id path row)
    (ht : t.Covers c ω db path row) (hf : t.Fits a) :
    ∃ scope, (climb s path t a).1.search.Finds c ω db scope ∧
      c.equal (scope.value (climb s path t a).1.id) (.str id) = true := by
  induction path generalizing t a row with
  | nil =>
    obtain ⟨scope, x, hs, hx, hv⟩ := ht.found
    obtain ⟨-, rfl⟩ := hv.eq nofun
    refine ⟨scope, hs, ?_⟩
    rw [climb, Scope.value_eq_of_lookup (r := ⟨t.qualifier, s.primaryKey⟩) hx]
    exact hi.2
  | cons step outer ih =>
    obtain ⟨r, table⟩ := step
    obtain ⟨near, hn, hr, hi⟩ := hi
    cases r with
    | belongsTo r =>
      rw [climb]
      exact ih hi (ht.pastBelongsTo hf.search hn hr) (hf.pastBelongsTo r table)
    | hasMany r =>
      rw [climb]
      split
      · -- The outermost relation joins on the root's key, which the row has in its own column.
        rename_i hd
        rw [Bool.and_eq_true, List.isEmpty_iff, beq_iff_eq] at hd
        obtain ⟨rfl, hc⟩ := hd
        obtain ⟨scope, x, hs, hx, hv⟩ := ht.found
        obtain ⟨ho, rfl⟩ := hv.eq (by rintro r' table' outer' ⟨⟩)
        have he : c.equal (near.value r.column) (x.value r.key) = true := (List.mem_filter.mp hr).2
        refine ⟨scope, hs, ?_⟩
        rw [Scope.value_eq_of_lookup (r := ⟨t.qualifier, t.override.getD r.key⟩) hx, ho]
        rw [hc] at he
        exact Comparison.equal_of_equal he hi.2
      · split
        · rename_i hb
          exact ih hi (ht.skipHasMany hb hr) ⟨hf.search, hf.reached⟩
        · exact ih hi (ht.pastHasMany hf.search hn hr) (hf.pastHasMany r table)

section Select

variable {c : Comparison} {ω : Arrangement} {db : Database} {d : Discovery}

theorem Discovery.Fits.select_scoped {a : Aliases} (h : d.Fits a) : d.select.scoped = true := by
  have hr : ∀ r : ColumnRef, r.qualifier ∈ d.search.names → r.resolves d.search.header = true := by
    intro r hm
    rw [ColumnRef.resolves, Search.lookup_header hm]
  have hid := hr d.id h.reached
  have hsource := hr ⟨d.search.source.qualifier, d.search.column⟩ List.mem_cons_self
  change (Joined.scopedAll [(d.search.source.qualifier, none)] d.search.joinedTables &&
    [Output.mk (.value (.column d.id)) "id"].all (fun o =>
      o.selection.resolves d.search.header (some d.id)) &&
    ColumnRef.resolves d.search.header ⟨d.search.source.qualifier, d.search.column⟩ &&
    ColumnRef.resolves d.search.header d.id) = true
  simp [h.search.accepted, Selection.resolves, hid, hsource]

/-- What a search has found is in a group of rows that its query gives. -/
theorem Discovery.exists_mem_rows {scope : Scope} (h : d.search.Finds c ω db scope) :
    ∃ v, [("id", v)] ∈ d.select.rows c ω db ∧ c.key v = c.key (scope.value d.id) := by
  have hm : scope ∈ ω.arrange ((Joined.extendAll c ω db d.search.joinedTables
      ((db d.search.source.table).map fun row => [(d.search.source.qualifier, row)])).filter
        (Membership.holds c ⟨⟨d.search.source.qualifier, d.search.column⟩, d.search.values⟩)) :=
    (ω.perm _).mem_iff.mpr (List.mem_filter.mpr h)
  have hg := mem_groups_of_mem (fun s : Scope => c.key (s.value d.id)) hm
  obtain ⟨x, -, hx, -⟩ := exists_head?_of_mem_groups hg
  have hk := (List.mem_filter.mp (List.mem_of_head? hx)).2
  refine ⟨x.value d.id, ?_, of_decide_eq_true hk⟩
  refine List.mem_map.mpr ⟨_, hg, ?_⟩
  simp only [outputRow, Selection.valueOf, Expr.value, List.map_cons, List.map_nil,
    List.headD_eq_head?_getD, hx, Option.getD_some]

/-- A row of the query holds an id that its search has found. -/
theorem Discovery.exists_finds {out : Row} (h : out ∈ d.select.rows c ω db) :
    ∃ scope, d.search.Finds c ω db scope ∧ out = [("id", scope.value d.id)] := by
  obtain ⟨g, hg, rfl⟩ := List.mem_map.mp h
  obtain ⟨x, hx, hh, -⟩ := exists_head?_of_mem_groups hg
  refine ⟨x, List.mem_filter.mp ((ω.perm _).mem_iff.mp hx), ?_⟩
  simp only [outputRow, Selection.valueOf, Expr.value, List.map_cons, List.map_nil,
    List.headD_eq_head?_getD, hh, Option.getD_some]

end Select
end EntityFeed
