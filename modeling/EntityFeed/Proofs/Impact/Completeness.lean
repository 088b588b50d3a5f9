import EntityFeed.Impact.Basic
import EntityFeed.Proofs.Impact.Climb

/-! No entity that a change alters is missed: its id is among those that the event gives away, or the
query finds it in the changed database. -/
namespace EntityFeed
open Sql

section Discoveries

variable {c : Comparison} {ω : Arrangement} {db : Database} {s : RootSchema} {e : ChangeEvent}

theorem Visit.trail_fits (v : Visit) (e : ChangeEvent) (a : Aliases) :
    (v.trail e (a.next v.table).1).Fits (a.next v.table).2 := by
  unfold trail
  split <;> exact ⟨Search.fits_start List.mem_cons_self, List.mem_cons_self⟩

theorem Visit.discovery_fits (v : Visit) (s : RootSchema) (e : ChangeEvent) (a : Aliases) :
    (v.discovery s e a).1.Fits (v.discovery s e a).2 :=
  climb_fits s (v.trail_fits e a)

/-- The query for a relation finds the entities that the relation reaches. -/
theorem Visit.Reaches.discovery_finds {id : String} {v : Visit} (h : v.Reaches c db s e id)
    (a : Aliases) :
    ∃ scope, (v.discovery s e a).1.search.Finds c ω db scope ∧
      c.equal (scope.value (v.discovery s e a).1.id) (.str id) = true := by
  obtain ⟨near, hn, hi, hk⟩ := h
  refine climb_finds hi ?_ (v.trail_fits e a)
  have hs : ∀ leaf : Option Leaf, (∀ l, leaf = some l →
      ∃ k ∈ l.values, c.equal (near.value l.column) (.str k) = true) →
      Trail.Covers c ω db ⟨⟨⟨v.table, (a.next v.table).1⟩, v.relation.column,
        e.idValues v.relation.key, []⟩, (a.next v.table).1, none, leaf⟩ v.path near := by
    intro leaf hl
    exact ⟨⟨_, near, Search.finds_start hn hk, List.lookup_cons_self, rfl⟩, hl⟩
  obtain ⟨r, table, node, path⟩ := v
  cases r with
  | belongsTo b => exact hs none nofun
  | hasMany m =>
    refine hs (some ⟨m.column, _⟩) ?_
    rintro _ ⟨⟩
    exact hk

/-- There is one query for each of some relations, in order. -/
theorem forall₂_discoveries (s : RootSchema) (e : ChangeEvent) (vs : List Visit) (a : Aliases) :
    List.Forall₂ (fun v d => ∃ b, d = (v.discovery s e b).1) vs (discoveries s e vs a) := by
  induction vs generalizing a with
  | nil => exact .nil
  | cons v rest ih => exact .cons ⟨a, rfl⟩ (ih _)

end Discoveries

theorem Sql.mem_distinct {x : String} {l : List String} : x ∈ distinct l ↔ x ∈ l := by
  induction l with
  | nil => rfl
  | cons y rest ih =>
    rw [distinct, List.mem_cons, List.mem_cons, List.mem_filter, ih]
    by_cases h : x = y <;> simp [h]

section Union

variable {c : Comparison} {ω : Arrangement} {db : Database}

theorem Sql.Query.exists_unite? {q : Select} {qs : List Select} (h : q ∈ qs) :
    ∃ u, unite? qs = some u ∧ u.selects = qs := by
  cases qs with
  | nil => contradiction
  | cons first others => exact ⟨⟨first, others⟩, rfl, rfl⟩

/-- A union of accepted queries has a row with the same keys as any row of one of them. -/
theorem Sql.Query.exists_mem_answer? {u : Query} (hs : ∀ q ∈ u.selects, q.scoped = true) {q : Select}
    (hq : q ∈ u.selects) {row : Row} (hr : row ∈ q.rows c ω db) :
    ∃ rows, u.answer? c ω db = some rows ∧ ∃ other ∈ rows,
      (∃ p ∈ u.selects, other ∈ p.rows c ω db) ∧
      other.map (fun (_, v) => c.key v) = row.map fun (_, v) => c.key v := by
  have hm : row ∈ u.selects.flatMap fun q => q.rows c ω db := List.mem_flatMap.mpr ⟨q, hq, hr⟩
  have hg := mem_groups_of_mem (fun row : Row => row.map fun (_, v) => c.key v) hm
  obtain ⟨other, ho, hh, -⟩ := exists_head?_of_mem_groups hg
  have hk := (List.mem_filter.mp (List.mem_of_head? hh)).2
  refine ⟨_, if_pos (List.all_eq_true.mpr hs), other, ?_, List.mem_flatMap.mp ho, of_decide_eq_true hk⟩
  refine List.mem_map.mpr ⟨_, hg, ?_⟩
  rw [List.headD_eq_head?_getD, hh, Option.getD_some]

end Union

namespace RootSchema

variable {s : RootSchema} {e : ChangeEvent}

/-- What the event gives away if an entity is reached by a direct hit. -/
theorem mem_idValues_of_direct {db : Database} {id : String} {v : Visit}
    (h : v.Reaches .byIdText db s e id) (hd : v.direct s = true) :
    id ∈ e.idValues v.relation.key := by
  rw [Visit.direct, Bool.and_eq_true, List.isEmpty_iff, beq_iff_eq] at hd
  obtain ⟨near, -, hi, k, hk, he⟩ := h
  rw [hd.1] at hi
  rw [hd.2] at he
  obtain ⟨k', hk', hs⟩ := Comparison.byIdText_equal.mp he
  obtain ⟨id', hid, hs'⟩ := Comparison.byIdText_equal.mp hi.2
  cases hs
  cases hs'
  rw [hk'] at hid
  cases hid
  exact hk

/-- What the union of all queries gives if an entity is reached by a hit that is not direct. -/
theorem exists_mem_answer? {db : Database} {id : String} {v : Visit} (hv : v ∈ s.hits e)
    (hd : v.direct s = false) (h : v.Reaches .byIdText db s e id) :
    ∃ q, (s.impact e).union? = some q ∧ ∀ ω, ∃ rows, q.answer? .byIdText ω db = some rows ∧
      id ∈ Row.idColumn rows "id" := by
  have hall := forall₂_discoveries s e ((s.hits e).filter (!·.direct s)) {}
  have hmem : v ∈ (s.hits e).filter (!·.direct s) := List.mem_filter.mpr ⟨hv, by rw [hd]; rfl⟩
  obtain ⟨d, hdm, a, rfl⟩ := UpToOrder.exists_of_mem ⟨_, hall.flip, .refl _⟩ hmem
  obtain ⟨q, hq, hs⟩ := Query.exists_unite? (List.mem_map_of_mem (f := Discovery.select) hdm)
  have hbranch : ∀ p ∈ q.selects, ∃ w : Visit, ∃ b, p = (w.discovery s e b).1.select := by
    intro p hp
    rw [hs] at hp
    obtain ⟨d, hd, rfl⟩ := List.mem_map.mp hp
    obtain ⟨w, -, b, rfl⟩ := UpToOrder.exists_of_mem ⟨_, hall, .refl _⟩ hd
    exact ⟨w, b, rfl⟩
  refine ⟨q, hq, ?_⟩
  intro ω
  obtain ⟨scope, hf, he⟩ := h.discovery_finds (ω := ω) a
  obtain ⟨w, hr, hk⟩ := Discovery.exists_mem_rows hf
  obtain ⟨rows, ha, other, ho, ⟨p, hp, hpr⟩, hkeys⟩ := Query.exists_mem_answer? (u := q) (by
    intro p hp
    obtain ⟨w, b, rfl⟩ := hbranch p hp
    exact (w.discovery_fits s e b).select_scoped)
    (hs ▸ List.mem_map_of_mem (f := Discovery.select) hdm) hr
  obtain ⟨w', b, rfl⟩ := hbranch p hp
  obtain ⟨scope', -, rfl⟩ := Discovery.exists_finds hpr
  refine ⟨rows, ha, List.mem_filterMap.mpr ⟨_, ho, ?_⟩⟩
  obtain ⟨id', hi, hi'⟩ := Comparison.byIdText_equal.mp he
  cases hi'
  simp only [List.map_cons, List.map_nil, List.cons.injEq, and_true] at hkeys
  exact (hkeys.trans hk).trans hi

/-- Every entity that a change alters is given away by the event or found by the query in the changed
database. -/
theorem impact_complete (s : RootSchema) {e : ChangeEvent} {before after : Database}
    (h : Change e before after)
    (hg : ∀ v ∈ s.visits, v.Guarded .byIdText before ∧ v.Guarded .byIdText after) {id : String}
    (hne : id ≠ "")
    (hd : ¬UpToOrder (s.node.Alike Json.Equal) (s.entities .byIdText before id)
      (s.entities .byIdText after id)) :
    id ∈ (s.impact e).ids ∨ ∃ q, (s.impact e).union? = some q ∧ ∀ ω, ∃ rows,
      q.answer? .byIdText ω after = some rows ∧ id ∈ Row.idColumn rows "id" := by
  have hids : id ∈ s.directIds e → id ∈ (s.impact e).ids := by
    intro hm
    exact mem_distinct.mpr (List.mem_filter.mpr ⟨hm, by simpa using hne⟩)
  by_cases hr : s.rootRowChanged e = true ∧ id ∈ e.idValues s.primaryKey
  · left
    apply hids
    rw [directIds, if_pos hr.1]
    exact List.mem_append_left _ hr.2
  by_cases hv : ∃ v ∈ s.visits, v.hit e = true ∧ v.Reaches .byIdText after s e id
  · obtain ⟨v, hm, hh, hf⟩ := hv
    have hhit : v ∈ s.hits e := List.mem_filter.mpr ⟨hm, hh⟩
    cases hdir : v.direct s with
    | true =>
      left
      apply hids
      refine List.mem_append_right _ (List.mem_flatMap.mpr ⟨v, ?_, mem_idValues_of_direct hf hdir⟩)
      exact List.mem_filter.mpr ⟨hhit, hdir⟩
    | false => exact .inr (exists_mem_answer? hhit hdir hf)
  · -- Without a changed root row or a hit that reaches it, the entity would be the same.
    refine absurd (upToOrder_entities h hg ?_ ?_) hd
    · exact fun hc hm => hr ⟨hc, hm⟩
    · exact fun v hm hh hf => hv ⟨v, hm, hh, hf⟩

/-- People with the title of their team. -/
def roster : RootSchema where
  table := "people"
  primaryKey := "id"
  node := .relation (.belongsTo ⟨"team_id", "teams", "id", true⟩) (.column "title")

def rosterRows (title : String) : Database
  | "people" => [[("id", .str "2"), ("team_id", .str "x")]]
  | "teams" => [[("id", .str "x"), ("title", .str title)]]
  | _ => []

theorem guarded_roster (title : String) :
    ∀ v ∈ roster.visits, v.Guarded .byIdText (rosterRows title) := by
  simp only [visits, roster, Node.visits, List.forall_mem_cons, Visit.Guarded]
  refine ⟨?_, nofun⟩
  rintro b ⟨⟩ -
  refine ⟨List.pairwise_singleton _ _, ?_⟩
  intro row hr _
  rw [List.mem_singleton.mp hr]
  exact List.cons_ne_nil _ _

/-- The title of a team is changed, and the query finds the person in it. -/
theorem roster_retitled :
    "2" ∈ (roster.impact (.replacement "teams" [("id", .str "x"), ("title", .str "Red")]
        [("id", .str "x"), ("title", .str "Blue")])).ids ∨
      ∃ q, (roster.impact (.replacement "teams" [("id", .str "x"), ("title", .str "Red")]
        [("id", .str "x"), ("title", .str "Blue")])).union? = some q ∧ ∀ ω, ∃ rows,
          q.answer? .byIdText ω (rosterRows "Red") = some rows ∧ "2" ∈ Row.idColumn rows "id" := by
  refine impact_complete roster ⟨.replacement _ _ _ ?_, ⟨[], [], rfl, rfl⟩, ?_⟩
    (fun v hv => ⟨guarded_roster "Blue" v hv, guarded_roster "Red" v hv⟩) (by decide) ?_
  · intro column
    simp only [Members.get?, List.lookup_cons, List.lookup_nil]
    split
    · rfl
    · split <;> rfl
  · intro table ht
    unfold rosterRows
    split
    · rfl
    · exact absurd rfl ht
    · rfl
  · intro h
    have hv : UpToOrder (roster.node.Alike Json.Equal) [.str "Blue"] [.str "Red"] := h
    obtain ⟨w, hw, ha⟩ := hv.eq_singleton
    cases hw
    simp [roster, Node.Alike, Json.Equal, Json.same] at ha

end RootSchema
end EntityFeed
