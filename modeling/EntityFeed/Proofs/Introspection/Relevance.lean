import EntityFeed.Proofs.Impact.Hits
import EntityFeed.Proofs.Introspection.Tables
import EntityFeed.Proofs.Json.Sameness

/-! What an event must bring to matter. All that is looked at to find out which entities a change may
touch is listed among the tables of the schema: a change of anything else has no impact, and the other
columns of an update do not show in the impact. -/
namespace EntityFeed

/-- Values that are identical or the same JSON can stand for each other in a comparison. -/
theorem Json.Equal.same_eq {a a' b b' : Json} (left : a.Equal a') (right : b.Equal b')
    (ha : a.IsSettled) (ha' : a'.IsSettled) (hb : b.IsSettled) (hb' : b'.IsSettled) :
    a.same b = a'.same b' := by
  have first : a.same b = a'.same b := by
    rcases left with rfl | left
    · rfl
    · exact same_congr_left b ha ha' left
  rcases right with rfl | right
  · exact first
  · exact first.trans (same_congr_right a' hb hb' right)

namespace ChangeEvent

/-- That every object in the images of an event, the images included, has each of its keys once. This is
so in every event that has been read. -/
def Settled (e : ChangeEvent) : Prop :=
  ∀ row ∈ e.data.toList ++ e.dataOld.toList, (Json.obj row).IsSettled

/-- That two images, of which either may be absent, have the same value in a column or both have none. -/
def SameIn (column : String) (row row' : Option Row) : Prop :=
  Option.Rel Json.Equal (row.bind (·.get? column)) (row'.bind (·.get? column))

/-- That two events have the same images as far as a column is concerned. -/
structure AgreeIn (e e' : ChangeEvent) (column : String) : Prop where
  data : SameIn column e.data e'.data
  dataOld : SameIn column e.dataOld e'.dataOld

variable {e e' : ChangeEvent} {column : String}

theorem Settled.data (h : e.Settled) {v : Json} (hv : e.data.bind (·.get? column) = some v) :
    v.IsSettled := by
  obtain ⟨row, hrow, found⟩ := Option.bind_eq_some_iff.mp hv
  have settled := h row (List.mem_append_left _ (Option.mem_toList.mpr hrow))
  exact settled.2.of_mem (Json.mem_of_lookup found)

theorem Settled.dataOld (h : e.Settled) {v : Json} (hv : e.dataOld.bind (·.get? column) = some v) :
    v.IsSettled := by
  obtain ⟨row, hrow, found⟩ := Option.bind_eq_some_iff.mp hv
  have settled := h row (List.mem_append_right _ (Option.mem_toList.mpr hrow))
  exact settled.2.of_mem (Json.mem_of_lookup found)

theorem mem_changedColumns (hs : e.Settled) (hu : e.action = .update) :
    column ∈ e.changedColumns ↔ ∃ v, e.data.bind (·.get? column) = some v ∧
      unchanged e.dataOld column v = false := by
  obtain ⟨table, action, data, dataOld⟩ := e
  obtain rfl : action = .update := hu
  cases data with
  | none => simp [changedColumns]
  | some row =>
    have nodup : (row.map (·.1)).Nodup :=
      (hs row (List.mem_append_left _ (List.mem_singleton_self row))).1
    simp only [changedColumns, List.mem_map, List.mem_filter, Bool.not_eq_true', Option.bind_some]
    constructor
    · rintro ⟨m, ⟨hm, changed⟩, rfl⟩
      exact ⟨m.2, Json.lookup_of_mem nodup hm, changed⟩
    · rintro ⟨v, found, changed⟩
      exact ⟨(column, v), ⟨Json.mem_of_lookup found, changed⟩, rfl⟩

theorem SameIn.absent_or {row row' : Option Row} (h : SameIn column row row') :
    row.bind (·.get? column) = none ∧ row'.bind (·.get? column) = none ∨
      ∃ v v', row.bind (·.get? column) = some v ∧ row'.bind (·.get? column) = some v' ∧
        v.Equal v' := by
  rw [SameIn] at h
  generalize row.bind (·.get? column) = found, row'.bind (·.get? column) = found' at h
  cases h with
  | none => exact .inl ⟨rfl, rfl⟩
  | some same => exact .inr ⟨_, _, rfl, rfl, same⟩

theorem SameIn.idText?_eq {row row' : Option Row} (h : SameIn column row row') :
    (row.bind (·.get? column)).bind Json.idText? = (row'.bind (·.get? column)).bind Json.idText? := by
  obtain ⟨none, none'⟩ | ⟨v, v', found, found', same⟩ := h.absent_or
  · rw [none, none']
  · rw [found, found', Option.bind_some, Option.bind_some, same.idText?]

theorem idValues_eq (e : ChangeEvent) (column : String) :
    e.idValues column = ((e.data.bind (·.get? column)).bind Json.idText?).toList ++
      ((e.dataOld.bind (·.get? column)).bind Json.idText?).toList := by
  have one (row : Option Row) : Row.idColumn row.toList column =
      ((row.bind (·.get? column)).bind Json.idText?).toList := by
    cases row with
    | none => rfl
    | some row => simp [Row.idColumn, List.filterMap_cons]; split <;> simp_all
  rw [← one, ← one, idValues, Row.idColumn, List.filterMap_append]
  rfl

namespace AgreeIn

theorem unchanged_eq (h : e.AgreeIn e' column) (hs : e.Settled) (hs' : e'.Settled) {v v' : Json}
    (hv : v.Equal v') (settled : v.IsSettled) (settled' : v'.IsSettled) :
    unchanged e.dataOld column v = unchanged e'.dataOld column v' := by
  rw [unchanged, unchanged]
  obtain ⟨none, none'⟩ | ⟨w, w', old, old', same⟩ := h.dataOld.absent_or
  · rw [none, none']
  · rw [old, old']
    exact same.same_eq hv (hs.dataOld old) (hs'.dataOld old') settled settled'

/-- Updates that agree in a column both change it or both leave it. -/
theorem mem_changedColumns_iff (h : e.AgreeIn e' column) (hs : e.Settled) (hs' : e'.Settled)
    (hu : e.action = .update) (hu' : e'.action = .update) :
    column ∈ e.changedColumns ↔ column ∈ e'.changedColumns := by
  rw [mem_changedColumns hs hu, mem_changedColumns hs' hu']
  obtain ⟨none, none'⟩ | ⟨v, v', new, new', same⟩ := h.data.absent_or
  · simp [none, none']
  · simp [new, new', h.unchanged_eq hs hs' same (hs.data new) (hs'.data new')]

theorem idValues_eq (h : e.AgreeIn e' column) : e.idValues column = e'.idValues column := by
  rw [ChangeEvent.idValues_eq, ChangeEvent.idValues_eq, h.data.idText?_eq, h.dataOld.idText?_eq]

end AgreeIn

theorem touches_congr {columns : List String}
    (h : ∀ column ∈ columns, column ∈ e.changedColumns ↔ column ∈ e'.changedColumns) :
    e.touches columns = e'.touches columns := by
  rw [Bool.eq_iff_iff, touches_iff, touches_iff]
  constructor
  · rintro ⟨column, changed, hc⟩
    exact ⟨column, (h column hc).mp changed, hc⟩
  · rintro ⟨column, changed, hc⟩
    exact ⟨column, (h column hc).mpr changed, hc⟩

end ChangeEvent

namespace Node

mutual

/-- What a node looks at in its own row is among what it reads. -/
theorem mem_uses_of_localColumns (table : String) (node : Node) {c : String}
    (h : c ∈ node.localColumns) : (table, c) ∈ node.uses table :=
  match node with
  | .column name => by
    rw [localColumns, List.mem_singleton] at h
    rw [uses, List.mem_singleton, h]
  | .object properties => by
    rw [localColumns] at h
    rw [uses]
    exact mem_usesOfAll_of_localColumns table properties h
  | .relation r inner => by
    rw [localColumns, List.mem_singleton] at h
    rw [uses, h]
    exact List.mem_append_right _ List.mem_cons_self

theorem mem_usesOfAll_of_localColumns (table : String) (properties : List (String × Node))
    {c : String} (h : c ∈ localColumnsOfAll properties) : (table, c) ∈ usesOfAll table properties :=
  match properties with
  | [] => by
    rw [localColumnsOfAll] at h
    contradiction
  | (_, node) :: rest => by
    rw [localColumnsOfAll, List.mem_append] at h
    rw [usesOfAll, List.mem_append]
    exact h.imp (mem_uses_of_localColumns table node) (mem_usesOfAll_of_localColumns table rest)

end

mutual

/-- The key of a relation, and what is looked at in the rows behind it, is among what is read. -/
theorem mem_uses_of_visit (table : String) (path : List Step) (node : Node) {v : Visit}
    (hv : v ∈ node.visits table path) {c : String}
    (hc : c = v.relation.key ∨ c ∈ v.node.localColumns) :
    (v.relation.table, c) ∈ node.uses table :=
  match node with
  | .column _ => by
    rw [visits] at hv
    contradiction
  | .object properties => by
    rw [visits] at hv
    rw [uses]
    exact mem_usesOfAll_of_visit table path properties hv hc
  | .relation r inner => by
    rw [visits, List.mem_cons] at hv
    rw [uses, List.mem_append]
    rcases hv with rfl | hv
    · rcases hc with rfl | hc
      · exact .inr (List.mem_cons_of_mem _ List.mem_cons_self)
      · exact .inl (mem_uses_of_localColumns r.table inner hc)
    · exact .inl (mem_uses_of_visit r.table _ inner hv hc)

theorem mem_usesOfAll_of_visit (table : String) (path : List Step)
    (properties : List (String × Node)) {v : Visit} (hv : v ∈ visitsOfAll table path properties)
    {c : String} (hc : c = v.relation.key ∨ c ∈ v.node.localColumns) :
    (v.relation.table, c) ∈ usesOfAll table properties :=
  match properties with
  | [] => by
    rw [visitsOfAll] at hv
    contradiction
  | (_, node) :: rest => by
    rw [visitsOfAll, List.mem_append] at hv
    rw [usesOfAll, List.mem_append]
    exact hv.imp (fun hv => mem_uses_of_visit table path node hv hc)
      (fun hv => mem_usesOfAll_of_visit table path rest hv hc)

end

end Node

theorem Visit.watched_subset (v : Visit) : v.watched ⊆ v.relation.key :: v.node.localColumns := by
  obtain ⟨r, table, node, path⟩ := v
  cases r with
  | belongsTo r =>
    intro c hc
    simp only [watched, List.mem_append] at hc
    split at hc
    · exact List.mem_cons_of_mem _ (hc.resolve_left List.not_mem_nil)
    · simpa [Relation.key] using hc
  | hasMany r => exact List.Subset.refl _

theorem discoveries_congr (s : RootSchema) {e e' : ChangeEvent} {vs : List Visit}
    (h : ∀ v ∈ vs, e.idValues v.relation.key = e'.idValues v.relation.key) (a : Sql.Aliases) :
    discoveries s e vs a = discoveries s e' vs a := by
  induction vs generalizing a with
  | nil => rfl
  | cons v rest ih =>
    have trail (q : String) : v.trail e q = v.trail e' q := by
      rw [Visit.trail, Visit.trail, h v List.mem_cons_self]
    have here : v.discovery s e a = v.discovery s e' a := by
      rw [Visit.discovery, Visit.discovery]
      simp only [trail]
    rw [discoveries, discoveries, here]
    exact congrArg _ (ih (fun w hw => h w (List.mem_cons_of_mem _ hw)) _)

namespace RootSchema

variable {s : RootSchema} {e e' : ChangeEvent}

theorem lists_watched {v : Visit} (hv : v ∈ s.visits) {c : String} (hc : c ∈ v.watched) :
    s.tables.Lists v.relation.table c := by
  rw [lists_tables]
  exact .inr (Node.mem_uses_of_visit s.table [] s.node hv (List.mem_cons.mp (v.watched_subset hc)))

theorem lists_key {v : Visit} (hv : v ∈ s.visits) : s.tables.Lists v.relation.table v.relation.key := by
  rw [lists_tables]
  exact .inr (Node.mem_uses_of_visit s.table [] s.node hv (.inl rfl))

theorem lists_own {c : String} (hc : c ∈ s.primaryKey :: s.node.localColumns) :
    s.tables.Lists s.table c := by
  rw [lists_tables]
  rcases List.mem_cons.mp hc with rfl | hc
  · exact .inl rfl
  · exact .inr (s.node.mem_uses_of_localColumns s.table hc)

theorem mem_tables_of_lists {t c : String} (h : s.tables.Lists t c) : t ∈ s.tables.map (·.1) := by
  obtain ⟨columns, mem, -⟩ := h
  exact List.mem_map.mpr ⟨_, mem, rfl⟩

/-- That an event is about a listed table, and a listed column of it if it is an update. -/
def Concerns (s : RootSchema) (e : ChangeEvent) : Prop :=
  e.table ∈ s.tables.map (·.1) ∧
    (e.action = .update → ∃ c ∈ e.changedColumns, s.tables.Lists e.table c)

theorem concerns_of_hit {v : Visit} (hv : v ∈ s.visits) (h : v.hit e = true) : s.Concerns e := by
  rw [Visit.hit, Bool.and_eq_true, beq_iff_eq] at h
  refine ⟨h.1 ▸ mem_tables_of_lists (lists_key hv), fun hu => ?_⟩
  have touched := h.2
  rw [hu] at touched
  obtain ⟨c, changed, hc⟩ := ChangeEvent.touches_iff.mp touched
  exact ⟨c, changed, h.1 ▸ lists_watched hv hc⟩

theorem concerns_of_rootRowChanged (h : s.rootRowChanged e = true) : s.Concerns e := by
  rw [rootRowChanged, Bool.and_eq_true, beq_iff_eq] at h
  refine ⟨h.1 ▸ mem_tables_of_lists (lists_own List.mem_cons_self), fun hu => ?_⟩
  have touched := h.2
  rw [hu] at touched
  obtain ⟨c, changed, hc⟩ := ChangeEvent.touches_iff.mp touched
  exact ⟨c, changed, h.1 ▸ lists_own hc⟩

/-- An event that is about nothing listed hits nothing. -/
theorem impact_of_not_concerns (h : ¬ s.Concerns e) :
    (s.impact e).ids = [] ∧ (s.impact e).query = none := by
  have root : s.rootRowChanged e = false :=
    Bool.eq_false_iff.mpr fun changed => h (concerns_of_rootRowChanged changed)
  have hits : s.hits e = [] :=
    List.filter_eq_nil_iff.mpr fun v hv hit => h (concerns_of_hit hv hit)
  have branches : (s.impact e).branches = [] := by simp [impact, hits, discoveries]
  constructor
  · simp [impact, directIds, root, hits, Sql.distinct]
  · rw [query_eq, branches]

section Agree

variable (hu : e.action = .update) (hu' : e'.action = .update) (table : e.table = e'.table)
  (hs : e.Settled) (hs' : e'.Settled) (agree : ∀ c, s.tables.Lists e.table c → e.AgreeIn e' c)

include hu hu' hs hs' agree

theorem touches_congr_of_listed {columns : List String}
    (listed : ∀ c ∈ columns, s.tables.Lists e.table c) : e.touches columns = e'.touches columns :=
  ChangeEvent.touches_congr fun c hc => (agree c (listed c hc)).mem_changedColumns_iff hs hs' hu hu'

include table

theorem hits_congr : s.hits e = s.hits e' := by
  refine List.filter_congr fun v hv => ?_
  rw [Visit.hit, Visit.hit, hu, hu', ← table]
  by_cases own : e.table = v.relation.table
  · rw [touches_congr_of_listed hu hu' hs hs' agree fun c hc => own ▸ lists_watched hv hc]
  · rw [beq_false_of_ne own, Bool.false_and, Bool.false_and]

theorem rootRowChanged_congr : s.rootRowChanged e = s.rootRowChanged e' := by
  rw [rootRowChanged, rootRowChanged, hu, hu', ← table]
  by_cases own : e.table = s.table
  · rw [touches_congr_of_listed hu hu' hs hs' agree fun c hc => own ▸ lists_own hc]
  · rw [beq_false_of_ne own, Bool.false_and, Bool.false_and]

/-- The impact of an update comes from the listed columns alone. -/
theorem impact_congr : s.impact e = s.impact e' := by
  have hits := hits_congr hu hu' table hs hs' agree
  have root := rootRowChanged_congr hu hu' table hs hs' agree
  have keys : ∀ v ∈ s.hits e, e.idValues v.relation.key = e'.idValues v.relation.key := by
    intro v hv
    obtain ⟨visited, hit⟩ := List.mem_filter.mp hv
    rw [Visit.hit, Bool.and_eq_true, beq_iff_eq] at hit
    exact (agree _ (hit.1 ▸ lists_key visited)).idValues_eq
  have own : s.rootRowChanged e = true → e.idValues s.primaryKey = e'.idValues s.primaryKey := by
    intro changed
    rw [rootRowChanged, Bool.and_eq_true, beq_iff_eq] at changed
    exact (agree _ (changed.1 ▸ lists_own List.mem_cons_self)).idValues_eq
  have ids : s.directIds e = s.directIds e' := by
    rw [directIds, directIds, ← root, ← hits]
    congr 1
    · split
      · exact own ‹_›
      · rfl
    · exact List.flatMap_congr fun v hv => keys v (List.mem_of_mem_filter hv)
  rw [impact, impact, ids, ← hits]
  exact congrArg _ (discoveries_congr s (fun v hv => keys v (List.mem_of_mem_filter hv)) {})

end Agree

/-- The tables of a schema bound what an event can do. If the table of an event is not listed, or an
update changes no listed column, there are no ids and no query. And two updates whose images agree in
the listed columns of their table have the same ids and the same query, values included. -/
theorem impact_within_tables (s : RootSchema) :
    (∀ e, (e.table ∉ s.tables.map (·.1) ∨
        e.action = .update ∧ ∀ c ∈ e.changedColumns, ¬ s.tables.Lists e.table c) →
      (s.impact e).ids = [] ∧ (s.impact e).query = none) ∧
    ∀ e e', e.action = .update → e'.action = .update → e.table = e'.table → e.Settled → e'.Settled →
      (∀ c, s.tables.Lists e.table c → e.AgreeIn e' c) →
        (s.impact e).ids = (s.impact e').ids ∧
          (s.impact e).query.map (·.compile) = (s.impact e').query.map (·.compile) := by
  refine ⟨fun e h => impact_of_not_concerns fun concerns => ?_, ?_⟩
  · rcases h with unlisted | ⟨hu, none⟩
    · exact unlisted concerns.1
    · obtain ⟨c, changed, listed⟩ := concerns.2 hu
      exact none c changed listed
  · intro e e' hu hu' table hs hs' agree
    rw [impact_congr hu hu' table hs hs' agree]
    exact ⟨rfl, rfl⟩

/-- A team is given a title and a badge, which is not listed. -/
def teamChange (title titleOld badge badgeOld : String) : ChangeEvent :=
  .replacement "teams" [("id", .str "x"), ("title", .str title), ("badge", .str badge)]
    [("badge", .str badgeOld), ("id", .str "x"), ("title", .str titleOld)]

theorem settled_teamChange (title titleOld badge badgeOld : String) :
    (teamChange title titleOld badge badgeOld).Settled := by
  simp [ChangeEvent.Settled, teamChange, ChangeEvent.replacement, Json.IsSettled,
    Json.MembersSettled]

/-- A new badge alone has no impact, and it does not matter beside a new title. -/
theorem crew_blind_to_badges :
    ((crew.impact (teamChange "Blue" "Blue" "star" "moon")).ids = [] ∧
      (crew.impact (teamChange "Blue" "Blue" "star" "moon")).query = none) ∧
    (crew.impact (teamChange "Red" "Blue" "star" "moon")).ids =
      (crew.impact (teamChange "Red" "Blue" "sun" "sun")).ids ∧
    (crew.impact (teamChange "Red" "Blue" "star" "moon")).query.map (·.compile) =
      (crew.impact (teamChange "Red" "Blue" "sun" "sun")).query.map (·.compile) := by
  have listed (c : String) (h : crew.tables.Lists "teams" c) : c = "title" ∨ c = "id" := by
    rw [lists_tables] at h
    simpa [crew, Node.uses, Node.usesOfAll, Relation.table, Relation.key, Relation.column] using h
  obtain ⟨bounds, agrees⟩ := impact_within_tables crew
  refine ⟨bounds _ (.inr ⟨rfl, fun c changed h => ?_⟩), agrees _ _ rfl rfl rfl
    (settled_teamChange _ _ _ _) (settled_teamChange _ _ _ _) fun c h => ?_⟩
  · obtain rfl : c = "badge" := by
      simpa [teamChange, ChangeEvent.replacement, ChangeEvent.changedColumns,
        ChangeEvent.unchanged, Members.get?, Json.same, List.lookup_cons] using changed
    exact absurd (listed _ h) (by decide)
  · rcases listed c h with rfl | rfl
    · exact ⟨.some (.inl rfl), .some (.inl rfl)⟩
    · exact ⟨.some (.inl rfl), .some (.inl rfl)⟩

end RootSchema
end EntityFeed
