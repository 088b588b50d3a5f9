import EntityFeed.Proofs.Impact.Completeness

/-! The query for a relation finds no entity that the relation does not reach, as long as the rows that
a search leaves out are there. What a trail has found leads down to the key values of the event; where
it leaves a table out, that is so for every row of the table that could stand in its place. -/
namespace EntityFeed
open Sql

/-- That a path goes from the root table to a table, each relation from where the one before leads. -/
def RootSchema.Leads (s : RootSchema) : List Step → String → Prop
  | [], table => table = s.table
  | ⟨r, near⟩ :: outer, table => table = r.table ∧ s.Leads outer near

/-- That a row that refers to another one finds it. Nothing is asked of a has-many, whose rows need not
be there. -/
def Step.Intact (c : Comparison) (db : Database) (step : Step) : Prop :=
  ∀ r, step.relation = .belongsTo r → ∀ row ∈ db step.table, row.value r.column ≠ .null →
    step.relation.follow c db row ≠ []

/-- That what the outermost relation of a path collects has its root row, if it is a has-many on the
root's key. -/
def RootSchema.Rooted (c : Comparison) (db : Database) (s : RootSchema) (path : List Step) : Prop :=
  ∀ r table, path.getLast? = some ⟨.hasMany r, table⟩ → r.column = s.primaryKey →
    ∀ row ∈ db r.table, row.value r.key ≠ .null →
      rowsWith c db s.table s.primaryKey (row.value r.key) ≠ []

/-- That nothing dangles on the way to a relation. -/
structure Visit.Intact (c : Comparison) (db : Database) (s : RootSchema) (v : Visit) : Prop where
  steps : ∀ step ∈ v.path, step.Intact c db
  rooted : s.Rooted c db v.path

theorem RootSchema.Rooted.outer {c : Comparison} {db : Database} {s : RootSchema} {step : Step}
    {outer : List Step} (h : s.Rooted c db (step :: outer)) : s.Rooted c db outer := by
  intro r table hl
  exact h r table (by rw [List.getLast?_cons, hl, Option.getD_some])

theorem Sql.Comparison.ne_null_of_equal {c : Comparison} {v w : Json} (h : c.equal v w = true) :
    v ≠ .null := by
  rintro rfl
  simp [equal, c.key_null] at h

section Leads

variable (s : RootSchema)

mutual

theorem Node.leads_of_mem_visits (node : Node) {table : String} {path : List Step}
    (h : s.Leads path table) {v : Visit} (hv : v ∈ node.visits table path) :
    s.Leads v.path v.table := by
  match node with
  | .column name => contradiction
  | .object properties => exact leads_of_mem_visitsOfAll properties h hv
  | .relation r node =>
    rcases List.mem_cons.mp hv with rfl | hv
    · exact h
    · have hr : s.Leads (⟨r, table⟩ :: path) r.table := ⟨rfl, h⟩
      exact leads_of_mem_visits node hr hv

theorem Node.leads_of_mem_visitsOfAll (properties : List (String × Node)) {table : String}
    {path : List Step} (h : s.Leads path table) {v : Visit}
    (hv : v ∈ visitsOfAll table path properties) : s.Leads v.path v.table := by
  match properties with
  | [] => contradiction
  | (name, node) :: rest =>
    rcases List.mem_append.mp hv with hv | hv
    · exact leads_of_mem_visits node h hv
    · exact leads_of_mem_visitsOfAll rest h hv

end

end Leads

namespace Trail

/-- That a row which a trail has found in `table` is one with `B`, or one in whose place every row has
`B` that the relation a path goes on with could lead to. -/
def Stands (c : Comparison) (db : Database) (t : Trail) (path : List Step) (table : String)
    (B : Row → Prop) (x : Row) : Prop :=
  match t.override with
  | none => x ∈ db table ∧ B x
  | some column => ∃ r near outer, path = ⟨.belongsTo r, near⟩ :: outer ∧
      ∀ row ∈ db table, c.equal (row.value r.key) (x.value column) = true → B row

/-- That a trail has found nothing but what stands for rows of `table` with `B`. -/
structure Answers (c : Comparison) (ω : Arrangement) (db : Database) (t : Trail) (path : List Step)
    (table : String) (B : Row → Prop) : Prop where
  found : ∀ scope, t.search.Finds c ω db scope →
    ∃ x, scope.lookup t.qualifier = some x ∧ t.Stands c db path table B x
  leaf : ∀ leaf, t.leaf = some leaf → ∀ row ∈ db table,
    (∃ k ∈ leaf.values, c.equal (row.value leaf.column) (.str k) = true) → B row

section Steps

variable {c : Comparison} {ω : Arrangement} {db : Database} {t : Trail} {path outer : List Step}
  {B : Row → Prop} {a : Aliases} {table far : String} {x : Row}

/-- Going on with anything but a belongs-to, a trail stands at the row itself. -/
theorem Stands.of_not_belongsTo (h : t.Stands c db path table B x)
    (hp : ∀ r near outer, path ≠ ⟨.belongsTo r, near⟩ :: outer) :
    t.override = none ∧ x ∈ db table ∧ B x := by
  unfold Stands at h
  split at h
  · rename_i ho
    exact ⟨ho, h⟩
  · obtain ⟨r, near, outer, he, -⟩ := h
    exact absurd he (hp r near outer)

/-- What a belongs-to joins with leads on to a row with `B`. -/
theorem Stands.exists_follow {r : BelongsTo} {near : Row}
    (h : t.Stands c db (⟨.belongsTo r, table⟩ :: outer) r.table B x) (hn : near ∈ db table)
    (hi : Step.Intact c db ⟨.belongsTo r, table⟩)
    (he : c.equal (near.value r.column) (x.value (t.override.getD r.key)) = true) :
    ∃ row ∈ (Relation.belongsTo r).follow c db near, B row := by
  unfold Stands at h
  split at h
  · rename_i ho
    rw [ho] at he
    exact ⟨x, List.mem_filter.mpr ⟨h.1, he⟩, h.2⟩
  · -- The table has been left out, but the row that it would have given is there.
    rename_i column ho
    obtain ⟨r', near', outer', hp, hb⟩ := h
    cases hp
    rw [ho] at he
    obtain ⟨row, hr⟩ := List.exists_mem_of_ne_nil _
      (hi r rfl near hn (Comparison.ne_null_of_equal he))
    obtain ⟨hm, hk⟩ := List.mem_filter.mp hr
    exact ⟨row, hr, hb row hm (Comparison.equal_of_equal hk he)⟩

/-- A trail that is joined with a table has found rows of it that match. -/
theorem Answers.of_joined {B' : Row → Prop} (h : t.Answers c ω db path far B)
    (hf : t.search.Fits a) {column key : String}
    (hb : ∀ near ∈ db table, ∀ x, t.Stands c db path far B x →
      c.equal (near.value column) (x.value key) = true → B' near) :
    Answers c ω db ⟨t.search.joined ⟨table, (a.next table).1⟩ ⟨(a.next table).1, column⟩
      ⟨t.qualifier, key⟩, (a.next table).1, none, none⟩ outer table B' := by
  refine ⟨?_, nofun⟩
  intro scope hs
  obtain ⟨found, near, rfl, hfound, hn, he⟩ := hs.exists_of_joined
  obtain ⟨x, hx, hstands⟩ := h.found found hfound
  have hq : (a.next table).1 ∉ found.map (·.1) := by
    rw [hfound.names_eq]
    exact fun hm => Aliases.next_notMem_names a table (hf.issued _ hm)
  rw [Scope.value_of_notMem hq, Scope.value_of_lookup (r := ⟨t.qualifier, key⟩) hx] at he
  exact ⟨near, lookup_append_of_notMem hq near [], hn, hb near hn x hstands he⟩

theorem Answers.pastBelongsTo {r : BelongsTo}
    (h : t.Answers c ω db (⟨.belongsTo r, table⟩ :: outer) r.table B) (hf : t.search.Fits a)
    (hi : Step.Intact c db ⟨.belongsTo r, table⟩) :
    (t.pastBelongsTo r table (a.next table).1).Answers c ω db outer table
      fun near => ∃ row ∈ (Relation.belongsTo r).follow c db near, B row := by
  have hj : Answers c ω db ⟨t.search.joined ⟨table, (a.next table).1⟩ ⟨(a.next table).1, r.column⟩
      ⟨t.qualifier, t.override.getD r.key⟩, (a.next table).1, none, none⟩ outer table
      fun near => ∃ row ∈ (Relation.belongsTo r).follow c db near, B row :=
    h.of_joined hf fun near hn x hx he => hx.exists_follow hn hi he
  unfold Trail.pastBelongsTo
  cases hl : t.leaf with
  | none => exact hj
  | some leaf =>
    dsimp only
    split
    · -- The row that a searched value refers to has the value itself.
      rename_i hc
      refine ⟨?_, nofun⟩
      intro scope hs
      obtain ⟨near, hn, rfl, k, hk, he⟩ := hs.exists_of_start
      obtain ⟨row, hr⟩ := List.exists_mem_of_ne_nil _
        (hi r rfl near hn (Comparison.ne_null_of_equal he))
      obtain ⟨hm, hkey⟩ := List.mem_filter.mp hr
      refine ⟨near, List.lookup_cons_self, hn, row, hr, h.leaf leaf hl row hm ⟨k, hk, ?_⟩⟩
      rw [hc]
      exact Comparison.equal_of_equal hkey he
    · exact hj

theorem Answers.pastHasMany {r : HasMany}
    (h : t.Answers c ω db (⟨.hasMany r, table⟩ :: outer) r.table B) (hf : t.search.Fits a) :
    (t.pastHasMany r table (a.next table).1).Answers c ω db outer table
      fun near => ∃ row ∈ (Relation.hasMany r).follow c db near, B row := by
  refine h.of_joined hf ?_
  intro near hn x hx he
  obtain ⟨ho, hm, hb⟩ := hx.of_not_belongsTo (by rintro r' near' outer' ⟨⟩)
  rw [ho] at he
  exact ⟨x, List.mem_filter.mpr ⟨hm, he⟩, hb⟩

/-- Every row that a has-many which is left out collects for leads on to what has been found. -/
theorem Answers.skipHasMany {r : HasMany}
    (h : t.Answers c ω db (⟨.hasMany r, table⟩ :: outer) r.table B)
    (hb : belongsToOn r.column outer = true) :
    (t.skipHasMany r).Answers c ω db outer table
      fun near => ∃ row ∈ (Relation.hasMany r).follow c db near, B row := by
  refine ⟨?_, nofun⟩
  intro scope hs
  obtain ⟨x, hx, hstands⟩ := h.found scope hs
  obtain ⟨-, hm, hbx⟩ := hstands.of_not_belongsTo (by rintro r' near' outer' ⟨⟩)
  unfold belongsToOn at hb
  split at hb
  · rename_i b near outer'
    rw [beq_iff_eq] at hb
    refine ⟨x, hx, b, near, outer', rfl, ?_⟩
    intro row _ he
    rw [hb] at he
    exact ⟨x, List.mem_filter.mpr ⟨hm, he⟩, hbx⟩
  · contradiction

end Steps
end Trail

/-- The rows of an outermost has-many on the root's key have the ids in their own column. -/
theorem Trail.Answers.encloses_of_outermost {c : Comparison} {ω : Arrangement} {db : Database}
    {s : RootSchema} {id near : String} {t : Trail} {r : HasMany} {B : Row → Prop} {scope : Scope}
    (ht : t.Answers c ω db [⟨.hasMany r, near⟩] r.table B) (hl : s.Leads [] near)
    (hr : s.Rooted c db [⟨.hasMany r, near⟩]) (hc : r.column = s.primaryKey)
    (hs : t.search.Finds c ω db scope)
    (he : c.equal (scope.value ⟨t.qualifier, t.override.getD r.key⟩) (.str id) = true) :
    ∃ root ∈ db near, (∃ far ∈ (Relation.hasMany r).follow c db root, B far) ∧
      s.Encloses c db id [] root := by
  obtain ⟨x, hx, hstands⟩ := ht.found scope hs
  obtain ⟨ho, hm, hb⟩ := hstands.of_not_belongsTo (by rintro r' near' outer' ⟨⟩)
  rw [Scope.value_eq_of_lookup (r := ⟨t.qualifier, t.override.getD r.key⟩) hx, ho,
    Option.getD_none] at he
  obtain ⟨root, hmem⟩ := List.exists_mem_of_ne_nil _
    (hr r near rfl hc x hm (Comparison.ne_null_of_equal he))
  obtain ⟨hrm, hk⟩ := List.mem_filter.mp hmem
  have hfollow : x ∈ (Relation.hasMany r).follow c db root := by
    refine List.mem_filter.mpr ⟨hm, ?_⟩
    change c.equal (root.value r.column) (x.value r.key) = true
    rw [hc, Comparison.equal_comm]
    exact hk
  rw [RootSchema.Leads] at hl
  exact ⟨root, hl ▸ hrm, ⟨x, hfollow, hb⟩, hrm, Comparison.equal_of_equal hk he⟩

/-- What a climb finds is the id of a root row that encloses a row with `B`. -/
theorem climb_encloses {c : Comparison} {ω : Arrangement} {db : Database} {s : RootSchema} {id : String}
    {path : List Step} {t : Trail} {a : Aliases} {table : String} {B : Row → Prop}
    (ht : t.Answers c ω db path table B) (hf : t.Fits a) (hl : s.Leads path table)
    (hi : ∀ step ∈ path, step.Intact c db) (hr : s.Rooted c db path) {scope : Scope}
    (hs : (climb s path t a).1.search.Finds c ω db scope)
    (he : c.equal (scope.value (climb s path t a).1.id) (.str id) = true) :
    ∃ row ∈ db table, B row ∧ s.Encloses c db id path row := by
  induction path generalizing t a table B with
  | nil =>
    obtain ⟨x, hx, hstands⟩ := ht.found scope hs
    obtain ⟨-, hm, hb⟩ := hstands.of_not_belongsTo nofun
    rw [climb, Scope.value_eq_of_lookup (r := ⟨t.qualifier, s.primaryKey⟩) hx] at he
    rw [RootSchema.Leads] at hl
    exact ⟨x, hm, hb, hl ▸ hm, he⟩
  | cons step outer ih =>
    obtain ⟨r, near⟩ := step
    obtain ⟨rfl, hl⟩ := hl
    have hio : ∀ step ∈ outer, step.Intact c db := fun step hm => hi step (List.mem_cons_of_mem _ hm)
    -- Past the relation it is the rows that lead on to one with `B` that have been found.
    have hback : (∃ row ∈ db near, (∃ far ∈ r.follow c db row, B far) ∧ s.Encloses c db id outer row) →
        ∃ far ∈ db r.table, B far ∧ s.Encloses c db id (⟨r, near⟩ :: outer) far := by
      rintro ⟨row, hn, ⟨far, hf, hb⟩, he⟩
      exact ⟨far, (List.mem_filter.mp hf).1, hb, row, hn, hf, he⟩
    cases r with
    | belongsTo r =>
      rw [climb] at hs he
      exact hback (ih (ht.pastBelongsTo hf.search (hi _ List.mem_cons_self))
        (hf.pastBelongsTo r near) hl hio hr.outer hs he)
    | hasMany r =>
      rw [climb] at hs he
      split at hs
      · rename_i hd
        rw [if_pos hd] at he
        rw [Bool.and_eq_true, List.isEmpty_iff, beq_iff_eq] at hd
        obtain ⟨rfl, hc⟩ := hd
        exact hback (ht.encloses_of_outermost hl hr hc hs he)
      · rename_i hd
        rw [if_neg hd] at he
        split at hs
        · rename_i hb
          rw [if_pos hb] at he
          exact hback (ih (ht.skipHasMany hb) ⟨hf.search, hf.reached⟩ hl hio hr.outer hs he)
        · rename_i hb
          rw [if_neg hb] at he
          exact hback (ih (ht.pastHasMany hf.search) (hf.pastHasMany r near) hl hio hr.outer hs he)

section Branches

variable {c : Comparison} {ω : Arrangement} {db : Database} {s : RootSchema} {e : ChangeEvent}

/-- A search starts at the rows that refer to the key values of the event. -/
theorem Visit.trail_answers (v : Visit) (qualifier : String) :
    (v.trail e qualifier).Answers c ω db v.path v.table fun near =>
      ∃ k ∈ e.idValues v.relation.key, c.equal (near.value v.relation.column) (.str k) = true := by
  have hs : ∀ leaf : Option Leaf, (∀ l, leaf = some l → l.column = v.relation.column ∧
      l.values = e.idValues v.relation.key) →
      Trail.Answers c ω db ⟨⟨⟨v.table, qualifier⟩, v.relation.column, e.idValues v.relation.key, []⟩,
        qualifier, none, leaf⟩ v.path v.table fun near =>
          ∃ k ∈ e.idValues v.relation.key, c.equal (near.value v.relation.column) (.str k) = true := by
    intro leaf hl
    refine ⟨?_, ?_⟩
    · intro scope hs
      obtain ⟨near, hn, rfl, hk⟩ := hs.exists_of_start
      exact ⟨near, List.lookup_cons_self, hn, hk⟩
    · intro l he row _ hk
      obtain ⟨hc, hv⟩ := hl l he
      rw [hc, hv] at hk
      exact hk
  obtain ⟨r, table, node, path⟩ := v
  cases r with
  | belongsTo b => exact hs none nofun
  | hasMany m =>
    refine hs (some ⟨m.column, _⟩) ?_
    rintro _ ⟨⟩
    exact ⟨rfl, rfl⟩

/-- That the rows of a query have an id. -/
def Gives (c : Comparison) (rows : List Row) (id : String) : Prop :=
  ∃ row ∈ rows, c.equal (row.value "id") (.str id) = true

/-- The query for a relation gives the ids of the entities that the relation reaches. -/
theorem Visit.Reaches.gives {id : String} {v : Visit} (h : v.Reaches c db s e id) (a : Aliases) :
    Gives c ((v.discovery s e a).1.select.rows c ω db) id := by
  obtain ⟨scope, hs, he⟩ := h.discovery_finds a
  obtain ⟨w, hw, hk⟩ := Discovery.exists_mem_rows hs
  refine ⟨_, hw, ?_⟩
  rw [Comparison.equal] at he ⊢
  rw [value_cons_self, hk]
  exact he

/-- It gives no others, unless something dangles on the way. -/
theorem Visit.Intact.reaches_of_gives {id : String} {v : Visit} (hv : v ∈ s.visits)
    (h : v.Intact c db s) {a : Aliases}
    (hg : Gives c ((v.discovery s e a).1.select.rows c ω db) id) : v.Reaches c db s e id := by
  obtain ⟨row, hr, he⟩ := hg
  obtain ⟨scope, hs, rfl⟩ := Discovery.exists_finds hr
  rw [value_cons_self] at he
  have hroot : s.Leads [] s.table := rfl
  have hl : s.Leads v.path v.table := s.node.leads_of_mem_visits s hroot hv
  obtain ⟨near, hn, hk, hi⟩ :=
    climb_encloses (v.trail_answers _) (v.trail_fits e a) hl h.steps h.rooted hs he
  exact ⟨near, hn, hi, hk⟩

end Branches

/-- Every hit that the event does not answer has a query of its own. The query is accepted, and gives
the ids of all entities that the hit reaches; it gives only those where nothing dangles on the way. -/
theorem RootSchema.branches_give_reached (s : RootSchema) (e : ChangeEvent) :
    List.Forall₂ (fun v d => ∀ c ω db, ∃ rows, (Discovery.select d).answer? c ω db = some rows ∧
        (∀ id, v.Reaches c db s e id → Gives c rows id) ∧
        (v.Intact c db s → ∀ id, Gives c rows id ↔ v.Reaches c db s e id))
      ((s.hits e).filter (!·.direct s)) (s.impact e).branches := by
  refine forall₂_imp_of_mem (forall₂_discoveries s e _ {}) ?_
  rintro v hv _ - ⟨a, rfl⟩ c ω db
  have hm : v ∈ s.visits := (List.mem_filter.mp (List.mem_filter.mp hv).1).1
  refine ⟨_, if_pos (v.discovery_fits s e a).select_scoped, ?_, ?_⟩
  · intro id h
    exact h.gives a
  · intro h id
    exact ⟨h.reaches_of_gives hm, fun hr => hr.gives a⟩

/-- Users with the pages of the sites that the topics of their articles link to. -/
def readers : RootSchema where
  table := "users"
  primaryKey := "id"
  node := .relation (.hasMany ⟨"id", "articles", "user_id"⟩) <|
    .relation (.belongsTo ⟨"topic_id", "topics", "id", false⟩) <|
    .relation (.hasMany ⟨"id", "links", "topic_id"⟩) <|
    .relation (.belongsTo ⟨"site_id", "sites", "id", false⟩) <|
    .relation (.hasMany ⟨"id", "pages", "site_id"⟩) (.column "title")

def readersRows : Database
  | "users" => [[("id", .str "u")], [("id", .str "v")]]
  | "articles" => [[("user_id", .str "u"), ("topic_id", .str "t")]]
  | "topics" => [[("id", .str "t")]]
  | "links" => [[("topic_id", .str "t"), ("site_id", .str "s")]]
  | "sites" => [[("id", .str "s")]]
  | _ => []

/-- The relation of the pages. -/
def readersPages : Visit where
  relation := .hasMany ⟨"id", "pages", "site_id"⟩
  table := "sites"
  node := .column "title"
  path := [⟨.belongsTo ⟨"site_id", "sites", "id", false⟩, "links"⟩,
    ⟨.hasMany ⟨"id", "links", "topic_id"⟩, "topics"⟩,
    ⟨.belongsTo ⟨"topic_id", "topics", "id", false⟩, "articles"⟩,
    ⟨.hasMany ⟨"id", "articles", "user_id"⟩, "users"⟩]

theorem intact_readersPages : readersPages.Intact .byIdText readersRows readers := by
  refine ⟨?_, ?_⟩
  · simp only [readersPages, List.forall_mem_cons, Step.Intact]
    refine ⟨?_, nofun, ?_, nofun, nofun⟩
    · rintro _ ⟨⟩ row hr -
      rw [List.mem_singleton.mp hr]
      exact List.cons_ne_nil _ _
    · rintro _ ⟨⟩ row hr -
      rw [List.mem_singleton.mp hr]
      exact List.cons_ne_nil _ _
  · rintro _ _ ⟨⟩ - row hr -
    rw [List.mem_singleton.mp hr]
    exact List.cons_ne_nil _ _

theorem reaches_readersPages (id : String) :
    readersPages.Reaches .byIdText readersRows readers
      (.insertion "pages" [("site_id", .str "s")]) id ↔ id = "u" := by
  rw [@eq_comm _ id]
  simp [Visit.Reaches, readersPages, RootSchema.Encloses, readersRows, readers, Relation.follow,
    rowsWith, Relation.table, Relation.key, Relation.column, Comparison.equal, Comparison.byIdText,
    Row.value, Members.get?, List.lookup_cons, Json.idText?, ChangeEvent.insertion,
    ChangeEvent.idValues, Row.idColumn]

/-- A page is added. The query leaves out sites, topics and users, and finds whom the page is for. -/
theorem readers_paged : ∃ d,
    (readers.impact (.insertion "pages" [("site_id", .str "s")])).branches = [d] ∧
      d.search.source.table = "links" ∧ d.search.joins.map (·.table.table) = ["articles"] ∧
      ∀ ω, ∃ rows, d.select.answer? .byIdText ω readersRows = some rows ∧
        ∀ id, Gives .byIdText rows id ↔ id = "u" := by
  have h := readers.branches_give_reached (.insertion "pages" [("site_id", .str "s")])
  have hv : (readers.hits (.insertion "pages" [("site_id", .str "s")])).filter (!·.direct readers) =
      [readersPages] := rfl
  rw [hv] at h
  refine ⟨_, rfl, rfl, rfl, ?_⟩
  intro ω
  cases h with
  | cons h _ =>
    obtain ⟨rows, ha, -, he⟩ := h .byIdText ω readersRows
    refine ⟨rows, ha, ?_⟩
    intro id
    rw [he intact_readersPages id, reaches_readersPages]

end EntityFeed
