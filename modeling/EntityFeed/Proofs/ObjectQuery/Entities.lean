import EntityFeed.Proofs.ObjectQuery.Rows

/-! The query for objects gives the entities. It is built by recursion over the schema, and at each
node what is joined so far is extended in one way only. -/
namespace EntityFeed
open Sql

variable {c : Comparison} {ω : Arrangement} {db : Database}

/-- That a belongs-to leads to one row at most. -/
def Visit.Determined (c : Comparison) (db : Database) (v : Visit) : Prop :=
  ∀ b, v.relation = .belongsTo b → Unique c db b.table b.key

/-- That a belongs-to with the way back right behind it leads to a row from every row of its table. -/
def Visit.Covered (c : Comparison) (db : Database) (v : Visit) : Prop :=
  ∀ b back behind, v.relation = .belongsTo b → v.node = .relation (.hasMany back) behind →
    back.column = b.key → ∀ row ∈ db v.table, v.relation.follow c db row ≠ []

/-- The data that the query for a node relies on. -/
structure Node.Supported (o : ObjectQueryOptions) (c : Comparison) (db : Database) (table : String)
    (path : List Step) (node : Node) : Prop where
  determined : ∀ v ∈ node.visits table path, v.Determined c db
  covered : o.skipMiddleTables = true → ∀ v ∈ node.visits table path, v.Covered c db

namespace Node.Supported

variable {o : ObjectQueryOptions} {table : String} {path : List Step}

theorem mono {path' : List Step} {table' : String} {node node' : Node}
    (h : node.Supported o c db table path)
    (hs : node'.visits table' path' ⊆ node.visits table path) :
    node'.Supported o c db table' path' :=
  ⟨fun v hv => h.determined v (hs hv), fun ho v hv => h.covered ho v (hs hv)⟩

variable {r : Relation} {node : Node}

theorem unique_target (h : (Node.relation r node).Supported o c db table path) (b : BelongsTo)
    (hb : (r.target o node).relation = .belongsTo b) : Unique c db b.table b.key := by
  rcases r.target_cases o node with ht | ⟨b', back, behind, -, -, -, ht⟩
  · rw [ht] at hb
    refine h.determined ⟨r, table, node, path⟩ ?_ b hb
    rw [Node.visits_relation]
    exact List.mem_cons_self
  · rw [ht] at hb
    contradiction

/-- Leaving out the table of a belongs-to keeps what a relation gives. -/
theorem view_target (h : (Node.relation r node).Supported o c db table path) {row : Row}
    (hr : row ∈ db table) :
    (Node.relation r node).view c db row =
      (Node.relation (r.target o node).relation (r.target o node).node).view c db row := by
  rcases r.target_cases o node with ht | ⟨b, back, behind, rfl, ho, hb, ht⟩
  · rw [ht]
  · rw [ht]
    obtain ⟨rfl, hc⟩ := BelongsTo.eq_of_reverse? hb
    have hf := h.covered ho _ (by rw [Node.visits_relation]; exact List.mem_cons_self) b back behind
      rfl rfl hc row hr
    cases hl : (Relation.belongsTo b).follow c db row with
    | nil => exact absurd hl hf
    | cons far rest =>
      have hm : far ∈ (Relation.belongsTo b).follow c db row := hl ▸ List.mem_cons_self
      have he : c.equal (row.value b.column) (far.value b.key) = true := (List.mem_filter.mp hm).2
      have hk : c.key (row.value b.column) = c.key (far.value b.key) := by
        simp only [Comparison.equal, Bool.and_eq_true, beq_iff_eq] at he
        exact he.2
      simp only [Node.view, hl]
      simp only [Relation.follow, Relation.table, Relation.key, Relation.column, rowsWith,
        Comparison.equal, BelongsTo.across, hc, hk]

end Node.Supported

/-- What is like the value of the relation that is joined is like the value of the relation. -/
theorem Relation.alike_target (o : ObjectQueryOptions) {same : Json → Json → Prop} (r : Relation)
    (node : Node) {v w : Json}
    (h : (Node.relation (r.target o node).relation (r.target o node).node).Alike same v w) :
    (Node.relation r node).Alike same v w := by
  rcases r.target_cases o node with ht | ⟨b, back, behind, rfl, -, hb, ht⟩
  · rwa [ht] at h
  · rw [ht] at h
    obtain ⟨rfl, -⟩ := BelongsTo.eq_of_reverse? hb
    rw [Node.Alike]
    right
    simp only [Node.Alike] at h ⊢
    exact h

/-- Joining a nested query gives what a relation gives, if the query shows the rows of its table. -/
theorem Relation.projection_gives (r : Relation) (node : Node) {qualifier inner outer : String}
    {p : Projection} {s : Scope} {row : Row} {a : Aliases}
    (hu : ∀ b, r = .belongsTo b → Unique c db b.table b.key) (hk : r.key ≠ objectColumn)
    (hp : List.Forall₂ (p.Shows c db ⟨inner, r.key⟩ node) (db r.table)
      (p.scopes c ω db ⟨r.table, inner⟩))
    (hs : s.lookup qualifier = some row) (ho : outer ∉ s.map (·.1)) (ha : outer ∈ a.names) :
    (r.projection (.nested .left (r.frame.select ⟨r.table, inner⟩ r.key p) outer
      ⟨qualifier, r.column⟩ ⟨outer, r.key⟩)).Gives c ω db s a
        fun v => (Node.relation r node).Alike Eq v ((Node.relation r node).view c db row) := by
  have hi : ∀ far : Row, ∀ q ∈ [(outer, far)].map (·.1), q ∈ a.names := by
    intro far q hq
    rw [List.mem_singleton.mp hq]
    exact ha
  cases r with
  | belongsTo b =>
    obtain ⟨found, hm, hv⟩ := b.exists_matched (hu b rfl) hk hp row
    refine ⟨[(outer, found.getD [])], ?_, hi _, ?_⟩
    · rw [projection, Projection.ofSingle, Joined.extendAll_cons, List.flatMap_singleton,
        Joined.extendAll]
      exact Joined.extend_nested hs ho hm
    · intro later
      rw [projection, Projection.ofSingle, Expr.value, List.append_assoc]
      exact (Scope.value_of_notMem ho _ _ later).symm ▸ hv
  | hasMany m =>
    obtain ⟨found, hm, hv⟩ := m.exists_matched hk hp row
    refine ⟨[(outer, found.getD [])], ?_, hi _, ?_⟩
    · rw [projection, Projection.ofGroup, Joined.extendAll_cons, List.flatMap_singleton,
        Joined.extendAll]
      exact Joined.extend_nested hs ho hm
    · intro later
      rw [projection, Projection.ofGroup, Expr.value, List.append_assoc]
      exact (Scope.value_of_notMem ho _ _ later).symm ▸ hv

/-- The join of a target gives what its relation gives, if the nested query sees each row of its table
under its inner alias. -/
theorem Target.join_gives (o : ObjectQueryOptions) (qualifier : String) (t : Target) (a : Aliases)
    {s : Scope} {row : Row}
    (hu : ∀ b, t.relation = .belongsTo b → Unique c db b.table b.key)
    (hk : t.relation.key ≠ objectColumn) (hs : s.lookup qualifier = some row)
    (ha : ∀ q ∈ s.map (·.1), q ∈ a.names)
    (hp : ∀ far ∈ db t.relation.table,
      (t.node.project o (a.next t.relation.table).1 (a.next t.relation.table).2).1.Gives c ω db
        [((a.next t.relation.table).1, far)]
        (t.node.project o (a.next t.relation.table).1 (a.next t.relation.table).2).2
        fun v => t.node.Alike Eq v (t.node.view c db far)) :
    (t.relation.projection (t.join o qualifier a).1).Gives c ω db s (t.join o qualifier a).2
      fun v => (Node.relation t.relation t.node).Alike Eq v
        ((Node.relation t.relation t.node).view c db row) := by
  have hf := Projection.forall₂_scopes _ ⟨t.relation.table, (a.next t.relation.table).1⟩
    t.relation.key hp
  exact t.relation.projection_gives t.node hu hk hf hs (t.outer_notMem o ha) List.mem_cons_self

mutual

/-- A node's projection gives the node's value for the row under its qualifier. -/
theorem Node.project_gives (o : ObjectQueryOptions) (qualifier table : String) (path : List Step)
    (node : Node) (a : Aliases) {s : Scope} {row : Row} (hs : s.lookup qualifier = some row)
    (hr : row ∈ db table) (ha : ∀ q ∈ s.map (·.1), q ∈ a.names)
    (hl : node.LeavesObjects table path) (hd : node.Supported o c db table path) :
    (node.project o qualifier a).1.Gives c ω db s (node.project o qualifier a).2
      fun v => node.Alike Eq v (node.view c db row) := by
  match node with
  | .column name =>
    rw [project]
    refine ⟨[], ?_, by simp, ?_⟩
    · rw [List.append_nil, Joined.extendAll]
    · intro later
      rw [Node.Alike, Node.view, Expr.value, List.append_assoc]
      exact Scope.value_of_lookup hs _
  | .object properties =>
    rw [project]
    obtain ⟨extra, he, hn, hg⟩ :=
      projectAll_gives o qualifier table path properties a hs hr ha hl
        (hd.mono (by rw [visits]; exact List.Subset.refl _))
    refine ⟨extra, he, hn, ?_⟩
    intro later
    rw [Node.Alike, Node.view]
    exact ⟨_, _, rfl, rfl, hg later⟩
  | .relation r node =>
    obtain ⟨v, hv, path', hk, hb⟩ := r.exists_visit_target o node table path
    obtain ⟨extra, he, hn, hg⟩ := (r.target o node).join_gives (ω := ω) o qualifier a hd.unique_target
      (hk ▸ hl v hv) hs ha fun far hf =>
        project_gives o _ (r.target o node).relation.table path' (r.target o node).node _
          List.lookup_cons_self hf (by simp [Aliases.names_next]) (fun w hw => hl w (hb hw))
          (hd.mono hb)
    -- The join is for the target; its value is like that of the relation itself.
    rw [project_relation]
    refine ⟨extra, he, hn, ?_⟩
    intro later
    have h := hg later
    rw [← hd.view_target hr] at h
    exact r.alike_target o node h
termination_by sizeOf node
decreasing_by
  all_goals
    first
    | exact Relation.sizeOf_target_lt o r node
    | exact Node.sizeOf_properties_lt properties

theorem Node.projectAll_gives (o : ObjectQueryOptions) (qualifier table : String) (path : List Step)
    (properties : List (String × Node)) (a : Aliases) {s : Scope} {row : Row}
    (hs : s.lookup qualifier = some row) (hr : row ∈ db table)
    (ha : ∀ q ∈ s.map (·.1), q ∈ a.names)
    (hl : (Node.object properties).LeavesObjects table path)
    (hd : (Node.object properties).Supported o c db table path) :
    ∃ extra : Scope,
      Joined.extendAll c ω db (projectAll o qualifier properties a).1.2 [s] = [s ++ extra] ∧
      (∀ q ∈ extra.map (·.1), q ∈ (projectAll o qualifier properties a).2.names) ∧
      ∀ later, AlikeAll Eq properties
        (Expr.fieldValues (s ++ extra ++ later) (projectAll o qualifier properties a).1.1)
        (viewAll c db properties row) := by
  match properties with
  | [] =>
    rw [projectAll]
    refine ⟨[], ?_, by simp, ?_⟩
    · rw [List.append_nil, Joined.extendAll]
    · intro later
      rw [AlikeAll]
      exact ⟨rfl, rfl⟩
  | (name, node) :: rest =>
    have hv : ∀ w, w ∈ (Node.object ((name, node) :: rest)).visits table path ↔
        w ∈ node.visits table path ∨ w ∈ (Node.object rest).visits table path := by
      intro w
      rw [visits, visitsOfAll, visits, List.mem_append]
    obtain ⟨extra, he, hn, hg⟩ := project_gives o qualifier table path node a hs hr ha
      (fun w hw => hl w ((hv w).mpr (.inl hw))) (hd.mono fun w hw => (hv w).mpr (.inl hw))
    have hs' : ∀ q ∈ (s ++ extra).map (·.1), q ∈ (node.project o qualifier a).2.names := by
      intro q hq
      rw [List.map_append, List.mem_append] at hq
      rcases hq with hq | hq
      · exact (names_suffix_project o qualifier node a).subset (ha q hq)
      · exact hn q hq
    obtain ⟨extra', he', hn', hg'⟩ := projectAll_gives o qualifier table path rest
      (node.project o qualifier a).2 (lookup_append_of_eq_some hs extra) hr hs'
      (fun w hw => hl w ((hv w).mpr (.inr hw))) (hd.mono fun w hw => (hv w).mpr (.inr hw))
    rw [projectAll]
    refine ⟨extra ++ extra', ?_, ?_, ?_⟩
    · rw [Joined.extendAll_append, he, he', List.append_assoc]
    · intro q hq
      rw [List.map_append, List.mem_append] at hq
      rcases hq with hq | hq
      · exact (names_suffix_projectAll o qualifier rest _).subset (hn q hq)
      · exact hn' q hq
    · intro later
      rw [AlikeAll]
      refine ⟨_, _, _, _, rfl, rfl, ?_, ?_⟩
      · have h := hg (extra' ++ later)
        simp only [List.append_assoc] at h ⊢
        exact h
      · have h := hg' later
        simp only [List.append_assoc] at h ⊢
        exact h
termination_by sizeOf properties

end

namespace RootSchema

/-- That a row of the query for objects has the id of a root row and shows its entity. -/
def Renders (c : Comparison) (db : Database) (s : RootSchema) (row out : Row) : Prop :=
  ∃ object, out = [("id", row.value s.primaryKey), (objectColumn, object)] ∧
    s.node.Alike Eq object (s.node.view c db row)

variable (s : RootSchema) (ids : List String)

/-- The query gives one row for each root row with a requested id. -/
theorem answer?_objectQuery (o : ObjectQueryOptions) (c : Comparison) (ω : Arrangement)
    (db : Database) (hl : s.node.LeavesObjects s.table [])
    (hd : s.node.Supported o c db s.table []) :
    ∃ rows, (s.objectQuery ids o).answer? c ω db = some rows ∧
      UpToOrder (s.Renders c db)
        ((db s.table).filter fun row => ids.any fun id =>
          c.equal (row.value s.primaryKey) (.str id)) rows := by
  have hp : ∀ row ∈ db s.table,
      (s.node.project o (Aliases.next {} s.table).1 (Aliases.next {} s.table).2).1.Gives c ω db
        [((Aliases.next {} s.table).1, row)]
        (s.node.project o (Aliases.next {} s.table).1 (Aliases.next {} s.table).2).2
        fun v => s.node.Alike Eq v (s.node.view c db row) := by
    intro row hr
    refine s.node.project_gives o _ s.table [] _ List.lookup_cons_self hr ?_ hl hd
    simp [Aliases.names_next]
  have hf := Projection.forall₂_scopes _ ⟨s.table, (Aliases.next {} s.table).1⟩ s.primaryKey hp
  refine ⟨(s.objectQuery ids o).rows c ω db, if_pos (s.objectQuery_scoped ids o hl), ?_⟩
  have hkept : UpToOrder _ ((db s.table).filter fun row => ids.any fun id =>
      c.equal (row.value s.primaryKey) (.str id)) _ :=
    UpToOrder.filter (q := Membership.holds c
      ⟨⟨(Aliases.next {} s.table).1, s.primaryKey⟩, ids⟩) (by
        intro row t ht
        rw [Membership.holds, ht.1]) ⟨_, hf, .refl _⟩
  rw [objectQuery, Frame.rows_requested, ← List.map_id ((db s.table).filter _)]
  refine (hkept.perm (ω.perm _).symm).map ?_
  intro row t ht
  exact ⟨_, by rw [ht.1]; rfl, ht.2⟩

variable (c : Comparison) (ω : Arrangement) (db : Database)

/-- With every table joined, the query gives for each requested id that a root row has exactly one
row, which shows that row's entity, and no other rows. -/
theorem objectQuery_shows_requested (hl : ∀ v ∈ s.visits, v.relation.key ≠ objectColumn)
    (hp : Unique c db s.table s.primaryKey) (hd : ∀ v ∈ s.visits, v.Determined c db) :
    ∃ rows, (s.objectQuery ids ⟨false⟩).answer? c ω db = some rows ∧
      (∀ out ∈ rows, ∃ id ∈ ids, c.equal (.str id) (out.value "id") = true) ∧
      ∀ id ∈ ids,
        (rowsWith c db s.table s.primaryKey (.str id) = [] ∧
          rows.filter (fun out => c.equal (.str id) (out.value "id")) = []) ∨
        ∃ row out, rowsWith c db s.table s.primaryKey (.str id) = [row] ∧
          rows.filter (fun out => c.equal (.str id) (out.value "id")) = [out] ∧
          s.Renders c db row out := by
  obtain ⟨rows, hq, hr⟩ := s.answer?_objectQuery ids ⟨false⟩ c ω db hl ⟨hd, nofun⟩
  have hid : ∀ row out, s.Renders c db row out → out.value "id" = row.value s.primaryKey := by
    rintro row out ⟨object, rfl, -⟩
    exact value_cons_self _ _ _
  refine ⟨rows, hq, ?_, ?_⟩
  · intro out ho
    obtain ⟨row, hm, hs⟩ := hr.exists_of_mem ho
    obtain ⟨id, hi, he⟩ := List.any_eq_true.mp (List.mem_filter.mp hm).2
    exact ⟨id, hi, by rw [hid row out hs, c.equal_comm, he]⟩
  · intro id hi
    have hf := hr.filter (p := fun row => c.equal (.str id) (row.value s.primaryKey))
      (q := fun out => c.equal (.str id) (out.value "id")) (by
        intro row out hs
        rw [hid row out hs])
    have hm : ((db s.table).filter fun row => ids.any fun id =>
        c.equal (row.value s.primaryKey) (.str id)).filter
          (fun row => c.equal (.str id) (row.value s.primaryKey)) =
        rowsWith c db s.table s.primaryKey (.str id) := by
      rw [List.filter_filter, rowsWith]
      refine List.filter_congr ?_
      intro row _
      rw [Bool.and_eq_left_iff_imp]
      intro he
      exact List.any_eq_true.mpr ⟨id, hi, by rw [c.equal_comm, he]⟩
    rw [hm] at hf
    rcases rowsWith_of_unique hp (.str id) with he | ⟨row, he⟩
    · rw [he] at hf ⊢
      exact .inl ⟨rfl, hf.eq_nil⟩
    · rw [he] at hf ⊢
      obtain ⟨out, ho, hs⟩ := hf.eq_singleton
      exact .inr ⟨row, out, rfl, ho, hs⟩

/-- People with the title of their team and the names of those in it. -/
def crew : RootSchema where
  table := "people"
  primaryKey := "id"
  node := .object
    [("name", .column "name"),
      ("team", .relation (.belongsTo ⟨"team_id", "teams", "id", true⟩) (.column "title")),
      ("mates", .relation (.belongsTo ⟨"team_id", "teams", "id", true⟩)
        (.relation (.hasMany ⟨"id", "people", "team_id"⟩) (.column "name")))]

def crewRows : Database
  | "people" =>
    [[("id", .str "1"), ("name", .str "Ann"), ("team_id", .str "x")],
      [("id", .str "2"), ("name", .str "Ben"), ("team_id", .str "x")]]
  | "teams" => [[("id", .str "x"), ("title", .str "Blue")]]
  | _ => []

theorem determined_crew : ∀ v ∈ crew.visits, v.Determined .byIdText crewRows := by
  simp only [visits, crew, Node.visits, Node.visitsOfAll, List.cons_append, List.nil_append,
    List.append_nil, List.forall_mem_cons, Visit.Determined]
  refine ⟨?_, ?_, nofun, nofun⟩
  · rintro b ⟨⟩
    decide
  · rintro b ⟨⟩
    decide

/-- One of two people is asked for, and somebody who is not there. -/
theorem crew_shows_requested :
    ∃ rows, (crew.objectQuery ["2", "7"] ⟨false⟩).answer? .byIdText .inOrder crewRows = some rows ∧
      (∀ out ∈ rows, ∃ id ∈ ["2", "7"], Comparison.byIdText.equal (.str id) (out.value "id") = true) ∧
      ∀ id ∈ ["2", "7"],
        (rowsWith .byIdText crewRows "people" "id" (.str id) = [] ∧
          rows.filter (fun out => Comparison.byIdText.equal (.str id) (out.value "id")) = []) ∨
        ∃ row out, rowsWith .byIdText crewRows "people" "id" (.str id) = [row] ∧
          rows.filter (fun out => Comparison.byIdText.equal (.str id) (out.value "id")) = [out] ∧
          crew.Renders .byIdText crewRows row out :=
  crew.objectQuery_shows_requested ["2", "7"] .byIdText .inOrder crewRows (by decide) (by decide)
    determined_crew

/-- Leaving out middle tables gives the same ids and for each the same object, if every row of the
table before leads to a row of the table that is left out. -/
theorem objectQuery_skipping_middle_tables (ω' : Arrangement)
    (hl : ∀ v ∈ s.visits, v.relation.key ≠ objectColumn)
    (hd : ∀ v ∈ s.visits, v.Determined c db) (hc : ∀ v ∈ s.visits, v.Covered c db) :
    ∃ rows joined, (s.objectQuery ids ⟨true⟩).answer? c ω db = some rows ∧
      (s.objectQuery ids ⟨false⟩).answer? c ω' db = some joined ∧
      UpToOrder (fun out out' => out.value "id" = out'.value "id" ∧
        s.node.Alike Eq (out.value objectColumn) (out'.value objectColumn)) rows joined := by
  obtain ⟨rows, hq, hr⟩ := s.answer?_objectQuery ids ⟨true⟩ c ω db hl ⟨hd, fun _ => hc⟩
  obtain ⟨joined, hq', hr'⟩ := s.answer?_objectQuery ids ⟨false⟩ c ω' db hl ⟨hd, nofun⟩
  refine ⟨rows, joined, hq, hq', ?_⟩
  refine UpToOrder.trans ?_ (hr.symm fun row out h => h) hr'
  rintro _ row _ ⟨object, rfl, ho⟩ ⟨object', rfl, ho'⟩
  refine ⟨?_, ?_⟩
  · rw [value_cons_self, value_cons_self]
  · have hne : objectColumn ≠ "id" := by decide
    rw [value_cons_of_ne hne, value_cons_self, value_cons_of_ne hne, value_cons_self]
    exact ho.trans (fun _ _ _ h h' => h.trans h') s.node (ho'.symm (fun _ _ h => h.symm) s.node)

theorem covered_crew : ∀ v ∈ crew.visits, v.Covered .byIdText crewRows := by
  simp only [visits, crew, Node.visits, Node.visitsOfAll, List.cons_append, List.nil_append,
    List.append_nil, List.forall_mem_cons, Visit.Covered]
  refine ⟨nofun, ?_, nofun, nofun⟩
  rintro b back behind ⟨⟩ ⟨⟩ -
  decide

theorem crew_skipping_teams :
    ∃ rows joined,
      (crew.objectQuery ["2", "1"] ⟨true⟩).answer? .byIdText .inOrder crewRows = some rows ∧
      (crew.objectQuery ["2", "1"] ⟨false⟩).answer? .byIdText .inOrder crewRows = some joined ∧
      UpToOrder (fun out out' => out.value "id" = out'.value "id" ∧
        crew.node.Alike Eq (out.value objectColumn) (out'.value objectColumn)) rows joined :=
  crew.objectQuery_skipping_middle_tables ["2", "1"] .byIdText .inOrder crewRows .inOrder
    (by decide) determined_crew covered_crew

end RootSchema

end EntityFeed
