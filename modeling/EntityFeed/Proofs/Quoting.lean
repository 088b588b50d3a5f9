import EntityFeed.Proofs.Impact.Hits
import EntityFeed.Proofs.Respelling
import EntityFeed.Proofs.Sql.Building
import EntityFeed.Proofs.Sql.Drawing

/-! The queries of a schema are read the same whatever its tables, columns and properties are called.
Each name is one lexeme of its own, and so is each value. -/
namespace EntityFeed
open Sql Sql.Lexeme

section Objects

variable {ρ : Renaming} {names : List Name}

structure ProjectionsRespelled (ρ : Renaming) (names : List Name) (p p' : Projection) : Prop where
  object : RespelledAll ρ names p.object.lexemes p'.object.lexemes
  joins : JoinsRespelled ρ names p.joins p'.joins

/-- Under a new name, a table's next alias has the same number. -/
theorem respelledIdent_next {table : String} (ht : .table table ∈ names) (a : Aliases) :
    RespelledIdent ρ names (a.next table).1 ((a.rename ρ).next (ρ.table table)).1 := by
  rw [Aliases.next_rename]
  exact .alias ht _

theorem Frame.select_respelled (frame : Frame) {table inner inner' key : String} {p p' : Projection}
    (hp : ProjectionsRespelled ρ names p p') (ht : .table table ∈ names)
    (hi : RespelledIdent ρ names inner inner') (hk : .column key ∈ names) :
    SelectsRespelled ρ names (frame.select ⟨table, inner⟩ key p)
      (frame.select ⟨ρ.table table, inner'⟩ (ρ.column key) p') := by
  have identifier : ColumnsRespelled ρ names ⟨inner, key⟩ ⟨inner', ρ.column key⟩ := ⟨hi, .column hk⟩
  have source : TablesRespelled ρ names ⟨table, inner⟩ ⟨ρ.table table, inner'⟩ := ⟨.table ht, hi⟩
  have object : RespelledIdent ρ names objectColumn objectColumn := .fixed (by decide)
  cases frame with
  | requested ids =>
    exact .of_parts rfl (.cons (respelledAll_output identifier.lexemes (.fixed (by decide)))
      (.cons (respelledAll_output hp.object object) .nil)) source hp.joins
      (.some identifier ids) .none
  | single =>
    exact .of_parts rfl (.cons (respelledAll_output identifier.lexemes (.column hk))
      (.cons (respelledAll_output hp.object object) .nil)) source hp.joins .none .none
  | grouped =>
    have gathered : RespelledAll ρ names (Selection.gathered p.object).lexemes
        (Selection.gathered p'.object).lexemes :=
      respelledAll_between (by decide) hp.object (by decide)
    exact .of_parts rfl (.cons (respelledAll_output identifier.lexemes (.column hk))
      (.cons (respelledAll_output gathered object) .nil)) source hp.joins .none (.some identifier)

theorem Relation.projection_respelled (r : Relation) {j j' : Joined}
    (joins : JoinsRespelled ρ names [j] [j'])
    (hq : RespelledIdent ρ names j.qualifier j'.qualifier) :
    ProjectionsRespelled ρ names (r.projection j) ((r.rename ρ).projection j') := by
  have value : ColumnsRespelled ρ names ⟨j.qualifier, objectColumn⟩ ⟨j'.qualifier, objectColumn⟩ :=
    ⟨hq, .fixed (by decide : .ident objectColumn ∈ vocabulary)⟩
  cases r with
  | belongsTo r => exact ⟨value.lexemes, joins⟩
  | hasMany r => exact ⟨respelledAll_between (by decide) value.lexemes (by decide), joins⟩

/-- A target is joined alike if the rows behind it are projected alike. -/
theorem Target.join_respelled (o : ObjectQueryOptions) {q q' : String}
    (hq : RespelledIdent ρ names q q') (t : Target) (own : t.relation.names ⊆ names) (a : Aliases)
    (behind : ProjectionsRespelled ρ names
        (t.node.project o (a.next t.relation.table).1 (a.next t.relation.table).2).1
        ((t.node.rename ρ).project o ((a.rename ρ).next (ρ.table t.relation.table)).1
          ((a.next t.relation.table).2.rename ρ)).1 ∧
      ((t.node.rename ρ).project o ((a.rename ρ).next (ρ.table t.relation.table)).1
          ((a.next t.relation.table).2.rename ρ)).2 =
        (t.node.project o (a.next t.relation.table).1 (a.next t.relation.table).2).2.rename ρ) :
    JoinsRespelled ρ names [(t.join o q a).1] [((t.rename ρ).join o q' (a.rename ρ)).1] ∧
      RespelledIdent ρ names (t.join o q a).1.qualifier
        ((t.rename ρ).join o q' (a.rename ρ)).1.qualifier ∧
      ((t.rename ρ).join o q' (a.rename ρ)).2 = (t.join o q a).2.rename ρ := by
  obtain ⟨projected, later⟩ := behind
  have near : .column t.relation.column ∈ names := own (by simp [Relation.names])
  have far : .table t.relation.table ∈ names := own (by simp [Relation.names])
  have key : .column t.relation.key ∈ names := own (by simp [Relation.names])
  have inner : RespelledIdent ρ names _ _ := respelledIdent_next far a
  have outer : RespelledIdent ρ names _ _ := respelledIdent_next far
    (t.node.project o (a.next t.relation.table).1 (a.next t.relation.table).2).2
  have frame : (t.relation.rename ρ).frame = t.relation.frame := by cases t.relation <;> rfl
  have next (b : Aliases) : ((b.rename ρ).next (ρ.table t.relation.table)).2 =
      (b.next t.relation.table).2.rename ρ := by
    rw [Aliases.next_rename]
  unfold join nestedQuery
  simp only [Target.rename, Relation.column_rename, Relation.table_rename, Relation.key_rename, frame,
    next, later]
  have rows := t.relation.frame.select_respelled projected far inner key
  exact ⟨.nested .left rows outer ⟨hq, .column near⟩ ⟨outer, .column key⟩, outer, trivial⟩

mutual

theorem Node.project_respelled (o : ObjectQueryOptions) {q q' : String}
    (hq : RespelledIdent ρ names q q') (node : Node) (inside : node.names ⊆ names) (a : Aliases) :
    ProjectionsRespelled ρ names (node.project o q a).1
        ((node.rename ρ).project o q' (a.rename ρ)).1 ∧
      ((node.rename ρ).project o q' (a.rename ρ)).2 = (node.project o q a).2.rename ρ := by
  match node with
  | .column name =>
    have value : ColumnsRespelled ρ names ⟨q, name⟩ ⟨q', ρ.column name⟩ :=
      ⟨hq, .column (inside (.head _))⟩
    exact ⟨⟨value.lexemes, .nil⟩, rfl⟩
  | .object properties =>
    obtain ⟨fields, joins, later⟩ := projectAll_respelled o hq properties inside a
    rw [rename, project, project]
    have items : RespelledAll ρ names (comma.intercalate _) (comma.intercalate _) :=
      respelledAll_intercalate (by decide) fields
    exact ⟨⟨respelledAll_between (by decide) items (by decide), joins⟩, later⟩
  | .relation r node =>
    have parts := List.Subset.trans (r.names_target_subset o node) inside
    obtain ⟨own, behind⟩ := List.append_subset.mp parts
    have far : .table (r.target o node).relation.table ∈ names := own (by simp [Relation.names])
    have inner : RespelledIdent ρ names _ _ := respelledIdent_next far a
    obtain ⟨joins, outer, later⟩ := (r.target o node).join_respelled o hq own a
      (project_respelled o inner (r.target o node).node behind _)
    rw [rename, project_relation, project_relation, Relation.target_rename]
    exact ⟨(r.target o node).relation.projection_respelled joins outer, later⟩
termination_by sizeOf node
decreasing_by
  · exact Node.sizeOf_properties_lt properties
  · exact Relation.sizeOf_target_lt o r node

theorem Node.projectAll_respelled (o : ObjectQueryOptions) {q q' : String}
    (hq : RespelledIdent ρ names q q') (properties : List (String × Node))
    (inside : namesOfAll properties ⊆ names) (a : Aliases) :
    List.Forall₂ (RespelledAll ρ names) (Expr.fieldLexemes (projectAll o q properties a).1.1)
        (Expr.fieldLexemes (projectAll o q' (renameAll ρ properties) (a.rename ρ)).1.1) ∧
      JoinsRespelled ρ names (projectAll o q properties a).1.2
        (projectAll o q' (renameAll ρ properties) (a.rename ρ)).1.2 ∧
      (projectAll o q' (renameAll ρ properties) (a.rename ρ)).2 =
        (projectAll o q properties a).2.rename ρ := by
  match properties with
  | [] => exact ⟨.nil, .nil, rfl⟩
  | (name, node) :: rest =>
    rw [namesOfAll, List.append_subset, List.cons_subset] at inside
    obtain ⟨⟨own, here⟩, behind⟩ := inside
    obtain ⟨value, next⟩ := project_respelled o hq node here a
    obtain ⟨fields, joins, later⟩ := projectAll_respelled o hq rest behind (node.project o q a).2
    have sep : RespelledAll ρ names comma comma := respelledAll_fixed (by decide)
    rw [← next] at fields joins later
    rw [renameAll, projectAll, projectAll]
    exact ⟨.cons (.cons (.property own) (List.rel_append sep value.object)) fields,
      value.joins.append joins, later⟩
termination_by sizeOf properties

end

theorem RootSchema.objectQuery_respelled (ρ : Renaming) (s : RootSchema) (ids : List String)
    (o : ObjectQueryOptions) :
    SelectsRespelled ρ s.names (s.objectQuery ids o) ((s.rename ρ).objectQuery ids o) := by
  have table : .table s.table ∈ s.names := .head _
  have key : .column s.primaryKey ∈ s.names := .tail _ (.head _)
  have root : RespelledIdent ρ s.names (Aliases.next {} s.table).1 _ := respelledIdent_next table {}
  obtain ⟨projected, -⟩ := s.node.project_respelled o root (fun _ h => .tail _ (.tail _ h))
    (Aliases.next {} s.table).2
  exact Frame.select_respelled (.requested ids) projected table root key

end Objects

section Searches

variable {ρ : Renaming} {names : List Name}

structure InnerJoinsRespelled (ρ : Renaming) (names : List Name) (j j' : InnerJoin) : Prop where
  table : TablesRespelled ρ names j.table j'.table
  left : ColumnsRespelled ρ names j.left j'.left
  right : ColumnsRespelled ρ names j.right j'.right

/-- Searches for the same values. -/
structure SearchesRespelled (ρ : Renaming) (names : List Name) (s s' : Search) : Prop where
  source : TablesRespelled ρ names s.source s'.source
  column : RespelledIdent ρ names s.column s'.column
  values : s'.values = s.values
  joins : List.Forall₂ (InnerJoinsRespelled ρ names) s.joins s'.joins

structure TrailsRespelled (ρ : Renaming) (names : List Name) (t t' : Trail) : Prop where
  search : SearchesRespelled ρ names t.search t'.search
  qualifier : RespelledIdent ρ names t.qualifier t'.qualifier
  override : t'.override = t.override.map ρ.column
  known : ∀ column ∈ t.override, .column column ∈ names
  leaf : t'.leaf = t.leaf.map fun leaf => ⟨ρ.column leaf.column, leaf.values⟩

theorem SearchesRespelled.start {table qualifier qualifier' column : String} (values : List String)
    (ht : .table table ∈ names) (hq : RespelledIdent ρ names qualifier qualifier')
    (hc : .column column ∈ names) :
    SearchesRespelled ρ names ⟨⟨table, qualifier⟩, column, values, []⟩
      ⟨⟨ρ.table table, qualifier'⟩, ρ.column column, values, []⟩ :=
  ⟨⟨.table ht, hq⟩, .column hc, rfl, .nil⟩

theorem Trail.search_pastBelongsTo {t : Trail} {leaf : Leaf} (h : t.leaf = some leaf) (r : BelongsTo)
    (table qualifier : String) :
    (t.pastBelongsTo r table qualifier).search =
      if leaf.column = r.key then ⟨⟨table, qualifier⟩, r.column, leaf.values, []⟩
      else t.search.joined ⟨table, qualifier⟩ ⟨qualifier, r.column⟩
        ⟨t.qualifier, t.override.getD r.key⟩ := by
  simp only [pastBelongsTo, h]

namespace TrailsRespelled

variable {t t' : Trail} {table qualifier qualifier' : String}

/-- The column to go on from. -/
theorem near (h : TrailsRespelled ρ names t t') {key : String} (hk : .column key ∈ names) :
    ColumnsRespelled ρ names ⟨t.qualifier, t.override.getD key⟩
      ⟨t'.qualifier, t'.override.getD (ρ.column key)⟩ := by
  refine ⟨h.qualifier, ?_⟩
  rw [h.override]
  cases ho : t.override with
  | none => exact .column hk
  | some column => exact .column (h.known column ho)

theorem joined (h : TrailsRespelled ρ names t t') (ht : .table table ∈ names)
    (hq : RespelledIdent ρ names qualifier qualifier') {column key : String}
    (hc : .column column ∈ names) (hk : .column key ∈ names) :
    SearchesRespelled ρ names
      (t.search.joined ⟨table, qualifier⟩ ⟨qualifier, column⟩ ⟨t.qualifier, t.override.getD key⟩)
      (t'.search.joined ⟨ρ.table table, qualifier'⟩ ⟨qualifier', ρ.column column⟩
        ⟨t'.qualifier, t'.override.getD (ρ.column key)⟩) :=
  ⟨h.search.source, h.search.column, h.search.values,
    List.rel_append h.search.joins (.cons ⟨⟨.table ht, hq⟩, ⟨hq, .column hc⟩, h.near hk⟩ .nil)⟩

theorem pastBelongsTo (h : TrailsRespelled ρ names t t') {r : BelongsTo}
    (own : (Relation.belongsTo r).names ⊆ names) (near : .table table ∈ names)
    (hq : RespelledIdent ρ names qualifier qualifier') :
    TrailsRespelled ρ names (t.pastBelongsTo r table qualifier)
      (t'.pastBelongsTo (r.rename ρ) (ρ.table table) qualifier') := by
  have column : .column r.column ∈ names := own (.head _)
  have key : .column r.key ∈ names := own (.tail _ (.tail _ (.head _)))
  have joined := h.joined near hq column key
  have leaf := h.leaf
  refine ⟨?_, hq, rfl, nofun, rfl⟩
  cases ht : t.leaf with
  | none =>
    rw [ht] at leaf
    simp only [Trail.pastBelongsTo, ht, leaf, Option.map_none]
    exact joined
  | some l =>
    rw [ht] at leaf
    -- Which way is taken depends on whether two columns are the same, and they stay so or stay apart.
    have same : (⟨ρ.column l.column, l.values⟩ : Leaf).column = (r.rename ρ).key ↔ l.column = r.key :=
      ρ.column.injective.eq_iff
    rw [Trail.search_pastBelongsTo ht, Trail.search_pastBelongsTo leaf]
    by_cases hl : l.column = r.key
    · rw [if_pos hl, if_pos (same.mpr hl)]
      exact .start l.values near hq column
    · rw [if_neg hl, if_neg (mt same.mp hl)]
      exact joined

theorem pastHasMany (h : TrailsRespelled ρ names t t') {r : HasMany}
    (own : (Relation.hasMany r).names ⊆ names) (ht : .table table ∈ names)
    (hq : RespelledIdent ρ names qualifier qualifier') :
    TrailsRespelled ρ names (t.pastHasMany r table qualifier)
      (t'.pastHasMany (r.rename ρ) (ρ.table table) qualifier') :=
  ⟨h.joined ht hq (own (.head _)) (own (.tail _ (.tail _ (.head _)))), hq, rfl, nofun, rfl⟩

theorem skipHasMany (h : TrailsRespelled ρ names t t') {r : HasMany}
    (own : (Relation.hasMany r).names ⊆ names) :
    TrailsRespelled ρ names (t.skipHasMany r) (t'.skipHasMany (r.rename ρ)) := by
  refine ⟨h.search, h.qualifier, rfl, fun column hc => ?_, rfl⟩
  cases hc
  exact own (.tail _ (.tail _ (.head _)))

end TrailsRespelled

structure DiscoveriesRespelled (ρ : Renaming) (names : List Name) (d d' : Discovery) : Prop where
  search : SearchesRespelled ρ names d.search d'.search
  id : ColumnsRespelled ρ names d.id d'.id

theorem climb_respelled {s : RootSchema} (key : .column s.primaryKey ∈ names) {path : List Step}
    (inside : path.flatMap Step.names ⊆ names) {t t' : Trail} (h : TrailsRespelled ρ names t t')
    (a : Aliases) :
    DiscoveriesRespelled ρ names (climb s path t a).1
        (climb (s.rename ρ) (path.map (Step.rename ρ)) t' (a.rename ρ)).1 ∧
      (climb (s.rename ρ) (path.map (Step.rename ρ)) t' (a.rename ρ)).2 =
        (climb s path t a).2.rename ρ := by
  induction path generalizing t t' a with
  | nil => exact ⟨⟨h.search, h.qualifier, .column key⟩, rfl⟩
  | cons step outer ih =>
    obtain ⟨r, table⟩ := step
    rw [List.flatMap_cons, List.append_subset] at inside
    obtain ⟨step, rest⟩ := inside
    obtain ⟨near, own⟩ := List.cons_subset.mp step
    have next : RespelledIdent ρ names (a.next table).1 _ := respelledIdent_next near a
    have later : ((a.rename ρ).next (ρ.table table)).2 = (a.next table).2.rename ρ := by
      rw [Aliases.next_rename]
    cases r with
    | belongsTo r =>
      have past := ih rest (h.pastBelongsTo own near next) (a.next table).2
      rw [← later] at past
      rw [List.map_cons, Step.rename, Relation.rename, climb, climb]
      exact past
    | hasMany r =>
      rw [List.map_cons, Step.rename, Relation.rename, climb, climb]
      -- The way past a has-many is chosen by comparing columns, which comes out the same.
      have top : ((outer.map (Step.rename ρ)).isEmpty &&
          (r.rename ρ).column == (s.rename ρ).primaryKey) =
          (outer.isEmpty && r.column == s.primaryKey) := by
        rw [List.isEmpty_map]
        exact congrArg _ (ρ.column_beq _ _)
      have skipped : belongsToOn (r.rename ρ).column (outer.map (Step.rename ρ)) =
          belongsToOn r.column outer := belongsToOn_rename ρ r.column outer
      rw [top, skipped]
      split
      · exact ⟨⟨h.search, h.near (own (.tail _ (.tail _ (.head _))))⟩, rfl⟩
      · split
        · exact ih rest (h.skipHasMany own) a
        · have past := ih rest (h.pastHasMany own near next) (a.next table).2
          rw [← later] at past
          exact past

theorem Visit.discovery_respelled {s : RootSchema} (key : .column s.primaryKey ∈ names)
    (e : ChangeEvent) {v : Visit} (inside : v.names ⊆ names) (a : Aliases) :
    DiscoveriesRespelled ρ names (v.discovery s e a).1
        ((v.rename ρ).discovery (s.rename ρ) (e.rename ρ) (a.rename ρ)).1 ∧
      ((v.rename ρ).discovery (s.rename ρ) (e.rename ρ) (a.rename ρ)).2 =
        (v.discovery s e a).2.rename ρ := by
  obtain ⟨near, parts⟩ := List.cons_subset.mp inside
  obtain ⟨own, path⟩ := List.append_subset.mp parts
  have column : .column v.relation.column ∈ names := own (by simp [Relation.names])
  have first : RespelledIdent ρ names (a.next v.table).1 _ := respelledIdent_next near a
  have later : ((a.rename ρ).next (ρ.table v.table)).2 = (a.next v.table).2.rename ρ := by
    rw [Aliases.next_rename]
  have values : (e.rename ρ).idValues (v.rename ρ).relation.key = e.idValues v.relation.key := by
    rw [Visit.rename, Relation.key_rename, ChangeEvent.idValues_rename]
  have trail : TrailsRespelled ρ names (v.trail e (a.next v.table).1)
      ((v.rename ρ).trail (e.rename ρ) ((a.rename ρ).next (ρ.table v.table)).1) := by
    have search := SearchesRespelled.start (e.idValues v.relation.key) near first column
    have unknown : ∀ column ∈ (none : Option String), Name.column column ∈ names := by simp
    obtain ⟨r, table, node, p⟩ := v
    rw [Visit.trail, Visit.trail, values]
    cases r with
    | belongsTo r => exact ⟨search, first, rfl, unknown, rfl⟩
    | hasMany r => exact ⟨search, first, rfl, unknown, rfl⟩
  have climbed := climb_respelled key path trail (a.next v.table).2
  rw [← later] at climbed
  exact climbed

theorem discoveries_respelled {s : RootSchema} (key : .column s.primaryKey ∈ names) (e : ChangeEvent)
    {vs : List Visit} (inside : ∀ v ∈ vs, v.names ⊆ names) (a : Aliases) :
    List.Forall₂ (DiscoveriesRespelled ρ names) (discoveries s e vs a)
      (discoveries (s.rename ρ) (e.rename ρ) (vs.map (Visit.rename ρ)) (a.rename ρ)) := by
  induction vs generalizing a with
  | nil => exact .nil
  | cons v rest ih =>
    obtain ⟨here, later⟩ := List.forall_mem_cons.mp inside
    obtain ⟨found, next⟩ := v.discovery_respelled key e here a
    have others := ih later (v.discovery s e a).2
    rw [← next] at others
    exact .cons found others

theorem RootSchema.branches_respelled (ρ : Renaming) (s : RootSchema) (e : ChangeEvent) :
    List.Forall₂ (DiscoveriesRespelled ρ s.names) (s.impact e).branches
      ((s.rename ρ).impact (e.rename ρ)).branches := by
  have indirect : ((s.rename ρ).hits (e.rename ρ)).filter (!·.direct (s.rename ρ)) =
      ((s.hits e).filter (!·.direct s)).map (Visit.rename ρ) := by
    simp [hits_rename, List.filter_map, Function.comp_def, Visit.direct_rename]
  have inside (v : Visit) (hv : v ∈ (s.hits e).filter (!·.direct s)) : v.names ⊆ s.names :=
    s.names_visits v (List.mem_of_mem_filter (List.mem_of_mem_filter hv))
  have found := discoveries_respelled (ρ := ρ) (.tail _ (.head _)) e inside {}
  rw [← indirect] at found
  exact found

theorem DiscoveriesRespelled.select {d d' : Discovery} (h : DiscoveriesRespelled ρ names d d') :
    SelectsRespelled ρ names d.select d'.select := by
  have joins : JoinsRespelled ρ names
      (d.search.joins.map fun j => .table .inner j.table j.left j.right)
      (d'.search.joins.map fun j => .table .inner j.table j.left j.right) := by
    have all := h.search.joins
    generalize d.search.joins = js at all ⊢
    generalize d'.search.joins = js' at all ⊢
    induction all with
    | nil => exact .nil
    | cons here _ ih => exact .table .inner here.table here.left here.right ih
  have column : ColumnsRespelled ρ names ⟨d.search.source.qualifier, d.search.column⟩
      ⟨d'.search.source.qualifier, d'.search.column⟩ :=
    ⟨h.search.source.qualifier, h.search.column⟩
  unfold Discovery.select
  rw [h.search.values]
  have id : RespelledAll ρ names (Output.mk (.value (.column d.id)) "id").lexemes
      (Output.mk (.value (.column d'.id)) "id").lexemes :=
    respelledAll_output h.id.lexemes (.fixed (by decide))
  exact .of_parts rfl (.cons id .nil) h.search.source joins (.some column _) (.some h.id)

end Searches

/-- That a statement is read as these lexemes in all its spellings: with placeholders, one for each
value; with literals in their places; and put together with tokens that are in none of its names, and
for the literals in none of its values. -/
structure Sql.Statement.Reads (s : Statement) (xs : List Lexeme) : Prop where
  sql : lex s.compile.sql.toList = some xs
  literal : lex s.literal.toList = some (xs.map (Lexeme.inPlace s.compile.values))
  places : (numbers xs).Perm (List.range' 1 s.compile.values.length)
  made : ∃ b : Builder, b.Made s
  compiled : ∀ b : Builder, b.Made s → b.Drawn xs → b.compile = s.compile
  written : ∀ b : Builder, b.Made s → b.Drawn (xs.map (Lexeme.inPlace s.compile.values)) →
    b.literal = s.literal

theorem Sql.Statement.Spelled.reads {s : Statement} {xs : List Lexeme} (h : s.Spelled xs)
    (barred : ∀ t : Token, (∀ x ∈ xs, x.Lacks t) → ∀ u ∈ s.withAttached, u.clauses.Barred t)
    (made : ∃ b : Builder, b.Made s) : s.Reads xs where
  sql := h.lex_sql
  literal := h.lex_literal
  places := h.numbers
  made := made
  compiled _ made drawn := made.compile_eq (drawn.apart barred)
  written _ made drawn := made.literal_eq (drawn.of_inPlace.apart barred) fun _ ht _ mem =>
    drawn.settled h ht mem

theorem Sql.Select.reads (q : Select) : q.statement.Reads (q.lexemes 1) :=
  q.spelled.reads (fun _ => q.barred 1) q.exists_made

theorem Sql.Query.reads (q : Query) {c : Clauses} (first : q.first.statement = ⟨c, []⟩)
    (plain : c.Plain) : q.statement.Reads q.lexemes := by
  refine (q.spelled first plain).reads (fun _ => q.barred first) ?_
  obtain ⟨b, made⟩ := q.first.exists_made
  refine made.exists_union _ fun r hr => ?_
  obtain ⟨other, -, rfl⟩ := List.mem_map.mp hr
  exact other.exists_made

/-- That two statements are read alike, as these lexemes each, and bind the same values. -/
structure ReadAlike (ρ : Renaming) (names : List Name) (s : Statement) (xs : List Lexeme)
    (s' : Statement) (xs' : List Lexeme) : Prop where
  reads : s.Reads xs
  reads' : s'.Reads xs'
  respelled : RespelledAll ρ names xs xs'
  values : s'.compile.values = s.compile.values

theorem SelectsRespelled.lexemesOfAll {ρ : Renaming} {names : List Name} {qs qs' : List Select}
    (h : List.Forall₂ (SelectsRespelled ρ names) qs qs') (start : Nat) :
    List.Forall₂ (RespelledAll ρ names) (Select.lexemesOfAll start qs)
      (Select.lexemesOfAll start qs') := by
  induction h generalizing start with
  | nil => exact .nil
  | cons here _ ih =>
    rw [Select.lexemesOfAll, Select.lexemesOfAll, here.values]
    exact .cons (here.lexemes start) (ih _)

/-- A union is read alike if its queries are. -/
theorem SelectsRespelled.readAlike {ρ : Renaming} {names : List Name} {q q' : Query} {c c' : Clauses}
    (h : List.Forall₂ (SelectsRespelled ρ names) q.selects q'.selects)
    (first : q.first.statement = ⟨c, []⟩) (plain : c.Plain)
    (first' : q'.first.statement = ⟨c', []⟩) (plain' : c'.Plain) :
    ReadAlike ρ names q.statement q.lexemes q'.statement q'.lexemes := by
  refine ⟨q.reads first plain, q'.reads first' plain', ?_, ?_⟩
  · exact respelledAll_intercalate (by decide) (lexemesOfAll h 1)
  · change q'.statement.values = q.statement.values
    rw [q.values_statement first, q'.values_statement first']
    generalize q.selects = qs at h ⊢
    generalize q'.selects = qs' at h ⊢
    induction h with
    | nil => rfl
    | cons here _ ih => rw [List.flatMap_cons, List.flatMap_cons, here.values, ih]

theorem Impact.readAlike {ρ : Renaming} {names : List Name} {i i' : Impact}
    (h : List.Forall₂ (DiscoveriesRespelled ρ names) i.branches i'.branches) :
    Option.Rel (fun q q' : Query => ReadAlike ρ names q.statement q.lexemes q'.statement q'.lexemes)
      i.union? i'.union? := by
  unfold union?
  generalize i.branches = ds at h ⊢
  generalize i'.branches = ds' at h ⊢
  cases h with
  | nil => exact .none
  | @cons d d' ds ds' here later =>
    obtain ⟨c, first, plain, -⟩ := d.statement_select
    obtain ⟨c', first', plain', -⟩ := d'.statement_select
    have others : List.Forall₂ (SelectsRespelled ρ names) (ds.map (·.select)) (ds'.map (·.select)) :=
      List.forall₂_map_right_iff.mpr (List.forall₂_map_left_iff.mpr (later.imp fun _ _ h => h.select))
    have all : List.Forall₂ (SelectsRespelled ρ names)
        (Query.selects ⟨d.select, ds.map (·.select)⟩)
        (Query.selects ⟨d'.select, ds'.map (·.select)⟩) :=
      .cons here.select others
    exact .some (SelectsRespelled.readAlike all first plain first' plain')

/-- Whatever the tables, columns and properties of a schema are called, its queries are read as their
lexemes, and with other names as the same ones but for the names. -/
theorem RootSchema.queries_readAlike (ρ : Renaming) (s : RootSchema) :
    (∀ ids o, ReadAlike ρ s.names
      (s.objectQuery ids o).statement ((s.objectQuery ids o).lexemes 1)
      ((s.rename ρ).objectQuery ids o).statement (((s.rename ρ).objectQuery ids o).lexemes 1)) ∧
    ∀ e, Option.Rel
      (fun q q' : Query => ReadAlike ρ s.names q.statement q.lexemes q'.statement q'.lexemes)
      (s.impact e).union? ((s.rename ρ).impact (e.rename ρ)).union? := by
  refine ⟨fun ids o => ?_, fun e => Impact.readAlike (s.branches_respelled ρ e)⟩
  have query := s.objectQuery_respelled ρ ids o
  exact ⟨Select.reads _, Select.reads _, query.lexemes 1, query.values⟩

/-- Names with quotes, a placeholder and a comment in them. -/
example : (RootSchema.objectQuery ⟨"a\"b", "$1", .object [("it's --", .column "x;")]⟩
    ["'; --"]).statement.compile.sql =
    "SELECT \"a\"\"b_1\".\"$1\" AS \"id\", JSON_BUILD_OBJECT('it''s --', \"a\"\"b_1\".\"x;\")" ++
      " AS \"object\" FROM \"a\"\"b\" AS \"a\"\"b_1\" WHERE \"a\"\"b_1\".\"$1\" = $1" := by
  decide +kernel

section Authors

open Builder

/-- Users with the titles of their articles. -/
def authors : RootSchema where
  table := "user"
  primaryKey := "id"
  node := .relation (.hasMany ⟨"id", "article", "author"⟩) (.column "title")

/-- The nested query for the titles. It binds nothing. -/
def titlesBuilder : Builder :=
  (((empty.source (TableRef.text ⟨"article", "article_1"⟩)).select
    (Output.text ⟨.value (.column ⟨"article_1", "author"⟩), "author"⟩)).select
    (Output.text ⟨.gathered (.column ⟨"article_1", "title"⟩), "object"⟩)).groupBy
    (ColumnRef.text ⟨"article_1", "author"⟩)

/-- The query for some users, put together with tokens that differ from each other. -/
def authorsBuilder (ids : List String) : Builder :=
  let (t, b) := (empty.source (TableRef.text ⟨"user", "user_1"⟩)).subQuery (uniform 255) titlesBuilder
  (((b.join .left ("(" ++ t ++ (") AS " ++ quoteIdent "article_2")) (ColumnRef.text ⟨"user_1", "id"⟩)
    (ColumnRef.text ⟨"article_2", "author"⟩)).select
    (Output.text ⟨.value (.column ⟨"user_1", "id"⟩), "id"⟩)).select
    (Output.text ⟨.value (.arrayOrEmpty ⟨"article_2", "object"⟩), "object"⟩)).whereIn
    (ColumnRef.text ⟨"user_1", "id"⟩) ids fun i => uniform (.ofNat i)

theorem made_authorsBuilder (ids : List String) :
    Made (authorsBuilder ids) (authors.objectQuery ids).statement := by
  have embeds (s : String) (n : Nat) := Fragment.embeds_ofText n s
  have titles := (((Made.empty.source _ (embeds (TableRef.text ⟨"article", "article_1"⟩) _)).select _
    (embeds (Output.text ⟨.value (.column ⟨"article_1", "author"⟩), "author"⟩) _)).select _
    (embeds (Output.text ⟨.gathered (.column ⟨"article_1", "title"⟩), "object"⟩) _)).groupBy _
    (embeds (ColumnRef.text ⟨"article_1", "author"⟩) _)
  have taken := (Made.empty.source _ (embeds (TableRef.text ⟨"user", "user_1"⟩) _)).subQuery
    (uniform 255) titles
  have nested : Fragment.Embeds 1
      [.text "(", .attached 0, .text (") AS " ++ quoteIdent "article_2")] := by
    simp [Fragment.Embeds]
  have made := (((taken.join ⟨.left, _, .ofText (ColumnRef.text ⟨"user_1", "id"⟩),
    .ofText (ColumnRef.text ⟨"article_2", "author"⟩)⟩ nested (embeds _ _) (embeds _ _)).select _
    (embeds (Output.text ⟨.value (.column ⟨"user_1", "id"⟩), "id"⟩) _)).select _
    (embeds (Output.text ⟨.value (.arrayOrEmpty ⟨"article_2", "object"⟩), "object"⟩) _)).whereIn
    (.ofText (ColumnRef.text ⟨"user_1", "id"⟩)) ids (fun i => uniform (.ofNat i)) (embeds _ _)
  have shown (subs : List String) : Fragment.written subs
      [.text "(", .attached 0, .text (") AS " ++ quoteIdent "article_2")] =
        "(" ++ subs.getD 0 "" ++ (") AS " ++ quoteIdent "article_2") := by
    simp [Fragment.written, String.append_assoc]
  simp only [Fragment.written_ofText, shown] at made
  exact made

theorem drawn_authorsBuilder :
    Drawn (authorsBuilder ["a", "b"])
      (((authors.objectQuery ["a", "b"]).lexemes 1).map (inPlace ["a", "b"])) := by
  refine ⟨by decide +kernel, ?_⟩
  unfold Lacks
  decide +kernel

/-- A renaming that makes every name longer. -/
def longer : Renaming :=
  let more : String ↪ String := ⟨(· ++ "x"), fun s s' same => by simpa using same⟩
  ⟨more, more, more⟩

/-- Put together with tokens, the query for two users is read as its lexemes, the titles and the rest. -/
theorem authors_readAlike :
    Made (authorsBuilder ["a", "b"]) (authors.objectQuery ["a", "b"]).statement ∧
    Drawn (authorsBuilder ["a", "b"])
      (((authors.objectQuery ["a", "b"]).lexemes 1).map (inPlace ["a", "b"])) ∧
    lex (authorsBuilder ["a", "b"]).compile.sql.toList =
      some ((authors.objectQuery ["a", "b"]).lexemes 1) ∧
    lex (authorsBuilder ["a", "b"]).literal.toList =
      some (((authors.objectQuery ["a", "b"]).lexemes 1).map (inPlace ["a", "b"])) ∧
    RespelledAll longer authors.names ((authors.objectQuery ["a", "b"]).lexemes 1)
      (((authors.rename longer).objectQuery ["a", "b"]).lexemes 1) := by
  have made := made_authorsBuilder ["a", "b"]
  have drawn := drawn_authorsBuilder
  have values : (authors.objectQuery ["a", "b"]).statement.compile.values = ["a", "b"] := by
    decide +kernel
  obtain ⟨reads, -, respelled, -⟩ := (authors.queries_readAlike longer).1 ["a", "b"] {}
  have written := reads.written _ made
  have literal := reads.literal
  rw [values] at written literal
  refine ⟨made, drawn, ?_, ?_, respelled⟩
  · rw [reads.compiled _ made drawn.of_inPlace]
    exact reads.sql
  · rw [written drawn]
    exact literal

/-- Things with a column of theirs. -/
def things : RootSchema := ⟨"t", "k", .column "c"⟩

def thingsBuilder (ids : List String) : Builder :=
  (((empty.source (TableRef.text ⟨"t", "t_1"⟩)).select
    (Output.text ⟨.value (.column ⟨"t_1", "k"⟩), "id"⟩)).select
    (Output.text ⟨.value (.column ⟨"t_1", "c"⟩), "object"⟩)).whereIn
    (ColumnRef.text ⟨"t_1", "k"⟩) ids fun i => uniform (.ofNat i)

theorem made_thingsBuilder (ids : List String) :
    Made (thingsBuilder ids) (things.objectQuery ids).statement := by
  have embeds (s : String) := Fragment.embeds_ofText 0 s
  have made := (((Made.empty.source _ (embeds (TableRef.text ⟨"t", "t_1"⟩))).select _
    (embeds (Output.text ⟨.value (.column ⟨"t_1", "k"⟩), "id"⟩))).select _
    (embeds (Output.text ⟨.value (.column ⟨"t_1", "c"⟩), "object"⟩))).whereIn
    (.ofText (ColumnRef.text ⟨"t_1", "k"⟩)) ids (fun i => uniform (.ofNat i)) (embeds _)
  simp only [Fragment.written_ofText] at made
  exact made

/-- An id with the token of the id that comes after it. -/
def tokenId : String := "x" ++ (uniform 1).text

/-- No token is in a name, but one is in an id. It is replaced there as well, which gives the list
`('x'b'', 'b')`, and that is no SQL. -/
theorem things_bent :
    Made (thingsBuilder [tokenId, "b"]) (things.objectQuery [tokenId, "b"]).statement ∧
    Drawn (thingsBuilder [tokenId, "b"]) ((things.objectQuery [tokenId, "b"]).lexemes 1) ∧
    lex (thingsBuilder [tokenId, "b"]).literal.toList = none := by
  have distinct : (thingsBuilder [tokenId, "b"]).tokens.Nodup := by decide +kernel
  have lacks : ∀ t ∈ (thingsBuilder [tokenId, "b"]).tokens,
      ∀ x ∈ (things.objectQuery [tokenId, "b"]).lexemes 1, x.Lacks t := by
    unfold Lacks
    decide +kernel
  have bindings : (thingsBuilder [tokenId, "b"]).render.bindings =
      [(uniform 0, tokenId), (uniform 1, "b")] := by decide +kernel
  have unread : lex (thingsBuilder [tokenId, "b"]).literal.toList = none := by
    rw [Builder.literal, bindings, fillIn, fillIn, fillIn, Text.replace, String.toList_ofList,
      Text.replace, String.toList_ofList]
    decide +kernel
  exact ⟨made_thingsBuilder [tokenId, "b"], ⟨distinct, lacks⟩, unread⟩

end Authors

end EntityFeed
