import EntityFeed.Proofs.Impact.Walk

/-! The loop that takes a search from a hit to the root, one waypoint after the other. Where it leaves a
table out, it keeps the column that stands for the one of the table left out, and the waypoint that
comes next takes it up. -/
namespace EntityFeed
open Sql
open Waypoint (Noted steps innermost)

namespace Search

/-- The tables of a search, each with its alias. -/
def tables (s : Search) : List TableRef := s.source :: s.joins.map (·.table)

/-- That a search brings an alias in, once and for this table. -/
def Binds (s : Search) (qualifier table : String) : Prop :=
  s.tables.filter (·.qualifier = qualifier) = [⟨table, qualifier⟩]

variable {s : Search} {a : Aliases}

theorem map_qualifier_tables (s : Search) : s.tables.map (·.qualifier) = s.names := by
  rw [names, header, joinedTables, tables, List.map_cons, List.map_cons, List.map_map, List.map_map,
    List.map_map]
  rfl

theorem binds_start (table qualifier column : String) (values : List String) :
    Binds ⟨⟨table, qualifier⟩, column, values, []⟩ qualifier table := by
  simp [Binds, tables]

/-- The next alias is brought in by the join that it is for. -/
theorem Fits.binds_joined (h : s.Fits a) (table : String) (left right : ColumnRef) :
    (s.joined ⟨table, (a.next table).1⟩ left right).Binds (a.next table).1 table := by
  have fresh : s.tables.filter (·.qualifier = (a.next table).1) = [] := by
    refine List.filter_eq_nil_iff.mpr fun ref mem same => ?_
    have issued := h.issued ref.qualifier (s.map_qualifier_tables ▸ List.mem_map_of_mem mem)
    rw [of_decide_eq_true same] at issued
    exact Aliases.next_notMem_names a table issued
  have more : (s.joined ⟨table, (a.next table).1⟩ left right).tables =
      s.tables ++ [⟨table, (a.next table).1⟩] := by
    simp [tables, Search.joined]
  rw [Binds, more, List.filter_append, fresh]
  simp

end Search

/-- Whether the relation around another one is a belongs-to that joins on this column. -/
def Waypoint.joinsOn (column : String) : Option Relation → Bool
  | some (.belongsTo b) => b.key == column
  | _ => false

/-- Takes a search past a waypoint, unless it has the ids of the root there. -/
def Trail.advance (s : RootSchema) (t : Trail) (w : Waypoint) (a : Aliases) :
    (Trail ⊕ Discovery) × Aliases :=
  match w.step with
  | ⟨.belongsTo r, table⟩ =>
    let (qualifier, a) := a.next table
    (.inl (t.pastBelongsTo r table qualifier), a)
  | ⟨.hasMany r, table⟩ =>
    if w.depth == 0 && r.column == s.primaryKey then
      (.inr ⟨t.search, ⟨t.qualifier, t.override.getD r.key⟩⟩, a)
    else if Waypoint.joinsOn r.column w.parent then (.inl (t.skipHasMany r), a)
    else
      let (qualifier, a) := a.next table
      (.inl (t.pastHasMany r table qualifier), a)

/-- Takes a search past waypoints until it has the ids of the root. -/
def ascend (s : RootSchema) : List Waypoint → Trail → Aliases → Discovery × Aliases
  | [], t, a => (⟨t.search, ⟨t.qualifier, s.primaryKey⟩⟩, a)
  | w :: outer, t, a =>
    match t.advance s w a with
    | (.inl t, a) => ascend s outer t a
    | (.inr d, a) => (d, a)

theorem Waypoint.joinsOn_innermost (column : String) (way : List Waypoint) :
    joinsOn column (innermost way) = belongsToOn column (steps way) := by
  cases way with
  | nil => rfl
  | cons w outer =>
    obtain ⟨⟨r, table⟩, depth, parent⟩ := w
    cases r <;> rfl

/-- What the walk has noted tells the same as the steps of the way. -/
theorem ascend_eq_climb (s : RootSchema) {way : List Waypoint} (noted : Noted way) (t : Trail)
    (a : Aliases) : ascend s way t a = climb s (steps way) t a := by
  induction way generalizing t a with
  | nil => rfl
  | cons w outer ih =>
    obtain ⟨⟨r, table⟩, depth, parent⟩ := w
    obtain ⟨rfl, rfl, noted⟩ := noted
    cases r with
    | belongsTo r => exact ih noted _ _
    | hasMany r =>
      have outermost : (outer.length == 0) = (steps outer).isEmpty := by
        cases outer <;> rfl
      change ascend s _ t a = climb s (⟨.hasMany r, table⟩ :: steps outer) t a
      rw [ascend, Trail.advance, climb]
      simp only [outermost, Waypoint.joinsOn_innermost]
      split_ifs
      · rfl
      · exact ih noted _ _
      · exact ih noted _ _

section Advance

variable {s : RootSchema} {w : Waypoint} {t t' : Trail} {a a' : Aliases} {d : Discovery}

/-- That a has-many is left out for the belongs-to around it, which joins on the same column. -/
structure Waypoint.LeftOut (w : Waypoint) (r : HasMany) (b : BelongsTo) : Prop where
  relation : w.step.relation = .hasMany r
  parent : w.parent = some (.belongsTo b)
  column : b.key = r.column

theorem Waypoint.joinsOn_eq_true {column : String} {parent : Option Relation}
    (h : joinsOn column parent = true) : ∃ b, parent = some (.belongsTo b) ∧ b.key = column := by
  unfold joinsOn at h
  split at h
  · next b => exact ⟨b, rfl, beq_iff_eq.mp h⟩
  · contradiction

/-- The ways past a waypoint. -/
theorem Trail.advance_inl (h : t.advance s w a = (.inl t', a')) :
    (∃ r, w.step.relation = .belongsTo r ∧ a' = (a.next w.step.table).2 ∧
      t' = t.pastBelongsTo r w.step.table (a.next w.step.table).1) ∨
    (∃ r b, w.LeftOut r b ∧ a' = a ∧ t' = t.skipHasMany r) ∨
    ∃ r, w.step.relation = .hasMany r ∧ a' = (a.next w.step.table).2 ∧
      t' = t.pastHasMany r w.step.table (a.next w.step.table).1 := by
  obtain ⟨⟨r, table⟩, depth, parent⟩ := w
  cases r with
  | belongsTo r =>
    cases h
    exact .inl ⟨r, rfl, rfl, rfl⟩
  | hasMany r =>
    rw [advance] at h
    dsimp only at h
    split at h
    · cases h
    · split at h
      · next joins =>
        cases h
        obtain ⟨b, rfl, key⟩ := Waypoint.joinsOn_eq_true joins
        exact .inr (.inl ⟨r, b, ⟨rfl, rfl, key⟩, rfl, rfl⟩)
      · cases h
        exact .inr (.inr ⟨r, rfl, rfl, rfl⟩)

theorem Trail.advance_inr (h : t.advance s w a = (.inr d, a')) :
    ∃ r, w.step.relation = .hasMany r ∧ w.depth = 0 ∧ r.column = s.primaryKey ∧ a' = a ∧
      d = ⟨t.search, ⟨t.qualifier, t.override.getD r.key⟩⟩ := by
  obtain ⟨⟨r, table⟩, depth, parent⟩ := w
  cases r with
  | belongsTo r => cases h
  | hasMany r =>
    rw [advance] at h
    dsimp only at h
    split at h
    · next outermost =>
      cases h
      rw [Bool.and_eq_true, beq_iff_eq, beq_iff_eq] at outermost
      exact ⟨r, rfl, outermost.1, outermost.2, rfl, rfl⟩
    · split at h <;> cases h

end Advance

/-- The table that the rows behind a way are of. -/
def RootSchema.farTable (s : RootSchema) : List Waypoint → String
  | [] => s.table
  | w :: _ => w.step.relation.table

theorem RootSchema.Leads.eq_farTable {s : RootSchema} {way : List Waypoint} {table : String}
    (h : s.Leads (steps way) table) : table = s.farTable way := by
  cases way with
  | nil => exact h
  | cons w outer => exact h.1

theorem Trail.Fits.binds_pastBelongsTo {t : Trail} {a : Aliases} (h : t.Fits a) (r : BelongsTo)
    (table : String) :
    (t.pastBelongsTo r table (a.next table).1).search.Binds (a.next table).1 table := by
  unfold Trail.pastBelongsTo
  dsimp only
  split
  · split
    · exact Search.binds_start _ _ _ _
    · exact h.search.binds_joined table _ _
  · exact h.search.binds_joined table _ _

/-- The invariant of the loop, with the waypoints that are done and those that are left. -/
structure Trail.Sound (s : RootSchema) (done rest : List Waypoint) (t : Trail) (a : Aliases) :
    Prop where
  noted : Noted rest
  leads : s.Leads (steps rest) (s.farTable rest)
  fits : t.Fits a
  leaf : t.leaf ≠ none → done = []
  reached : t.override = none → t.search.Binds t.qualifier (s.farTable rest)
  pending : t.override ≠ none → ∃ b, innermost rest = some (.belongsTo b)

namespace Trail.Sound

variable {s : RootSchema} {w : Waypoint} {done rest : List Waypoint} {t t' : Trail} {a a' : Aliases}

/-- No has-many meets a column that is kept for another relation. -/
theorem override_of_hasMany (h : t.Sound s done (w :: rest) a) {r : HasMany}
    (hr : w.step.relation = .hasMany r) : t.override = none := by
  by_contra pending
  obtain ⟨b, next⟩ := h.pending pending
  have same : some w.step.relation = some (.belongsTo b) := next
  rw [hr] at same
  cases same

theorem table_eq (h : t.Sound s done (w :: rest) a) : w.step.table = s.farTable rest :=
  h.leads.2.eq_farTable

/-- The invariant is kept past a waypoint. -/
theorem advance (h : t.Sound s done (w :: rest) a) (passed : t.advance s w a = (.inl t', a')) :
    t'.Sound s (w :: done) rest a' := by
  have around := h.table_eq
  have leads : s.Leads (steps rest) (s.farTable rest) := around ▸ h.leads.2
  obtain ⟨r, hr, rfl, rfl⟩ | ⟨r, b, out, rfl, rfl⟩ | ⟨r, hr, rfl, rfl⟩ := advance_inl passed
  · -- A belongs-to brings its table in and takes up what has been kept, the leaf or the column.
    refine ⟨h.noted.2.2, leads, h.fits.pastBelongsTo r _, absurd rfl, fun _ => ?_, absurd rfl⟩
    rw [← around]
    exact h.fits.binds_pastBelongsTo r _
  · -- The search stays where it is. The parent that has been noted is the waypoint that comes next.
    refine ⟨h.noted.2.2, leads, ⟨h.fits.search, h.fits.reached⟩, absurd rfl, nofun, fun _ => ?_⟩
    exact ⟨b, h.noted.2.1.symm.trans out.parent⟩
  · refine ⟨h.noted.2.2, leads, h.fits.pastHasMany r _, absurd rfl, fun _ => ?_, absurd rfl⟩
    rw [← around]
    exact h.fits.search.binds_joined _ _ _

end Trail.Sound

namespace Visit

variable (v : Visit) (e : ChangeEvent) (qualifier : String)

theorem override_trail : (v.trail e qualifier).override = none := by
  unfold trail
  split <;> rfl

theorem binds_trail :
    (v.trail e qualifier).search.Binds (v.trail e qualifier).qualifier v.table := by
  unfold trail
  split <;> exact Search.binds_start _ _ _ _

end Visit

namespace Passage

/-- The search for a passage before a step of the loop or after the last one. The waypoints that are done
come with the last one first. -/
inductive Stage (s : RootSchema) (e : ChangeEvent) (p : Passage) (a : Aliases) :
    List Waypoint → List Waypoint → Trail → Aliases → Prop
  | start : Stage s e p a [] p.way (p.visit.trail e (a.next p.table).1) (a.next p.table).2
  | next {done rest : List Waypoint} {w : Waypoint} {t t' : Trail} {b b' : Aliases}
      (before : Stage s e p a done (w :: rest) t b) (passed : t.advance s w b = (.inl t', b')) :
      Stage s e p a (w :: done) rest t' b'

/-- That the column that a search keeps is that of a has-many which has just been left out. The belongs-to
around that comes next and is joined on the column, which is kept no longer. -/
def Handover (s : RootSchema) (e : ChangeEvent) (p : Passage) (a : Aliases)
    (done rest : List Waypoint) (t : Trail) (b : Aliases) (column : String) : Prop :=
  ∃ w past before r c next outer, done = w :: past ∧ rest = next :: outer ∧
    Stage s e p a past (w :: rest) before b ∧ w.LeftOut r c ∧ t = before.skipHasMany r ∧
    column = r.key ∧ next.step.relation = .belongsTo c ∧ t.search.Binds t.qualifier r.table ∧
    ∃ t' b', t.advance s next b = (.inl t', b') ∧ t'.override = none ∧
      t'.search = t.search.joined ⟨next.step.table, t'.qualifier⟩ ⟨t'.qualifier, c.column⟩
        ⟨t.qualifier, column⟩

/-- What holds of a search at each stage. -/
structure Kept (s : RootSchema) (e : ChangeEvent) (p : Passage) (a : Aliases)
    (done rest : List Waypoint) (t : Trail) (b : Aliases) : Prop where
  override : ∀ column, t.override = some column → Handover s e p a done rest t b column
  leaf : t.leaf ≠ none → done = []
  reached : t.override = none → t.search.Binds t.qualifier (s.farTable rest)
  hasMany : ∀ w outer r, rest = w :: outer → w.step.relation = .hasMany r → t.override = none
  /-- When no waypoint is left, nothing is kept, and the root has been reached. Only where there has been
  no waypoint at all, a leaf is still there. -/
  finished : rest = [] → t.override = none ∧ (done ≠ [] → t.leaf = none) ∧
    t.search.Binds t.qualifier s.table

section Stages

variable {s : RootSchema} {e : ChangeEvent} {p : Passage} {a b : Aliases} {done rest : List Waypoint}
  {t : Trail}

theorem Stage.sound (hp : p ∈ s.walk) (h : p.Stage s e a done rest t b) : t.Sound s done rest b := by
  induction h with
  | start =>
    have far := (leads hp).eq_farTable
    refine ⟨noted hp, far ▸ leads hp, p.visit.trail_fits e a, fun _ => rfl, fun _ => ?_, ?_⟩
    · rw [← far]
      exact p.visit.binds_trail e _
    · exact absurd (p.visit.override_trail e _)
  | next before passed ih => exact ih.advance passed

theorem Stage.handover (hp : p ∈ s.walk) (h : p.Stage s e a done rest t b) {column : String}
    (kept : t.override = some column) : p.Handover s e a done rest t b column := by
  cases h with
  | start =>
    rw [Visit.override_trail] at kept
    cases kept
  | @next past _ w before _ _ _ earlier passed =>
    have sound := earlier.sound hp
    -- Of the ways past a waypoint only the second keeps a column.
    obtain ⟨r, -, -, rfl⟩ | ⟨r, c, out, rfl, rfl⟩ | ⟨r, -, -, rfl⟩ := Trail.advance_inl passed
    · cases kept
    · cases kept
      have around : innermost rest = some (.belongsTo c) := sound.noted.2.1.symm.trans out.parent
      obtain ⟨next, outer, rfl⟩ : ∃ next outer, rest = next :: outer := by
        cases rest with
        | nil => cases around
        | cons next outer => exact ⟨next, outer, rfl⟩
      have belongsTo : next.step.relation = .belongsTo c := Option.some.inj around
      -- The has-many has met no column itself, so that its table was the one come to.
      have binds := sound.reached (sound.override_of_hasMany out.relation)
      rw [RootSchema.farTable, out.relation] at binds
      refine ⟨w, past, before, r, c, next, outer, rfl, rfl, earlier, out, rfl, rfl, belongsTo, binds, ?_⟩
      obtain ⟨⟨_, near⟩, depth, parent⟩ := next
      cases belongsTo
      exact ⟨_, _, rfl, rfl, rfl⟩
    · cases kept

theorem Stage.kept (hp : p ∈ s.walk) (h : p.Stage s e a done rest t b) :
    p.Kept s e a done rest t b := by
  have sound := h.sound hp
  refine ⟨fun column kept => h.handover hp kept, sound.leaf, sound.reached, ?_, ?_⟩
  · rintro w outer r rfl hasMany
    exact sound.override_of_hasMany hasMany
  · rintro rfl
    have none_kept : t.override = none := by
      by_contra kept
      obtain ⟨c, next⟩ := sound.pending kept
      cases next
    exact ⟨none_kept, fun some_done => not_not.mp fun left => some_done (sound.leaf left),
      sound.reached none_kept⟩

/-- Each stage goes on to the last one, which has the ids of the root. -/
theorem Stage.exists_last (hp : p ∈ s.walk) (h : p.Stage s e a done rest t b) :
    ∃ done' rest' t' b', p.Stage s e a done' rest' t' b' ∧
      (rest' = [] ∧ ascend s rest t b = (⟨t'.search, ⟨t'.qualifier, s.primaryKey⟩⟩, b') ∨
        ∃ w r, rest' = [w] ∧ w.step.relation = .hasMany r ∧ r.column = s.primaryKey ∧
          ascend s rest t b = (⟨t'.search, ⟨t'.qualifier, r.key⟩⟩, b')) := by
  induction rest generalizing done t b with
  | nil => exact ⟨done, [], t, b, h, .inl ⟨rfl, rfl⟩⟩
  | cons w outer ih =>
    rw [ascend]
    split
    · next passed => exact ih (h.next passed)
    · next arrived =>
      have sound := h.sound hp
      obtain ⟨r, hasMany, outermost, key, rfl, rfl⟩ := Trail.advance_inr arrived
      have alone : outer = [] := List.length_eq_zero_iff.mp (sound.noted.1.symm.trans outermost)
      rw [sound.override_of_hasMany hasMany]
      exact ⟨done, w :: outer, t, _, h, .inr ⟨w, r, alone ▸ rfl, hasMany, key, rfl⟩⟩

end Stages
end Passage

/-- The loop that takes a search from a hit to the root, whatever the hit and the event. The walk notes on
its way what the steps of a path tell, and the loop gives the discovery of the hit. At each stage a
column that is kept is handed over to the next waypoint, no has-many meets one, and the search has come
to the table that the next waypoint leads to, in the end to that of the root. -/
theorem RootSchema.climb_invariant (s : RootSchema) (e : ChangeEvent) (a : Aliases) {p : Passage}
    (hp : p ∈ s.walk) :
    s.walk.map Passage.visit = s.visits ∧ Noted p.way ∧
    (∀ done rest t b, p.Stage s e a done rest t b → p.Kept s e a done rest t b) ∧
    ∃ done rest t b, p.Stage s e a done rest t b ∧
      (rest = [] ∧ p.visit.discovery s e a = (⟨t.search, ⟨t.qualifier, s.primaryKey⟩⟩, b) ∨
        ∃ w r, rest = [w] ∧ w.step.relation = .hasMany r ∧ r.column = s.primaryKey ∧
          p.visit.discovery s e a = (⟨t.search, ⟨t.qualifier, r.key⟩⟩, b)) := by
  have loop : ascend s p.way (p.visit.trail e (a.next p.table).1) (a.next p.table).2 =
      p.visit.discovery s e a := ascend_eq_climb s (Passage.noted hp) _ _
  rw [← loop]
  exact ⟨s.map_visit_walk, Passage.noted hp, fun _ _ _ _ h => h.kept hp,
    Passage.Stage.start.exists_last hp⟩

/-- The passage to the pages that readers have. -/
def readersPagesPassage : Passage where
  relation := .hasMany ⟨"id", "pages", "site_id"⟩
  table := "sites"
  node := .column "title"
  way := [
    ⟨⟨.belongsTo ⟨"site_id", "sites", "id", false⟩, "links"⟩, 3,
      some (.hasMany ⟨"id", "links", "topic_id"⟩)⟩,
    ⟨⟨.hasMany ⟨"id", "links", "topic_id"⟩, "topics"⟩, 2,
      some (.belongsTo ⟨"topic_id", "topics", "id", false⟩)⟩,
    ⟨⟨.belongsTo ⟨"topic_id", "topics", "id", false⟩, "articles"⟩, 1,
      some (.hasMany ⟨"id", "articles", "user_id"⟩)⟩,
    ⟨⟨.hasMany ⟨"id", "articles", "user_id"⟩, "users"⟩, 0, none⟩]

def pageAdded : ChangeEvent := .insertion "pages" [("site_id", .str "s")]

/-- On the way from a page the topics are left out, and the column of their links is kept meanwhile. -/
theorem readersPages_climb : readersPagesPassage ∈ readers.walk ∧ ∃ done rest t b,
    readersPagesPassage.Stage readers pageAdded {} done rest t b ∧ t.override = some "topic_id" ∧
      readersPagesPassage.Kept readers pageAdded {} done rest t b := by
  have hp : readersPagesPassage ∈ readers.walk :=
    List.mem_of_getElem? (show readers.walk[4]? = some readersPagesPassage from rfl)
  obtain ⟨-, -, kept, -⟩ := readers.climb_invariant pageAdded {} hp
  have first : readersPagesPassage.Stage readers pageAdded {} [] readersPagesPassage.way _ _ := .start
  have stage := (first.next rfl).next rfl
  exact ⟨hp, _, _, _, _, stage, rfl, kept _ _ _ _ stage⟩

/-- Users with the mentions of their names. -/
def mentioned : RootSchema where
  table := "users"
  primaryKey := "id"
  node := .relation (.hasMany ⟨"name", "mentions", "user_name"⟩) (.column "text")

def mentionAdded : ChangeEvent := .insertion "mentions" [("user_name", .str "ann")]

/-- The mentions are a relation of the root itself, but their key is not its id. The search for a new one
has no waypoint to pass, and the leaf that it starts with is still there when the loop is over. -/
theorem mentioned_leaf_left : ∃ p ∈ mentioned.walk,
    p.visit ∈ mentioned.hits mentionAdded ∧ p.visit.direct mentioned = false ∧
    ∃ t b, p.Stage mentioned mentionAdded {} [] [] t b ∧
      p.visit.discovery mentioned mentionAdded {} =
        (⟨t.search, ⟨t.qualifier, mentioned.primaryKey⟩⟩, b) ∧
      t.leaf = some ⟨"name", ["ann"]⟩ := by
  have hp : ⟨.hasMany ⟨"name", "mentions", "user_name"⟩, "users", .column "text", []⟩ ∈
      mentioned.walk := List.mem_cons_self
  exact ⟨_, hp, List.mem_filter.mpr ⟨List.mem_cons_self, rfl⟩, rfl, _, _, .start, rfl, rfl⟩

end EntityFeed
