import EntityFeed.Proofs.Impact.Hits
import Mathlib.Data.List.Flatten
import Mathlib.Data.List.Forall2
import Mathlib.Data.List.Perm.Basic
import Mathlib.Logic.Function.Basic

/-! The impact of an object is what its properties have together. Nothing is handed on from one property
to the next but the aliases that have been issued, and with other aliases to start from a search is the
same one with its aliases renumbered. -/
namespace EntityFeed
open Sql

/-- The schema of the same rows with another node. -/
def RootSchema.withNode (s : RootSchema) (node : Node) : RootSchema := { s with node }

section Renumbering

/-- Counts the uses of tables on in their aliases. What is no alias is left as it is. -/
noncomputable def Sql.renumber (shift : String → Nat) : String → String :=
  Function.extend (fun use : String × Nat => aliasOf use.1 use.2)
    (fun use => aliasOf use.1 (use.2 + shift use.1)) id

theorem Sql.renumber_aliasOf (shift : String → Nat) (table : String) (n : Nat) :
    renumber shift (aliasOf table n) = aliasOf table (n + shift table) := by
  have injective : Function.Injective fun use : String × Nat => aliasOf use.1 use.2 :=
    fun _ _ same => Prod.ext_iff.mpr (aliasOf_inj same)
  exact injective.extend_apply _ _ (table, n)

/-- That the uses of tables are counted from a later number on. -/
def Sql.Aliases.Behind (shift : String → Nat) (a b : Aliases) : Prop :=
  ∀ table, b.issued.count table = a.issued.count table + shift table

theorem Sql.Aliases.behind_start (a : Aliases) : Behind (a.issued.count ·) {} a := fun _ =>
  (Nat.zero_add _).symm

variable {shift : String → Nat} {a b : Aliases}

theorem Sql.Aliases.Behind.next (h : Behind shift a b) (table : String) :
    (b.next table).1 = renumber shift (a.next table).1 ∧
      Behind shift (a.next table).2 (b.next table).2 := by
  constructor
  · rw [Aliases.next, h table, Nat.add_right_comm]
    exact (renumber_aliasOf shift table _).symm
  · intro other
    rw [Aliases.issued_next, Aliases.issued_next, List.count_cons, List.count_cons, h other]
    omega

end Renumbering

section Requalification

variable (f : String → String)

def Sql.TableRef.requalified (t : TableRef) : TableRef := { t with qualifier := f t.qualifier }

def Sql.ColumnRef.requalified (r : ColumnRef) : ColumnRef := { r with qualifier := f r.qualifier }

def InnerJoin.requalified (j : InnerJoin) : InnerJoin :=
  ⟨j.table.requalified f, j.left.requalified f, j.right.requalified f⟩

def Search.requalified (s : Search) : Search :=
  { s with source := s.source.requalified f, joins := s.joins.map (·.requalified f) }

def Trail.requalified (t : Trail) : Trail :=
  { t with search := t.search.requalified f, qualifier := f t.qualifier }

/-- The same search for ids under other aliases. -/
def Discovery.requalified (d : Discovery) : Discovery :=
  ⟨d.search.requalified f, d.id.requalified f⟩

theorem Search.requalified_joined (s : Search) (table : TableRef) (left right : ColumnRef) :
    (s.joined table left right).requalified f =
      (s.requalified f).joined (table.requalified f) (left.requalified f) (right.requalified f) := by
  simp [joined, requalified, InnerJoin.requalified]

theorem Trail.requalified_pastBelongsTo (t : Trail) (r : BelongsTo) (table qualifier : String) :
    (t.pastBelongsTo r table qualifier).requalified f =
      (t.requalified f).pastBelongsTo r table (f qualifier) := by
  obtain ⟨search, near, override, leaf⟩ := t
  cases leaf with
  | none => simp only [pastBelongsTo, requalified, Search.requalified_joined]; rfl
  | some leaf =>
    simp only [pastBelongsTo, requalified]
    split
    · rfl
    · rw [Search.requalified_joined]
      rfl

theorem Trail.requalified_pastHasMany (t : Trail) (r : HasMany) (table qualifier : String) :
    (t.pastHasMany r table qualifier).requalified f =
      (t.requalified f).pastHasMany r table (f qualifier) := by
  simp only [pastHasMany, requalified, Search.requalified_joined]
  rfl

theorem Trail.requalified_skipHasMany (t : Trail) (r : HasMany) :
    (t.skipHasMany r).requalified f = (t.requalified f).skipHasMany r := rfl

theorem Visit.requalified_trail (e : ChangeEvent) (v : Visit) (qualifier : String) :
    (v.trail e qualifier).requalified f = v.trail e (f qualifier) := by
  obtain ⟨r, table, node, path⟩ := v
  cases r <;> rfl

end Requalification

section Discoveries

variable {shift : String → Nat} {a b : Aliases} {s s' : RootSchema}

theorem climb_behind (key : s'.primaryKey = s.primaryKey) (path : List Step) (t : Trail)
    (h : Aliases.Behind shift a b) :
    (climb s' path (t.requalified (renumber shift)) b).1 =
        (climb s path t a).1.requalified (renumber shift) ∧
      Aliases.Behind shift (climb s path t a).2
        (climb s' path (t.requalified (renumber shift)) b).2 := by
  induction path generalizing t a b with
  | nil =>
    rw [climb, climb, key]
    exact ⟨rfl, h⟩
  | cons step outer ih =>
    obtain ⟨r, table⟩ := step
    obtain ⟨qualifier, next⟩ := h.next table
    cases r with
    | belongsTo r =>
      have past := ih (t.pastBelongsTo r table (a.next table).1) next
      rw [Trail.requalified_pastBelongsTo, ← qualifier] at past
      rw [climb, climb]
      exact past
    | hasMany r =>
      rw [climb, climb, key]
      split
      · exact ⟨rfl, h⟩
      · split
        · have past := ih (t.skipHasMany r) h
          rw [Trail.requalified_skipHasMany] at past
          exact past
        · have past := ih (t.pastHasMany r table (a.next table).1) next
          rw [Trail.requalified_pastHasMany, ← qualifier] at past
          exact past

theorem Visit.discovery_behind (key : s'.primaryKey = s.primaryKey) (e : ChangeEvent) (v : Visit)
    (h : Aliases.Behind shift a b) :
    (v.discovery s' e b).1 = (v.discovery s e a).1.requalified (renumber shift) ∧
      Aliases.Behind shift (v.discovery s e a).2 (v.discovery s' e b).2 := by
  obtain ⟨qualifier, next⟩ := h.next v.table
  have climbed := climb_behind key v.path (v.trail e (a.next v.table).1) next
  rw [Visit.requalified_trail, ← qualifier] at climbed
  exact climbed

/-- The searches for some hits are the same ones under renumbered aliases, whatever has been issued
before. -/
theorem discoveries_behind (key : s'.primaryKey = s.primaryKey) (e : ChangeEvent) (vs : List Visit)
    (h : Aliases.Behind shift a b) :
    discoveries s' e vs b = (discoveries s e vs a).map (·.requalified (renumber shift)) := by
  induction vs generalizing a b with
  | nil => rfl
  | cons v rest ih =>
    obtain ⟨first, next⟩ := v.discovery_behind key e h
    rw [discoveries, discoveries, List.map_cons]
    exact congrArg₂ _ first (ih next)

/-- What has been issued once the searches for some hits have their aliases. -/
def issuedFor (s : RootSchema) (e : ChangeEvent) (vs : List Visit) (a : Aliases) : Aliases :=
  vs.foldl (fun a v => (v.discovery s e a).2) a

theorem discoveries_append (s : RootSchema) (e : ChangeEvent) (vs ws : List Visit) (a : Aliases) :
    discoveries s e (vs ++ ws) a = discoveries s e vs a ++ discoveries s e ws (issuedFor s e vs a) := by
  induction vs generalizing a with
  | nil => rfl
  | cons v rest ih =>
    rw [List.cons_append, discoveries, discoveries, List.cons_append]
    exact congrArg _ (ih _)

end Discoveries

section Properties

variable {s : RootSchema} {e : ChangeEvent} {properties : List (String × Node)}

theorem Node.visitsOfAll_eq_flatMap (table : String) (path : List Step)
    (properties : List (String × Node)) :
    visitsOfAll table path properties = properties.flatMap fun m => m.2.visits table path := by
  induction properties with
  | nil => rfl
  | cons m rest ih => rw [visitsOfAll, ih, List.flatMap_cons]

theorem Node.localColumnsOfAll_eq_flatMap (properties : List (String × Node)) :
    localColumnsOfAll properties = properties.flatMap fun m => m.2.localColumns := by
  induction properties with
  | nil => rfl
  | cons m rest ih => rw [localColumnsOfAll, ih, List.flatMap_cons]

theorem RootSchema.hits_object (h : s.node = .object properties) :
    s.hits e = properties.flatMap fun m => (s.withNode m.2).hits e := by
  rw [hits, visits, h, Node.visits, Node.visitsOfAll_eq_flatMap, List.filter_flatMap]
  rfl

/-- An event changes a root row if it does so for a property. Without properties the row itself would
still be there. -/
theorem RootSchema.rootHit_object (h : s.node = .object properties) (some_ : properties ≠ []) :
    s.RootHit e ↔ ∃ m ∈ properties, (s.withNode m.2).RootHit e := by
  simp only [RootHit, withNode, h, Node.localColumns, Node.localColumnsOfAll_eq_flatMap,
    List.mem_flatMap]
  constructor
  · obtain ⟨m, hm⟩ := List.exists_mem_of_ne_nil properties some_
    rintro ⟨table, inserted | deleted | ⟨updated, column, changed, key | ⟨n, hn, read⟩⟩⟩
    · exact ⟨m, hm, table, .inl inserted⟩
    · exact ⟨m, hm, table, .inr (.inl deleted)⟩
    · exact ⟨m, hm, table, .inr (.inr ⟨updated, column, changed, .inl key⟩)⟩
    · exact ⟨n, hn, table, .inr (.inr ⟨updated, column, changed, .inr read⟩)⟩
  · rintro ⟨m, hm, table, inserted | deleted | ⟨updated, column, changed, key | read⟩⟩
    · exact ⟨table, .inl inserted⟩
    · exact ⟨table, .inr (.inl deleted)⟩
    · exact ⟨table, .inr (.inr ⟨updated, column, changed, .inl key⟩)⟩
    · exact ⟨table, .inr (.inr ⟨updated, column, changed, .inr ⟨m, hm, read⟩⟩)⟩

theorem RootSchema.mem_ids {id : String} : id ∈ (s.impact e).ids ↔ id ≠ "" ∧
    (s.RootHit e ∧ id ∈ e.idValues s.primaryKey ∨
      ∃ v ∈ s.hits e, v.direct s = true ∧ id ∈ e.idValues v.relation.key) := by
  have own : id ∈ (if s.rootRowChanged e then e.idValues s.primaryKey else []) ↔
      s.RootHit e ∧ id ∈ e.idValues s.primaryKey := by
    rw [← rootRowChanged_iff]
    split <;> simp_all
  rw [impact, mem_distinct, List.mem_filter, directIds, List.mem_append, own, List.mem_flatMap,
    bne_iff_ne, and_comm]
  simp only [List.mem_filter, and_assoc]

theorem RootSchema.mem_ids_object (h : s.node = .object properties) (some_ : properties ≠ [])
    {id : String} : id ∈ (s.impact e).ids ↔ ∃ m ∈ properties, id ∈ ((s.withNode m.2).impact e).ids := by
  simp only [mem_ids, rootHit_object h some_, hits_object h, List.mem_flatMap]
  constructor
  · rintro ⟨named, ⟨⟨m, hm, hit⟩, own⟩ | ⟨v, ⟨m, hm, hit⟩, direct, value⟩⟩
    · exact ⟨m, hm, named, .inl ⟨hit, own⟩⟩
    · exact ⟨m, hm, named, .inr ⟨v, hit, direct, value⟩⟩
  · rintro ⟨m, hm, named, ⟨hit, own⟩ | ⟨v, hit, direct, value⟩⟩
    · exact ⟨named, .inl ⟨⟨m, hm, hit⟩, own⟩⟩
    · exact ⟨named, .inr ⟨v, ⟨m, hm, hit⟩, direct, value⟩⟩

/-- The searches for an object are those for its properties one after the other, each with the aliases
counted on from what has been issued before. -/
theorem RootSchema.exists_shift (s : RootSchema) (e : ChangeEvent) (properties : List (String × Node))
    (a : Aliases) : ∃ shift : Nat → String → Nat,
      discoveries s e (properties.flatMap fun m =>
          ((s.withNode m.2).hits e).filter (!·.direct s)) a =
        (properties.mapIdx fun i m =>
          ((s.withNode m.2).impact e).branches.map (·.requalified (renumber (shift i)))).flatten := by
  induction properties generalizing a with
  | nil => exact ⟨fun _ _ => 0, rfl⟩
  | cons m rest ih =>
    -- The others go on from what the searches for the first have issued.
    obtain ⟨shift, others⟩ := ih (issuedFor s e (((s.withNode m.2).hits e).filter (!·.direct s)) a)
    have key : s.primaryKey = (s.withNode m.2).primaryKey := rfl
    have first := discoveries_behind key e (((s.withNode m.2).hits e).filter (!·.direct s))
      (Aliases.behind_start a)
    refine ⟨fun i => i.casesOn (a.issued.count ·) shift, ?_⟩
    rw [List.flatMap_cons, discoveries_append, others, first, List.mapIdx_cons, List.flatten_cons]
    rfl

theorem RootSchema.exists_branches_object (h : s.node = .object properties) :
    ∃ shift : Nat → String → Nat, (s.impact e).branches = (properties.mapIdx fun i m =>
      ((s.withNode m.2).impact e).branches.map (·.requalified (renumber (shift i)))).flatten := by
  rw [impact, hits_object h, List.filter_flatMap]
  exact s.exists_shift e properties {}

end Properties

section Order

/-- That a search is another one with its aliases counted on. -/
def Discovery.CountedOn (d d' : Discovery) : Prop := ∃ shift, d' = d.requalified (renumber shift)

/-- That two searches differ at most in the numbers of their aliases. -/
def Discovery.Alike (d d' : Discovery) : Prop := ∃ first : Discovery, first.CountedOn d ∧ first.CountedOn d'

variable {s : RootSchema} {e : ChangeEvent} {properties : List (String × Node)}

theorem RootSchema.countedOn_branches (h : s.node = .object properties) :
    List.Forall₂ Discovery.CountedOn
      (properties.flatMap fun m => ((s.withNode m.2).impact e).branches) (s.impact e).branches := by
  obtain ⟨shift, branches⟩ := s.exists_branches_object (e := e) h
  rw [branches]
  clear branches h
  induction properties generalizing shift with
  | nil => exact .nil
  | cons m rest ih =>
    rw [List.flatMap_cons, List.mapIdx_cons, List.flatten_cons]
    refine List.rel_append ?_ (ih fun i => shift (i + 1))
    rw [List.forall₂_map_right_iff, List.forall₂_same]
    exact fun d _ => ⟨_, rfl⟩

variable {base base' ds ds' : List Discovery}

/-- Under other aliases the same values are searched for. -/
theorem values_of_countedOn (h : List.Forall₂ Discovery.CountedOn base ds) :
    ds.map (·.search.values) = base.map (·.search.values) := by
  induction h with
  | nil => rfl
  | cons here _ ih =>
    obtain ⟨shift, rfl⟩ := here
    rw [List.map_cons, List.map_cons, ih]
    rfl

theorem alike_of_sublist (sub : base.Sublist base') (h : List.Forall₂ Discovery.CountedOn base ds)
    (h' : List.Forall₂ Discovery.CountedOn base' ds') : List.SublistForall₂ Discovery.Alike ds ds' := by
  induction sub generalizing ds ds' with
  | slnil =>
    cases h
    exact .nil
  | cons _ _ ih =>
    cases h' with
    | cons _ later => exact .cons_right (ih h later)
  | cons_cons _ _ ih =>
    cases h with
    | cons here later =>
      cases h' with
      | cons here' later' => exact .cons ⟨_, here, here'⟩ (ih later later')

theorem alike_of_countedOn (h : List.Forall₂ Discovery.CountedOn base ds)
    (h' : List.Forall₂ Discovery.CountedOn base ds') : List.Forall₂ Discovery.Alike ds ds' := by
  induction h generalizing ds' with
  | nil =>
    cases h'
    exact .nil
  | cons here _ ih =>
    cases h' with
    | cons here' later => exact .cons ⟨_, here, here'⟩ (ih later)

theorem alike_of_perm (perm : base'.Perm base) (h : List.Forall₂ Discovery.CountedOn base ds)
    (h' : List.Forall₂ Discovery.CountedOn base' ds') :
    ∃ order, order.Perm ds ∧ List.Forall₂ Discovery.Alike order ds' := by
  obtain ⟨order, each, same⟩ := List.perm_comp_forall₂ perm h
  exact ⟨order, same, alike_of_countedOn each h'⟩

end Order

/-- The impact of an object is the union of the impacts of its properties: of the ids, and of the
searches, which come one property after the other and are those of the property alone but for the
numbers of their aliases. So more properties have no smaller impact, and in another order they have the
same ids and the same searches in another order. -/
theorem RootSchema.impact_object {s : RootSchema} (e : ChangeEvent) {properties : List (String × Node)}
    (h : s.node = .object properties) (some_ : properties ≠ []) :
    (∀ id, id ∈ (s.impact e).ids ↔ ∃ m ∈ properties, id ∈ ((s.withNode m.2).impact e).ids) ∧
      (∃ shift : Nat → String → Nat, (s.impact e).branches = (properties.mapIdx fun i m =>
        ((s.withNode m.2).impact e).branches.map (·.requalified (renumber (shift i)))).flatten) ∧
      (s.impact e).branches.map (·.search.values) = (properties.flatMap fun m =>
        ((s.withNode m.2).impact e).branches).map (·.search.values) ∧
      (∀ others, properties.Sublist others →
        (s.impact e).ids ⊆ ((s.withNode (.object others)).impact e).ids ∧
          List.SublistForall₂ Discovery.Alike (s.impact e).branches
            ((s.withNode (.object others)).impact e).branches) ∧
      ∀ others, others.Perm properties →
        (∀ id, id ∈ ((s.withNode (.object others)).impact e).ids ↔ id ∈ (s.impact e).ids) ∧
          ∃ order, order.Perm (s.impact e).branches ∧
            List.Forall₂ Discovery.Alike order ((s.withNode (.object others)).impact e).branches := by
  have found := countedOn_branches (e := e) h
  have branches (others : List (String × Node)) :=
    countedOn_branches (s := s.withNode (.object others)) (e := e) rfl
  refine ⟨fun id => mem_ids_object h some_, exists_branches_object h, values_of_countedOn found,
    fun others sub => ?_, fun others perm => ?_⟩
  · have more : others ≠ [] := fun none => some_ (List.sublist_nil.mp (none ▸ sub))
    refine ⟨fun id hid => ?_, alike_of_sublist (sub.flatMap _) found (branches others)⟩
    obtain ⟨m, hm, own⟩ := (mem_ids_object h some_).mp hid
    exact (mem_ids_object (s := s.withNode (.object others)) rfl more).mpr ⟨m, sub.subset hm, own⟩
  · have same : others ≠ [] := fun none => some_ (List.nil_perm.mp (none ▸ perm))
    refine ⟨fun id => ?_, alike_of_perm (perm.flatMap_right _) found (branches others)⟩
    rw [mem_ids_object (s := s.withNode (.object others)) rfl same, mem_ids_object h some_]
    exact exists_congr fun m => and_congr_left' perm.mem_iff

/-- Two people behind an article. -/
def credits : List (String × Node) :=
  [("author", .relation (.belongsTo ⟨"author_id", "person", "id", true⟩) (.column "name")),
    ("editor", .relation (.belongsTo ⟨"editor_id", "person", "id", true⟩) (.column "name"))]

/-- Articles with both of them. -/
def credited : RootSchema := ⟨"article", "id", .object credits⟩

def personRenamed : ChangeEvent :=
  .replacement "person" [("id", .int 7), ("name", .str "Ann")] [("id", .int 7), ("name", .str "Anne")]

theorem credited_impact : credited.node = .object credits ∧ credits ≠ [] ∧
    (credited.impact personRenamed).branches.map (·.search.values) = (credits.flatMap fun m =>
      ((credited.withNode m.2).impact personRenamed).branches).map (·.search.values) :=
  ⟨rfl, List.cons_ne_nil _ _,
    (RootSchema.impact_object personRenamed (s := credited) rfl (List.cons_ne_nil _ _)).2.2.1⟩

/-- Each search starts from a use of the table of its own. -/
example : (credited.impact personRenamed).branches.map (·.search.source.qualifier) =
    ["article_1", "article_2"] := by
  decide +kernel

end EntityFeed
