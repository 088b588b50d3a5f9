import EntityFeed.Proofs.Sql.Meaning
import EntityFeed.Schema.Basic
import Mathlib.Data.List.Perm.Basic

/-! The entities that a schema describes, read straight off the rows of a database. The array of a
has-many has no order of its own, so entities are compared up to it. -/
namespace EntityFeed
open Sql

/-- Whether two lists correspond element by element, in whatever order. -/
def UpToOrder {α β : Type} (r : α → β → Prop) (l : List α) (m : List β) : Prop :=
  ∃ n, List.Forall₂ r l n ∧ n.Perm m

namespace UpToOrder

variable {α β γ : Type}

theorem symm {r : α → β → Prop} {s : β → α → Prop} (hrs : ∀ a b, r a b → s b a) {l : List α}
    {m : List β} (h : UpToOrder r l m) : UpToOrder s m l := by
  obtain ⟨n, hr, hp⟩ := h
  have hs : List.Forall₂ s n l := (hr.imp hrs).flip
  obtain ⟨k, hk, hkl⟩ := List.perm_comp_forall₂ hp.symm hs
  exact ⟨k, hk, hkl⟩

theorem forall₂_trans {r : α → β → Prop} {s : β → γ → Prop} {t : α → γ → Prop}
    (hrs : ∀ a b x, r a b → s b x → t a x) {l : List α} {m : List β} {k : List γ}
    (h : List.Forall₂ r l m) (h' : List.Forall₂ s m k) : List.Forall₂ t l k := by
  induction h generalizing k with
  | nil =>
    cases h'
    exact .nil
  | cons hab _ ih =>
    cases h' with
    | cons hbx h' => exact .cons (hrs _ _ _ hab hbx) (ih h')

theorem trans {r : α → β → Prop} {s : β → γ → Prop} {t : α → γ → Prop}
    (hrs : ∀ a b x, r a b → s b x → t a x) {l : List α} {m : List β} {k : List γ}
    (h : UpToOrder r l m) (h' : UpToOrder s m k) : UpToOrder t l k := by
  obtain ⟨n, hr, hp⟩ := h
  obtain ⟨n', hs, hp'⟩ := h'
  obtain ⟨u, hu, hun⟩ := List.perm_comp_forall₂ hp hs
  exact ⟨u, forall₂_trans hrs hr hu, hun.trans hp'⟩

theorem perm {r : α → β → Prop} {l : List α} {m n : List β} (h : UpToOrder r l m) (hp : m.Perm n) :
    UpToOrder r l n := by
  obtain ⟨k, hk, hkm⟩ := h
  exact ⟨k, hk, hkm.trans hp⟩

theorem filter {r : α → β → Prop} {p : α → Bool} {q : β → Bool} (hpq : ∀ a b, r a b → p a = q b)
    {l : List α} {m : List β} (h : UpToOrder r l m) : UpToOrder r (l.filter p) (m.filter q) := by
  obtain ⟨n, hr, hp⟩ := h
  have hiff : ∀ ⦃a b⦄, r a b → ((p a = true) ↔ (q b = true)) := by
    intro a b hab
    rw [hpq a b hab]
  exact ⟨n.filter q, List.rel_filter hiff hr, hp.filter q⟩

theorem map {δ ε : Type} {r : α → β → Prop} {s : δ → ε → Prop} {f : α → δ} {g : β → ε}
    (hrs : ∀ a b, r a b → s (f a) (g b)) {l : List α} {m : List β} (h : UpToOrder r l m) :
    UpToOrder s (l.map f) (m.map g) := by
  obtain ⟨n, hr, hp⟩ := h
  refine ⟨n.map g, ?_, hp.map g⟩
  rw [List.forall₂_map_left_iff, List.forall₂_map_right_iff]
  exact hr.imp hrs

theorem exists_of_mem {r : α → β → Prop} {l : List α} {m : List β} (h : UpToOrder r l m) {b : β}
    (hb : b ∈ m) : ∃ a ∈ l, r a b := by
  obtain ⟨n, hr, hp⟩ := h
  replace hb := hp.mem_iff.mpr hb
  clear hp
  induction hr with
  | nil => contradiction
  | cons hab _ ih =>
    rcases List.mem_cons.mp hb with rfl | hb
    · exact ⟨_, List.mem_cons_self, hab⟩
    · obtain ⟨a, ha, hr⟩ := ih hb
      exact ⟨a, List.mem_cons_of_mem _ ha, hr⟩

theorem eq_nil {r : α → β → Prop} {m : List β} (h : UpToOrder r [] m) : m = [] := by
  obtain ⟨n, hr, hp⟩ := h
  cases hr
  exact hp.symm.eq_nil

theorem eq_singleton {r : α → β → Prop} {a : α} {m : List β} (h : UpToOrder r [a] m) :
    ∃ b, m = [b] ∧ r a b := by
  obtain ⟨n, hr, hp⟩ := h
  cases hr with
  | cons hab hr =>
    cases hr
    exact ⟨_, List.perm_singleton.mp hp.symm, hab⟩

end UpToOrder

section

variable (c : Comparison) (db : Database)

/-- The rows of a table that have a value in a column. -/
def rowsWith (table column : String) (v : Json) : List Row :=
  (db table).filter fun row => c.equal v (row.value column)

/-- The rows that a relation leads to. -/
def Relation.follow (r : Relation) (row : Row) : List Row :=
  rowsWith c db r.table r.key (row.value r.column)

/-- No two rows of a table are equal in a column. -/
def Unique (table column : String) : Prop :=
  (db table).Pairwise fun a b => c.equal (a.value column) (b.value column) = false

instance (table column : String) : Decidable (Unique c db table column) :=
  inferInstanceAs (Decidable (List.Pairwise _ _))

namespace Node

mutual

/-- What a node gives for a row: a belongs-to the object of the row it leads to, or null if there is
none; a has-many the objects of all rows it leads to. -/
def view : Node → Row → Json
  | .column name, row => row.value name
  | .object properties, row => .obj (viewAll properties row)
  | .relation (.belongsTo r) node, row =>
    match (Relation.belongsTo r).follow c db row with
    | [] => .null
    | far :: _ => view node far
  | .relation (.hasMany r) node, row =>
    .arr (((Relation.hasMany r).follow c db row).map fun far => view node far)

def viewAll : List (String × Node) → Row → Members
  | [], _ => []
  | (name, node) :: rest, row => (name, view node row) :: viewAll rest row

end

end Node

/-- The values for the root rows with an id. -/
def RootSchema.entities (s : RootSchema) (id : String) : List Json :=
  (rowsWith c db s.table s.primaryKey (.str id)).map (s.node.view c db)

end

namespace Node

mutual

/-- Whether two values of a node are the same up to the order in the arrays of has-manys. `same`
compares the values of columns. -/
def Alike (same : Json → Json → Prop) : Node → Json → Json → Prop
  | .column _, v, w => same v w
  | .object properties, v, w =>
    ∃ members others, v = .obj members ∧ w = .obj others ∧ AlikeAll same properties members others
  | .relation (.belongsTo _) node, v, w => (v = .null ∧ w = .null) ∨ Alike same node v w
  | .relation (.hasMany _) node, v, w =>
    ∃ items others, v = .arr items ∧ w = .arr others ∧
      UpToOrder (fun x y => Alike same node x y) items others

def AlikeAll (same : Json → Json → Prop) : List (String × Node) → Members → Members → Prop
  | [], members, others => members = [] ∧ others = []
  | (name, node) :: rest, members, others =>
    ∃ v w members' others', members = (name, v) :: members' ∧ others = (name, w) :: others' ∧
      Alike same node v w ∧ AlikeAll same rest members' others'

end

variable {same : Json → Json → Prop}

mutual

theorem Alike.symm (hs : ∀ v w, same v w → same w v) (node : Node) {v w : Json}
    (h : Alike same node v w) : Alike same node w v := by
  match node with
  | .column name =>
    rw [Alike] at h ⊢
    exact hs _ _ h
  | .object properties =>
    rw [Alike] at h ⊢
    obtain ⟨members, others, rfl, rfl, h⟩ := h
    exact ⟨others, members, rfl, rfl, AlikeAll.symm hs properties h⟩
  | .relation (.belongsTo r) node =>
    rw [Alike] at h ⊢
    rcases h with ⟨hv, hw⟩ | h
    · exact .inl ⟨hw, hv⟩
    · exact .inr (Alike.symm hs node h)
  | .relation (.hasMany r) node =>
    rw [Alike] at h ⊢
    obtain ⟨items, others, rfl, rfl, h⟩ := h
    refine ⟨others, items, rfl, rfl, h.symm ?_⟩
    intro x y hxy
    exact Alike.symm hs node hxy

theorem AlikeAll.symm (hs : ∀ v w, same v w → same w v) (properties : List (String × Node))
    {members others : Members} (h : AlikeAll same properties members others) :
    AlikeAll same properties others members := by
  match properties with
  | [] =>
    rw [AlikeAll] at h ⊢
    exact ⟨h.2, h.1⟩
  | (name, node) :: rest =>
    rw [AlikeAll] at h ⊢
    obtain ⟨v, w, members', others', rfl, rfl, hv, hr⟩ := h
    exact ⟨w, v, others', members', rfl, rfl, Alike.symm hs node hv, AlikeAll.symm hs rest hr⟩

end

mutual

theorem Alike.trans (hs : ∀ u v w, same u v → same v w → same u w) (node : Node) {u v w : Json}
    (h : Alike same node u v) (h' : Alike same node v w) : Alike same node u w := by
  match node with
  | .column name =>
    rw [Alike] at h h' ⊢
    exact hs _ _ _ h h'
  | .object properties =>
    rw [Alike] at h h' ⊢
    obtain ⟨members, others, rfl, rfl, h⟩ := h
    obtain ⟨_, others', he, rfl, h'⟩ := h'
    cases he
    exact ⟨members, others', rfl, rfl, AlikeAll.trans hs properties h h'⟩
  | .relation (.belongsTo r) node =>
    rw [Alike] at h h' ⊢
    rcases h with ⟨rfl, rfl⟩ | h
    · exact h'
    · rcases h' with ⟨rfl, rfl⟩ | h'
      · exact .inr h
      · exact .inr (Alike.trans hs node h h')
  | .relation (.hasMany r) node =>
    rw [Alike] at h h' ⊢
    obtain ⟨items, others, rfl, rfl, h⟩ := h
    obtain ⟨_, others', he, rfl, h'⟩ := h'
    cases he
    refine ⟨items, others', rfl, rfl, h.trans ?_ h'⟩
    intro x y z hxy hyz
    exact Alike.trans hs node hxy hyz

theorem AlikeAll.trans (hs : ∀ u v w, same u v → same v w → same u w)
    (properties : List (String × Node)) {l m n : Members} (h : AlikeAll same properties l m)
    (h' : AlikeAll same properties m n) : AlikeAll same properties l n := by
  match properties with
  | [] =>
    rw [AlikeAll] at h h' ⊢
    exact ⟨h.1, h'.2⟩
  | (name, node) :: rest =>
    rw [AlikeAll] at h h' ⊢
    obtain ⟨u, v, l', m', rfl, rfl, hu, hl⟩ := h
    obtain ⟨v', w, m'', n', he, rfl, hv, hm⟩ := h'
    cases he
    exact ⟨u, w, l', n', rfl, rfl, Alike.trans hs node hu hv, AlikeAll.trans hs rest hl hm⟩

end

end Node

section

variable {c : Comparison} {db : Database}

theorem Sql.Comparison.equal_comm (c : Comparison) (v w : Json) : c.equal v w = c.equal w v := by
  rw [Bool.eq_iff_iff]
  simp only [Comparison.equal, Bool.and_eq_true, beq_iff_eq]
  constructor
  · rintro ⟨hs, he⟩
    exact ⟨he ▸ hs, he.symm⟩
  · rintro ⟨hs, he⟩
    exact ⟨he ▸ hs, he.symm⟩

/-- What equals a value in common is equal. -/
theorem Sql.Comparison.equal_of_equal {u v w : Json} (hv : c.equal u v) (hw : c.equal u w) :
    c.equal v w := by
  simp only [Comparison.equal, Bool.and_eq_true, beq_iff_eq] at hv hw ⊢
  exact ⟨hv.2 ▸ hv.1, hv.2.symm.trans hw.2⟩

theorem Sql.Comparison.equal_trans {u v w : Json} (hv : c.equal u v) (hw : c.equal v w) :
    c.equal u w := by
  rw [c.equal_comm] at hv
  exact Comparison.equal_of_equal hv hw

/-- At most one row has a value in a column whose values are unique. -/
theorem rowsWith_of_unique {table column : String} (h : Unique c db table column) (v : Json) :
    rowsWith c db table column v = [] ∨ ∃ row, rowsWith c db table column v = [row] := by
  have hp := h.filter fun row => c.equal v (row.value column)
  have hm : ∀ row ∈ rowsWith c db table column v, c.equal v (row.value column) := by
    intro row hr
    exact (List.mem_filter.mp hr).2
  change (rowsWith c db table column v).Pairwise _ at hp
  cases hl : rowsWith c db table column v with
  | nil => exact .inl rfl
  | cons a rest =>
    cases rest with
    | nil => exact .inr ⟨a, rfl⟩
    | cons b rest =>
      rw [hl] at hp hm
      have hab := (List.pairwise_cons.mp hp).1 b List.mem_cons_self
      rw [Comparison.equal_of_equal (hm a List.mem_cons_self)
        (hm b (List.mem_cons_of_mem _ List.mem_cons_self))] at hab
      contradiction

end

end EntityFeed
