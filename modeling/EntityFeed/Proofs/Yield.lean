import EntityFeed.Proofs.ObjectQuery.Entities

/-! The values that the expression for a node can have, whatever the database holds: a belongs-to may
miss, and a has-many may find any number of rows. -/
namespace EntityFeed
open Sql

namespace Node

mutual

/-- Whether a node can give a value, if its columns hold values with a property. -/
def Yields (p : Json → Prop) : Node → Json → Prop
  | .column _, v => p v
  | .object properties, v => ∃ members, v = .obj members ∧ YieldsAll p properties members
  | .relation (.belongsTo _) node, v => v = .null ∨ Yields p node v
  | .relation (.hasMany _) node, v => ∃ items, v = .arr items ∧ ∀ x ∈ items, Yields p node x

def YieldsAll (p : Json → Prop) : List (String × Node) → Members → Prop
  | [], members => members = []
  | (name, node) :: rest, members =>
    ∃ v others, members = (name, v) :: others ∧ Yields p node v ∧ YieldsAll p rest others

end

variable {p : Json → Prop}

section View

variable {c : Comparison} {db : Database}

mutual

/-- What a node is to give for a row, it can give. -/
theorem yields_view (h : ∀ table, ∀ row ∈ db table, ∀ column, p (row.value column)) (node : Node)
    {table : String} {row : Row} (hr : row ∈ db table) : node.Yields p (node.view c db row) := by
  match node with
  | .column name =>
    rw [Yields, view]
    exact h table row hr name
  | .object properties =>
    rw [Yields, view]
    exact ⟨_, rfl, yieldsAll_viewAll h properties hr⟩
  | .relation (.belongsTo r) node =>
    rw [Yields, view]
    cases hf : (Relation.belongsTo r).follow c db row with
    | nil => exact .inl rfl
    | cons far rest =>
      have hm : far ∈ (Relation.belongsTo r).follow c db row := hf ▸ List.mem_cons_self
      exact .inr (yields_view h node (List.mem_filter.mp hm).1)
  | .relation (.hasMany r) node =>
    rw [Yields, view]
    refine ⟨_, rfl, ?_⟩
    intro x hx
    obtain ⟨far, hf, rfl⟩ := List.mem_map.mp hx
    exact yields_view h node (List.mem_filter.mp hf).1

theorem yieldsAll_viewAll (h : ∀ table, ∀ row ∈ db table, ∀ column, p (row.value column))
    (properties : List (String × Node)) {table : String} {row : Row} (hr : row ∈ db table) :
    YieldsAll p properties (viewAll c db properties row) := by
  match properties with
  | [] => rw [YieldsAll, viewAll]
  | (name, node) :: rest =>
    rw [YieldsAll, viewAll]
    exact ⟨_, _, rfl, yields_view h node hr, yieldsAll_viewAll h rest hr⟩

end

end View

theorem Alike.eq_null (node : Node) {v : Json} (h : node.Alike Eq v .null) : v = .null := by
  match node with
  | .column name =>
    rw [Alike] at h
    exact h
  | .object properties =>
    rw [Alike] at h
    obtain ⟨_, _, _, hn, _⟩ := h
    contradiction
  | .relation (.belongsTo r) node =>
    rw [Alike] at h
    rcases h with h | h
    · exact h.1
    · exact Alike.eq_null node h
  | .relation (.hasMany r) node =>
    rw [Alike] at h
    obtain ⟨_, _, _, hn, _⟩ := h
    contradiction

mutual

/-- The order in the arrays of has-manys does not matter. -/
theorem Alike.yields (node : Node) {v w : Json} (h : node.Alike Eq v w) (hw : node.Yields p w) :
    node.Yields p v := by
  match node with
  | .column name =>
    rw [Alike] at h
    exact h ▸ hw
  | .object properties =>
    rw [Alike] at h
    rw [Yields] at hw ⊢
    obtain ⟨members, others, rfl, rfl, h⟩ := h
    obtain ⟨_, he, hw⟩ := hw
    cases he
    exact ⟨members, rfl, AlikeAll.yieldsAll properties h hw⟩
  | .relation (.belongsTo r) node =>
    rw [Alike] at h
    rw [Yields] at hw ⊢
    rcases h with ⟨rfl, -⟩ | h
    · exact .inl rfl
    · rcases hw with rfl | hw
      · exact .inl (Alike.eq_null node h)
      · exact .inr (Alike.yields node h hw)
  | .relation (.hasMany r) node =>
    rw [Alike] at h
    rw [Yields] at hw ⊢
    obtain ⟨items, others, rfl, rfl, h⟩ := h
    obtain ⟨_, he, hw⟩ := hw
    cases he
    refine ⟨items, rfl, ?_⟩
    intro x hx
    obtain ⟨y, hy, hyx⟩ := (h.symm (s := fun x y => Alike Eq node y x) fun _ _ h => h).exists_of_mem hx
    exact Alike.yields node hyx (hw y hy)

theorem AlikeAll.yieldsAll (properties : List (String × Node)) {members others : Members}
    (h : AlikeAll Eq properties members others) (hw : YieldsAll p properties others) :
    YieldsAll p properties members := by
  match properties with
  | [] =>
    rw [AlikeAll] at h
    rw [YieldsAll]
    exact h.1
  | (name, node) :: rest =>
    rw [AlikeAll] at h
    rw [YieldsAll] at hw ⊢
    obtain ⟨v, w, members', others', rfl, rfl, hv, hr⟩ := h
    obtain ⟨_, _, he, hw, hwr⟩ := hw
    cases he
    exact ⟨v, members', rfl, Alike.yields node hv hw, AlikeAll.yieldsAll rest hr hwr⟩

end

end Node

/-- The objects in the answer to the query for some entities are values that the schema can give. -/
theorem RootSchema.answer?_yields (s : RootSchema) (ids : List String) (o : ObjectQueryOptions)
    {c : Comparison} (ω : Arrangement) {db : Database} {p : Json → Prop}
    (hl : s.node.LeavesObjects s.table []) (hd : s.node.Supported o c db s.table [])
    (h : ∀ table, ∀ row ∈ db table, ∀ column, p (row.value column)) :
    ∃ rows, (s.objectQuery ids o).answer? c ω db = some rows ∧
      ∀ out ∈ rows, s.node.Yields p (out.value objectColumn) := by
  obtain ⟨rows, hq, hr⟩ := s.answer?_objectQuery ids o c ω db hl hd
  refine ⟨rows, hq, ?_⟩
  intro out ho
  obtain ⟨row, hm, object, rfl, hv⟩ := hr.exists_of_mem ho
  have hne : objectColumn ≠ "id" := by decide
  rw [value_cons_of_ne hne, value_cons_self]
  exact hv.yields s.node (s.node.yields_view h (List.mem_filter.mp hm).1)

end EntityFeed
