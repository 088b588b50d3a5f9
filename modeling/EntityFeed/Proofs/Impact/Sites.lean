import EntityFeed.Impact.Hit
import Mathlib.Data.List.Lex

/-! Where a schema has its relations. A position is the way down from the root, at each node the place
of the next one among those below it. Positions in their order are the nodes in pre-order. -/
namespace EntityFeed
namespace Node

/-- The nodes right below a node. -/
def children : Node → List Node
  | .column _ => []
  | .object properties => properties.map (·.2)
  | .relation _ node => [node]

def at? : Node → List Nat → Option Node
  | node, [] => some node
  | node, i :: p => node.children[i]?.bind (·.at? p)

/-- That all nodes above a position are objects. -/
def ObjectsAbove (node : Node) (p : List Nat) : Prop :=
  ∀ q, q <+: p → q ≠ p → ∃ properties, node.at? q = some (.object properties)

mutual

/-- The relations of a node for rows of `table`, with their positions. -/
def sites (table : String) (path : List Step) : Node → List (List Nat × Visit)
  | .column _ => []
  | .object properties => sitesOfAll table path 0 properties
  | .relation r node =>
    ([], ⟨r, table, node, path⟩) ::
      (sites r.table (⟨r, table⟩ :: path) node).map (Prod.map (0 :: ·) id)

def sitesOfAll (table : String) (path : List Step) (i : Nat) :
    List (String × Node) → List (List Nat × Visit)
  | [] => []
  | (_, node) :: rest =>
    (sites table path node).map (Prod.map (i :: ·) id) ++ sitesOfAll table path (i + 1) rest

end

mutual

theorem map_snd_sites (table : String) (path : List Step) (node : Node) :
    (node.sites table path).map (·.2) = node.visits table path :=
  match node with
  | .column _ => by simp [sites, visits]
  | .object properties => by
    rw [sites, visits]
    exact map_snd_sitesOfAll table path 0 properties
  | .relation r inner => by
    have below := map_snd_sites r.table (⟨r, table⟩ :: path) inner
    simpa [sites, visits, Function.comp_def] using below

theorem map_snd_sitesOfAll (table : String) (path : List Step) (i : Nat)
    (properties : List (String × Node)) :
    (sitesOfAll table path i properties).map (·.2) = visitsOfAll table path properties :=
  match properties with
  | [] => by simp [sitesOfAll, visitsOfAll]
  | (_, node) :: rest => by
    have here := map_snd_sites table path node
    have behind := map_snd_sitesOfAll table path (i + 1) rest
    simpa [sitesOfAll, visitsOfAll, Function.comp_def, ← behind] using here

end

theorem mem_sitesOfAll {table : String} {path : List Step} {i : Nat}
    {properties : List (String × Node)} {q : List Nat} {v : Visit} :
    (q, v) ∈ sitesOfAll table path i properties ↔
      ∃ j p child, q = (i + j) :: p ∧ (properties.map (·.2))[j]? = some child ∧
        (p, v) ∈ child.sites table path := by
  induction properties generalizing i with
  | nil => simp [sitesOfAll]
  | cons property rest ih =>
    simp only [sitesOfAll, List.mem_append, List.mem_map, Prod.exists, ih, List.map_cons]
    constructor
    · rintro (⟨p, w, mem, same⟩ | ⟨j, p, child, rfl, here, mem⟩)
      · obtain ⟨rfl, rfl⟩ := Prod.mk.inj same
        exact ⟨0, p, property.2, rfl, rfl, mem⟩
      · exact ⟨j + 1, p, child, by rw [Nat.add_right_comm, Nat.add_assoc], here, mem⟩
    · rintro ⟨j, p, child, rfl, here, mem⟩
      cases j with
      | zero =>
        obtain rfl : property.2 = child := by simpa using here
        exact .inl ⟨p, v, mem, rfl⟩
      | succ j => exact .inr ⟨j, p, child, by rw [Nat.add_right_comm, Nat.add_assoc], here, mem⟩

mutual

/-- Each relation stands behind those above it and those before it. -/
theorem pairwise_sites (table : String) (path : List Step) (node : Node) :
    (node.sites table path).Pairwise (fun a b => a.1 < b.1) :=
  match node with
  | .column _ => by simp [sites]
  | .object properties => by
    rw [sites]
    exact pairwise_sitesOfAll table path 0 properties
  | .relation r inner => by
    have below := pairwise_sites r.table (⟨r, table⟩ :: path) inner
    rw [sites, List.pairwise_cons, List.pairwise_map]
    refine ⟨fun a ha => ?_, below.imp fun h => List.cons_lt_cons_iff.mpr (.inr ⟨rfl, h⟩)⟩
    obtain ⟨b, -, rfl⟩ := List.mem_map.mp ha
    exact List.nil_lt_cons _ _

theorem pairwise_sitesOfAll (table : String) (path : List Step) (i : Nat)
    (properties : List (String × Node)) :
    (sitesOfAll table path i properties).Pairwise (fun a b => a.1 < b.1) :=
  match properties with
  | [] => by simp [sitesOfAll]
  | (_, node) :: rest => by
    have here := pairwise_sites table path node
    have behind := pairwise_sitesOfAll table path (i + 1) rest
    rw [sitesOfAll, List.pairwise_append, List.pairwise_map]
    refine ⟨here.imp fun h => List.cons_lt_cons_iff.mpr (.inr ⟨rfl, h⟩), behind,
      fun a ha b hb => ?_⟩
    obtain ⟨a, -, rfl⟩ := List.mem_map.mp ha
    obtain ⟨q, v⟩ := b
    obtain ⟨j, p, child, rfl, -, -⟩ := mem_sitesOfAll.mp hb
    exact List.cons_lt_cons_iff.mpr (.inl (by omega))

end

/-- The table of the rows that the nodes right below a node are for. -/
def tableBelow (table : String) : Node → String
  | .relation r _ => r.table
  | _ => table

/-- The relations above the nodes right below a node. -/
def pathBelow (table : String) (path : List Step) : Node → List Step
  | .relation r _ => ⟨r, table⟩ :: path
  | _ => path

variable {node : Node} {table : String} {path : List Step} {p : List Nat} {v : Visit}

theorem mem_sites_nil : ([], v) ∈ node.sites table path ↔
    ∃ r inner, node = .relation r inner ∧ v = ⟨r, table, inner, path⟩ := by
  cases node with
  | column => simp [sites]
  | object => simp [sites, mem_sitesOfAll]
  | relation => simp [sites]

theorem mem_sites_cons {i : Nat} : (i :: p, v) ∈ node.sites table path ↔
    ∃ child, node.children[i]? = some child ∧
      (p, v) ∈ child.sites (node.tableBelow table) (node.pathBelow table path) := by
  cases node with
  | column => simp [sites, children]
  | object => simp [sites, children, mem_sitesOfAll, tableBelow, pathBelow]
  | relation => cases i <;> simp [sites, children, tableBelow, pathBelow]

theorem at?_of_mem_sites (mem : (p, v) ∈ node.sites table path) :
    node.at? p = some (.relation v.relation v.node) := by
  induction p generalizing node table path with
  | nil =>
    obtain ⟨r, inner, rfl, rfl⟩ := mem_sites_nil.mp mem
    rfl
  | cons i p ih =>
    obtain ⟨child, here, mem⟩ := mem_sites_cons.mp mem
    rw [at?, here]
    exact ih mem

theorem exists_mem_sites {r : Relation} {inner : Node} (here : node.at? p = some (.relation r inner)) :
    ∃ v, (p, v) ∈ node.sites table path ∧ v.relation = r ∧ v.node = inner := by
  induction p generalizing node table path with
  | nil =>
    obtain rfl : node = .relation r inner := by simpa [at?] using here
    exact ⟨_, mem_sites_nil.mpr ⟨r, inner, rfl, rfl⟩, rfl, rfl⟩
  | cons i p ih =>
    rw [at?] at here
    obtain ⟨child, first, here⟩ := Option.bind_eq_some_iff.mp here
    obtain ⟨v, mem, rest⟩ := ih here
    exact ⟨v, mem_sites_cons.mpr ⟨child, first, mem⟩, rest⟩

theorem suffix_pathBelow (node : Node) : path <:+ node.pathBelow table path := by
  cases node with
  | relation r inner => exact List.suffix_cons _ _
  | _ => exact List.suffix_refl _

theorem path_suffix (mem : (p, v) ∈ node.sites table path) : path <:+ v.path := by
  induction p generalizing node table path with
  | nil =>
    obtain ⟨r, inner, rfl, rfl⟩ := mem_sites_nil.mp mem
    exact List.suffix_refl _
  | cons i p ih =>
    obtain ⟨child, -, mem⟩ := mem_sites_cons.mp mem
    exact node.suffix_pathBelow.trans (ih mem)

theorem objectsAbove_cons {i : Nat} {child : Node} (here : node.children[i]? = some child) :
    node.ObjectsAbove (i :: p) ↔
      (∃ properties, node = .object properties) ∧ child.ObjectsAbove p := by
  have below (q : List Nat) : node.at? (i :: q) = child.at? q := by rw [at?, here]; rfl
  constructor
  · intro h
    refine ⟨by simpa [at?] using h [] List.nil_prefix (by simp), fun q front other => ?_⟩
    rw [← below]
    exact h (i :: q) (List.cons_prefix_cons.mpr ⟨rfl, front⟩) (by simpa using other)
  · rintro ⟨⟨properties, rfl⟩, h⟩ q front other
    cases q with
    | nil => exact ⟨properties, rfl⟩
    | cons j q =>
      obtain ⟨rfl, within⟩ := List.cons_prefix_cons.mp front
      rw [below]
      exact h q within (by simpa using other)

/-- A relation has none above it if all nodes above it are objects. -/
theorem path_eq_iff (mem : (p, v) ∈ node.sites table path) : v.path = path ↔ node.ObjectsAbove p := by
  induction p generalizing node table path with
  | nil =>
    obtain ⟨r, inner, rfl, rfl⟩ := mem_sites_nil.mp mem
    exact ⟨fun _ q front other => absurd (List.prefix_nil.mp front) other, fun _ => rfl⟩
  | cons i p ih =>
    obtain ⟨child, here, mem⟩ := mem_sites_cons.mp mem
    rw [objectsAbove_cons here]
    cases node with
    | column => simp [children] at here
    | object properties =>
      rw [← ih mem]
      simp [pathBelow]
    | relation r inner =>
      have longer := (path_suffix mem).length_le
      simp only [pathBelow, List.length_cons] at longer
      simp only [reduceCtorEq, exists_false, false_and, iff_false]
      rintro rfl
      omega

end Node
end EntityFeed
