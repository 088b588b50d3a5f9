import EntityFeed.Proofs.Impact.Exactness

/-! The walk over a schema with what it notes on its way down: how deep each relation lies and which one
is around it. What is noted agrees with the way itself, so that a path needs no more than its steps. -/
namespace EntityFeed

/-- A relation on the way to another one. -/
structure Waypoint where
  step : Step
  depth : Nat
  /-- The relation around it. -/
  parent : Option Relation

/-- A relation that the walk has come to. -/
structure Passage where
  relation : Relation
  /-- The table the relation starts from. -/
  table : String
  node : Node
  /-- The relations on the way from the root, the innermost first. -/
  way : List Waypoint

namespace Node

mutual

/-- The relations of a node for rows of `table`, which lies so deep within `parent`. -/
def walk (table : String) (depth : Nat) (parent : Option Relation) (way : List Waypoint) :
    Node → List Passage
  | .column _ => []
  | .object properties => walkAll table depth parent way properties
  | .relation r node => ⟨r, table, node, way⟩ ::
      walk r.table (depth + 1) (some r) (⟨⟨r, table⟩, depth, parent⟩ :: way) node

def walkAll (table : String) (depth : Nat) (parent : Option Relation) (way : List Waypoint) :
    List (String × Node) → List Passage
  | [] => []
  | (_, node) :: rest => walk table depth parent way node ++ walkAll table depth parent way rest

end

end Node

def RootSchema.walk (s : RootSchema) : List Passage := s.node.walk s.table 0 none []

def Waypoint.steps (way : List Waypoint) : List Step := way.map (·.step)

/-- The visit that a passage is, without what has been noted. -/
def Passage.visit (p : Passage) : Visit := ⟨p.relation, p.table, p.node, Waypoint.steps p.way⟩

/-- The relation of the innermost waypoint. -/
def Waypoint.innermost (way : List Waypoint) : Option Relation := way.head?.map (·.step.relation)

/-- That each waypoint lies as deep as there are others around it, and within the relation of the next
one. -/
def Waypoint.Noted : List Waypoint → Prop
  | [] => True
  | w :: outer => w.depth = outer.length ∧ w.parent = innermost outer ∧ Noted outer

section Walk

open Waypoint (Noted steps innermost)

mutual

theorem Node.map_visit_walk (node : Node) (table : String) (depth : Nat) (parent : Option Relation)
    (way : List Waypoint) :
    (node.walk table depth parent way).map Passage.visit = node.visits table (steps way) := by
  match node with
  | .column name => rfl
  | .object properties => exact map_visit_walkAll properties table depth parent way
  | .relation r node =>
    rw [walk, List.map_cons, map_visit_walk node]
    rfl

theorem Node.map_visit_walkAll (properties : List (String × Node)) (table : String) (depth : Nat)
    (parent : Option Relation) (way : List Waypoint) :
    (walkAll table depth parent way properties).map Passage.visit =
      visitsOfAll table (steps way) properties := by
  match properties with
  | [] => rfl
  | (name, node) :: rest =>
    rw [walkAll, List.map_append, map_visit_walk node, map_visit_walkAll rest, visitsOfAll]

end

mutual

theorem Node.noted_of_mem_walk (node : Node) {table : String} {way : List Waypoint} (h : Noted way)
    {p : Passage} (hp : p ∈ node.walk table way.length (innermost way) way) : Noted p.way := by
  match node with
  | .column name => contradiction
  | .object properties => exact noted_of_mem_walkAll properties h hp
  | .relation r node =>
    rcases List.mem_cons.mp hp with rfl | hp
    · exact h
    · have inner : Noted (⟨⟨r, table⟩, way.length, innermost way⟩ :: way) := ⟨rfl, rfl, h⟩
      exact noted_of_mem_walk node inner hp

theorem Node.noted_of_mem_walkAll (properties : List (String × Node)) {table : String}
    {way : List Waypoint} (h : Noted way) {p : Passage}
    (hp : p ∈ walkAll table way.length (innermost way) way properties) : Noted p.way := by
  match properties with
  | [] => contradiction
  | (name, node) :: rest =>
    rcases List.mem_append.mp hp with hp | hp
    · exact noted_of_mem_walk node h hp
    · exact noted_of_mem_walkAll rest h hp

end

variable {s : RootSchema} {p : Passage}

/-- The walk comes to the relations of a schema in their order. -/
theorem RootSchema.map_visit_walk (s : RootSchema) : s.walk.map Passage.visit = s.visits :=
  s.node.map_visit_walk s.table 0 none []

theorem Passage.noted (hp : p ∈ s.walk) : Noted p.way := by
  have outermost : Noted [] := trivial
  exact s.node.noted_of_mem_walk outermost hp

theorem Passage.leads (hp : p ∈ s.walk) : s.Leads (steps p.way) p.table := by
  have root : s.Leads [] s.table := rfl
  have visited : p.visit ∈ s.visits := s.map_visit_walk ▸ List.mem_map_of_mem hp
  exact s.node.leads_of_mem_visits s root visited

end Walk

end EntityFeed
