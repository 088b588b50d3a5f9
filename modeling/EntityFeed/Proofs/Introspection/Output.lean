import EntityFeed.Proofs.Normalization.Clean
import EntityFeed.Proofs.Yield
import EntityFeed.Schema.Introspection

/-! The shape of built objects. Whatever the database holds, a normalized object has the shape that is
told beforehand from the schema. The normalizer does not know the schema; the proof takes the nesting
of a value apart along with the nesting of the schema. -/
namespace EntityFeed
open Sql

/-- A step from a value to one of its parts. -/
inductive Turn where
  | property (name : String)
  | entry
  deriving DecidableEq, Repr

namespace Shape

def isArray : Shape → Bool
  | .array _ => true
  | _ => false

/-- The shape of the entries of an array of what has this shape. -/
def entries : Shape → Shape
  | .array items => items
  | shape => shape

theorem arrayOf_eq (shape : Shape) : shape.arrayOf = .array shape.entries := by
  cases shape <;> rfl

theorem entries_of_not_array {shape : Shape} (h : shape.isArray = false) : shape.entries = shape := by
  cases shape <;> first | rfl | contradiction

mutual

/-- Whether no array of a shape has arrays as its entries. -/
def flat : Shape → Bool
  | .column _ _ => true
  | .object properties => flatAll properties
  | .array items => !items.isArray && flat items

def flatAll : List (String × Shape) → Bool
  | [] => true
  | (_, shape) :: rest => flat shape && flatAll rest

end

theorem flat_arrayOf {shape : Shape} (h : shape.flat = true) : shape.arrayOf.flat = true := by
  cases shape with
  | array items => exact h
  | column table name => rfl
  | object properties => simpa [arrayOf, flat, isArray] using h

mutual

/-- Whether a value has a shape. In the `absent` places there may be null instead, but never among the
entries of an array. -/
def Met (absent : List Turn → Prop) : Shape → Json → Prop
  | .column _ _, v => v.isScalar = true
  | .object properties, v =>
    (absent [] ∧ v = .null) ∨ ∃ members, v = .obj members ∧ MetAll absent properties members
  | .array items, v =>
    (absent [] ∧ v = .null) ∨ ∃ entries, v = .arr entries ∧ ∀ x ∈ entries,
      x.isNull = false ∧ x.isArray = false ∧ Met (fun place => absent (.entry :: place)) items x

def MetAll (absent : List Turn → Prop) : List (String × Shape) → Members → Prop
  | [], members => members = []
  | (name, shape) :: rest, members =>
    ∃ v others, members = (name, v) :: others ∧
      Met (fun place => absent (.property name :: place)) shape v ∧ MetAll absent rest others

end

theorem met_null {absent : List Turn → Prop} (h : absent []) (shape : Shape) : shape.Met absent .null := by
  cases shape with
  | column table name =>
    rw [Met]
    rfl
  | object properties =>
    rw [Met]
    exact .inl ⟨h, rfl⟩
  | array items =>
    rw [Met]
    exact .inl ⟨h, rfl⟩

/-- A value that is not an array, but has the shape of something else than one. -/
theorem Met.not_array {absent : List Turn → Prop} {shape : Shape} {v : Json} (h : shape.Met absent v)
    (hs : shape.isArray = false) : v.isArray = false := by
  cases shape with
  | column table name =>
    rw [Met] at h
    cases v <;> first | rfl | contradiction
  | object properties =>
    rw [Met] at h
    rcases h with ⟨-, rfl⟩ | ⟨members, rfl, -⟩
    · rfl
    · rfl
  | array items => contradiction

mutual

/-- More places may be absent. Whether the whole may be makes no difference to a value that is not. -/
theorem Met.mono {absent absent' : List Turn → Prop} (shape : Shape) {v : Json} (h : shape.Met absent v)
    (whole : absent [] → v = .null → absent' [])
    (parts : ∀ t place, absent (t :: place) → absent' (t :: place)) : shape.Met absent' v := by
  match shape with
  | .column table name =>
    rw [Met] at h ⊢
    exact h
  | .object properties =>
    rw [Met] at h ⊢
    rcases h with ⟨ha, hv⟩ | ⟨members, hv, h⟩
    · exact .inl ⟨whole ha hv, hv⟩
    · exact .inr ⟨members, hv, MetAll.mono properties h parts⟩
  | .array items =>
    rw [Met] at h ⊢
    rcases h with ⟨ha, hv⟩ | ⟨entries, hv, h⟩
    · exact .inl ⟨whole ha hv, hv⟩
    · refine .inr ⟨entries, hv, ?_⟩
      intro x hx
      obtain ⟨hn, ha, hm⟩ := h x hx
      exact ⟨hn, ha, Met.mono items hm (fun hp _ => parts _ _ hp) fun _ _ => parts _ _⟩

theorem MetAll.mono {absent absent' : List Turn → Prop} (properties : List (String × Shape))
    {members : Members} (h : MetAll absent properties members)
    (parts : ∀ t place, absent (t :: place) → absent' (t :: place)) :
    MetAll absent' properties members := by
  match properties with
  | [] =>
    rw [MetAll] at h ⊢
    exact h
  | (name, shape) :: rest =>
    rw [MetAll] at h ⊢
    obtain ⟨v, others, rfl, hv, hr⟩ := h
    exact ⟨v, others, rfl, Met.mono shape hv (fun hp _ => parts _ _ hp) (fun _ _ => parts _ _),
      MetAll.mono rest hr parts⟩

end

end Shape

namespace Node

/-- Whether a node gives arrays: it is a has-many, or one is behind nothing but belongs-tos. -/
def plural : Node → Bool
  | .relation (.hasMany _) _ => true
  | .relation (.belongsTo _) node => plural node
  | _ => false

mutual

/-- Whether a belongs-to leads to a place in a node's value, so that null stands there if it misses.
Arrays in an array are taken to be part of it, and its entries to be there. -/
def mayMiss : Node → List Turn → Prop
  | .column _, _ => False
  | .object properties, .property name :: place => anyMayMiss properties name place
  | .object _, _ => False
  | .relation (.belongsTo _) node, place => place = [] ∨ mayMiss node place
  | .relation (.hasMany _) node, .entry :: place =>
    if node.plural then mayMiss node (.entry :: place) else place ≠ [] ∧ mayMiss node place
  | .relation (.hasMany _) _, _ => False

def anyMayMiss : List (String × Node) → String → List Turn → Prop
  | [], _, _ => False
  | (k, node) :: rest, name, place => (k = name ∧ mayMiss node place) ∨ anyMayMiss rest name place

end

theorem isArray_shape (table : String) (node : Node) : (node.shape table).isArray = node.plural := by
  cases node with
  | column | object => rfl
  | relation r node =>
    cases r with
    | belongsTo r =>
      rw [shape, plural]
      exact isArray_shape r.table node
    | hasMany r =>
      rw [shape, plural]
      cases node.shape r.table <;> rfl

mutual

theorem flat_shape (table : String) (node : Node) : (node.shape table).flat = true := by
  match node with
  | .column name => rfl
  | .object properties =>
    rw [shape, Shape.flat]
    exact flatAll_shape table properties
  | .relation (.belongsTo r) node =>
    rw [shape]
    exact flat_shape r.table node
  | .relation (.hasMany r) node =>
    rw [shape]
    exact Shape.flat_arrayOf (flat_shape r.table node)

theorem flatAll_shape (table : String) (properties : List (String × Node)) :
    Shape.flatAll (shapeOfAll table properties) = true := by
  match properties with
  | [] => rfl
  | (name, node) :: rest =>
    rw [shapeOfAll, Shape.flatAll, flat_shape table node, flatAll_shape table rest, Bool.and_self]

end

/-- What an item adds to the array of a has-many has the shape of its entries, whether the item is an
array itself or not. -/
theorem met_of_mem_spliced {r : HasMany} {node : Node} {w x : Json}
    (hw : (node.shape r.table).Met node.mayMiss w) (hx : x ∈ w.spliced) (hn : x.isNull = false) :
    x.isArray = false ∧ (node.shape r.table).entries.Met
      (fun place => (Node.relation (.hasMany r) node).mayMiss (.entry :: place)) x := by
  have kind := isArray_shape r.table node
  cases hp : node.plural with
  | true =>
    rw [hp] at kind
    cases hs : node.shape r.table with
    | array items =>
      rw [hs, Shape.Met] at hw
      rcases hw with ⟨-, rfl⟩ | ⟨entries, rfl, hw⟩
      · rw [Json.spliced_of_not_array rfl, List.mem_singleton] at hx
        rw [hx] at hn
        contradiction
      · obtain ⟨-, ha, hm⟩ := hw x hx
        simp only [mayMiss, hp, if_true]
        exact ⟨ha, hm⟩
    | _ =>
      rw [hs] at kind
      contradiction
  | false =>
    rw [hp] at kind
    have ha := hw.not_array kind
    rw [Json.spliced_of_not_array ha, List.mem_singleton] at hx
    subst hx
    rw [Shape.entries_of_not_array kind]
    simp only [mayMiss, hp]
    refine ⟨ha, hw.mono _ ?_ ?_⟩
    · rintro - rfl
      contradiction
    · intro t place hm
      exact ⟨List.cons_ne_nil _ _, hm⟩

mutual

theorem met_normalize (options : NormalizeOptions) (table : String) (node : Node) {v : Json}
    (h : node.Yields (fun v => v.isScalar = true) v) :
    (node.shape table).Met node.mayMiss (v.normalize options) := by
  match node with
  | .column name =>
    rw [Yields] at h
    rw [shape, Shape.Met, Json.normalize_of_scalar h]
    exact h
  | .object properties =>
    rw [Yields] at h
    obtain ⟨members, rfl, h⟩ := h
    rw [shape, Shape.Met, Json.normalize]
    refine .inr ⟨_, rfl, metAll_normalize options table properties h ?_⟩
    intro name place hm
    rwa [mayMiss]
  | .relation (.belongsTo r) node =>
    rw [Yields] at h
    rw [shape]
    rcases h with rfl | h
    · exact Shape.met_null (by rw [mayMiss]; exact .inl rfl) _
    · refine (met_normalize options r.table node h).mono _ ?_ ?_
      · intro _ _
        rw [mayMiss]
        exact .inl rfl
      · intro t place hm
        rw [mayMiss]
        exact .inr hm
  | .relation (.hasMany r) node =>
    rw [Yields] at h
    obtain ⟨items, rfl, h⟩ := h
    rw [shape, Shape.arrayOf_eq, Shape.Met, Json.normalize]
    refine .inr ⟨_, rfl, ?_⟩
    intro x hx
    obtain ⟨hn, w, hw, hxw⟩ := Json.mem_cleaned hx
    rw [Json.normalizeItems_eq_map] at hw
    obtain ⟨item, hi, rfl⟩ := List.mem_map.mp hw
    exact ⟨hn, met_of_mem_spliced (met_normalize options r.table node (h item hi)) hxw hn⟩

theorem metAll_normalize (options : NormalizeOptions) (table : String)
    (properties : List (String × Node)) {absent : List Turn → Prop} {members : Members}
    (h : YieldsAll (fun v => v.isScalar = true) properties members)
    (ha : ∀ name place, anyMayMiss properties name place → absent (.property name :: place)) :
    Shape.MetAll absent (shapeOfAll table properties) (Json.normalizeMembers options members) := by
  match properties with
  | [] =>
    rw [YieldsAll] at h
    rw [h, shapeOfAll, Json.normalizeMembers, Shape.MetAll]
  | (name, node) :: rest =>
    rw [YieldsAll] at h
    obtain ⟨v, others, rfl, hv, hr⟩ := h
    have own : ∀ place, node.mayMiss place → absent (.property name :: place) := by
      intro place hm
      refine ha name place ?_
      rw [anyMayMiss]
      exact .inl ⟨rfl, hm⟩
    rw [shapeOfAll, Json.normalizeMembers, Shape.MetAll]
    refine ⟨_, _, rfl, ?_, ?_⟩
    · exact (met_normalize options table node hv).mono _ (fun hm _ => own [] hm) fun _ _ => own _
    · refine metAll_normalize options table rest hr ?_
      intro name' place hm
      refine ha name' place ?_
      rw [anyMayMiss]
      exact .inr hm

end

end Node

namespace RootSchema

variable (s : RootSchema)

/-- Whatever scalars the columns hold, a normalized object has the shape that is told of it, with null
only where a belongs-to leads outside of arrays; and no array of that shape is one of arrays. -/
theorem normalized_meets_output :
    s.output.flat = true ∧ ∀ options v, s.node.Yields (fun v => v.isScalar = true) v →
      s.output.Met s.node.mayMiss (v.normalize options) :=
  ⟨s.node.flat_shape s.table, fun options _ => s.node.met_normalize options s.table⟩

/-- Borrowers with the city they live in and the subjects of what they have borrowed. -/
def borrowers : RootSchema where
  table := "borrower"
  primaryKey := "id"
  node := .object
    [("city", .relation (.belongsTo ⟨"home", "branch", "id", true⟩) (.column "city")),
      ("subjects", .relation (.hasMany ⟨"id", "loan", "borrower"⟩)
        (.relation (.belongsTo ⟨"copy", "copy", "id", false⟩)
          (.relation (.hasMany ⟨"title", "topic", "title"⟩) (.column "subject"))))]

/-- Somebody with no branch, a loan of no copy, and copies with the same subject or with one that has
no name. -/
def borrower : Json :=
  .obj [("city", .null),
    ("subjects", .arr [.null, .arr [.str "art", .null], .arr [], .arr [.str "art"]])]

theorem borrowers_meet_output :
    borrowers.node.Yields (fun v => v.isScalar = true) borrower ∧
      borrowers.output.Met borrowers.node.mayMiss (borrower.normalize ⟨true⟩) := by
  have given : borrowers.node.Yields (fun v => v.isScalar = true) borrower := by
    simp [borrowers, borrower, Node.Yields, Node.YieldsAll, Json.isScalar]
  exact ⟨given, borrowers.normalized_meets_output.2 ⟨true⟩ _ given⟩

/-- What is built from the answer to the query for some entities has the shape that is told of it. -/
theorem answer?_meets_output (ids : List String) (o : ObjectQueryOptions) {c : Comparison}
    (ω : Arrangement) {db : Database} (hl : s.node.LeavesObjects s.table [])
    (hd : s.node.Supported o c db s.table [])
    (h : ∀ table, ∀ row ∈ db table, ∀ column, (row.value column).isScalar = true) :
    ∃ rows, (s.objectQuery ids o).answer? c ω db = some rows ∧ ∀ out ∈ rows, ∀ options,
      s.output.Met s.node.mayMiss ((out.value objectColumn).normalize options) := by
  obtain ⟨rows, hq, hy⟩ := s.answer?_yields ids o ω hl hd (p := fun v => v.isScalar = true) h
  exact ⟨rows, hq, fun out ho options => s.node.met_normalize options s.table (hy out ho)⟩

end RootSchema
end EntityFeed
