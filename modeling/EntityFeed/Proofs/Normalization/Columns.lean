import EntityFeed.Proofs.Normalization.Clean
import EntityFeed.Proofs.Yield

/-! What normalization does to the values of columns. The arrays of has-manys are to be flattened and
freed of nulls, and column values to be left alone. The normalizer cannot tell an array that a column
holds from one of a has-many: it does what it is to do exactly if no column value has an array that
could be flattened or freed of nulls. -/
namespace EntityFeed

/-- The value of a column within the value of a node. -/
structure Stored where
  value : Json
  /-- Whether the value is an entry of the array of a has-many. -/
  entry : Bool

/-- Whether there is nothing about a column's value that normalization could change. -/
def Stored.untouched (x : Stored) : Bool := x.value.clean && !(x.entry && x.value.isArray)

namespace Node

mutual

/-- The value of a node with only the arrays of its has-manys flattened and freed of nulls. -/
def tidied : Node → Json → Json
  | .object properties, .obj members => .obj (tidiedAll properties members)
  | .relation (.belongsTo _) node, v => tidied node v
  | .relation (.hasMany _) node, .arr items => .arr (items.flatMap fun v => entries node v)
  | _, v => v

def tidiedAll : List (String × Node) → Members → Members
  | (_, node) :: rest, (name, v) :: members => (name, tidied node v) :: tidiedAll rest members
  | _, members => members

/-- What the value of a node adds to the array of a has-many around it: nothing if it is null, the
entries of a has-many's own array, and else itself. -/
def entries : Node → Json → List Json
  | _, .null => []
  | .object properties, .obj members => [.obj (tidiedAll properties members)]
  | .relation (.belongsTo _) node, v => entries node v
  | .relation (.hasMany _) node, .arr items => items.flatMap fun v => entries node v
  | _, v => [v]

end

mutual

/-- The values of columns within the value of a node, which is an entry itself or is not. -/
def stored (entry : Bool) : Node → Json → List Stored
  | .column _, v => [⟨v, entry⟩]
  | .object properties, .obj members => storedAll properties members
  | .relation (.belongsTo _) node, v => if v.isNull then [] else stored entry node v
  | .relation (.hasMany _) node, .arr items => items.flatMap fun v => stored true node v
  | _, _ => []

def storedAll : List (String × Node) → Members → List Stored
  | (_, node) :: rest, (_, v) :: members => stored false node v ++ storedAll rest members
  | _, _ => []

end

@[simp] theorem tidied_null (node : Node) : node.tidied .null = .null := by
  match node with
  | .column _ | .object _ | .relation (.hasMany _) _ => simp [tidied]
  | .relation (.belongsTo r) node =>
    rw [tidied]
    exact tidied_null node

@[simp] theorem entries_null (node : Node) : node.entries .null = [] := by
  cases node <;> simp [entries]

theorem entries_column {name : String} {v : Json} (h : v.isNull = false) :
    (Node.column name).entries v = [v] := by
  cases v <;> first | contradiction | simp [entries]

theorem entries_belongsTo (r : BelongsTo) (node : Node) (v : Json) :
    (Node.relation (.belongsTo r) node).entries v = node.entries v := by
  cases v <;> simp [entries]

theorem entries_hasMany (r : HasMany) (node : Node) (items : List Json) :
    (Node.relation (.hasMany r) node).entries (.arr items) = items.flatMap node.entries := by
  rw [entries]

end Node

theorem flatMap_eq_flatMap_iff {α β : Type} {f g : α → List β} {l : List α}
    (h : ∀ x ∈ l, (f x).length = (g x).length) :
    l.flatMap f = l.flatMap g ↔ ∀ x ∈ l, f x = g x := by
  induction l with
  | nil => simp
  | cons x rest ih =>
    obtain ⟨hx, hr⟩ := List.forall_mem_cons.mp h
    rw [List.flatMap_cons, List.flatMap_cons, List.forall_mem_cons, ← ih hr]
    constructor
    · intro he
      exact List.append_inj he hx
    · rintro ⟨h₁, h₂⟩
      rw [h₁, h₂]

namespace Node

variable {p : Json → Prop}

/-- Where no entry is to be an array, normalization finds as many entries as there are to be. -/
theorem length_added (node : Node) {v : Json} (hv : node.Yields p v)
    (h : ∀ x ∈ node.entries v, x.isArray = false) : v.added.length = (node.entries v).length := by
  by_cases hn : v.isNull = true
  · cases v <;> first | contradiction | simp
  replace hn : v.isNull = false := by simpa using hn
  match node with
  | .column name =>
    rw [entries_column hn] at h ⊢
    rw [Json.added_of_single hn (h v (List.mem_singleton_self v))]
    rfl
  | .object properties =>
    rw [Yields] at hv
    obtain ⟨members, rfl, -⟩ := hv
    rw [Json.added_of_single rfl rfl, entries]
    rfl
  | .relation (.belongsTo r) node =>
    rw [Yields] at hv
    rw [entries_belongsTo] at h ⊢
    rcases hv with rfl | hv
    · contradiction
    · exact length_added node hv h
  | .relation (.hasMany r) node =>
    rw [Yields] at hv
    obtain ⟨items, rfl, hv⟩ := hv
    rw [entries_hasMany] at h ⊢
    rw [Json.added_arr, List.length_flatMap, List.length_flatMap]
    refine congrArg List.sum (List.map_congr_left ?_)
    intro item hi
    exact length_added node (hv item hi) fun x hx => h x (List.mem_flatMap.mpr ⟨item, hi, hx⟩)

/-- The entries of a has-many's array are as they are to be exactly if each item adds what it is to
add. -/
theorem flatMap_added_eq_iff {node : Node} {items : List Json}
    (hv : ∀ item ∈ items, node.Yields p item) :
    items.flatMap Json.added = items.flatMap node.entries ↔
      ∀ item ∈ items, item.added = node.entries item := by
  constructor
  · intro he
    -- Normalization leaves no arrays among entries, so there are to be none.
    have single : ∀ item ∈ items, ∀ x ∈ node.entries item, x.isArray = false := by
      intro item hi x hx
      have hm : x ∈ items.flatMap Json.added := he ▸ List.mem_flatMap.mpr ⟨item, hi, hx⟩
      obtain ⟨v, -, hxv⟩ := List.mem_flatMap.mp hm
      exact Json.not_array_of_mem_added hxv
    exact (flatMap_eq_flatMap_iff fun item hi =>
      length_added node (hv item hi) (single item hi)).mp he
  · exact List.flatMap_congr

/-- An entry that comes from a column is added as it is exactly if it is no array and is clean. -/
theorem added_eq_entries_column_iff (name : String) (v : Json) :
    v.added = (Node.column name).entries v ↔ Stored.untouched ⟨v, true⟩ = true := by
  by_cases hn : v.isNull = true
  · rw [Json.eq_null_of_isNull hn]
    simp [Stored.untouched, Json.clean, Json.isArray]
  replace hn : v.isNull = false := by simpa using hn
  rw [entries_column hn]
  by_cases ha : v.isArray = true
  · refine iff_of_false ?_ (by simp [Stored.untouched, ha])
    intro he
    have hv : v ∈ v.added := he ▸ List.mem_singleton_self v
    rw [Json.not_array_of_mem_added hv] at ha
    contradiction
  · replace ha : v.isArray = false := by simpa using ha
    rw [Json.added_of_single hn ha, List.singleton_inj, Json.normalize_eq_self_iff]
    simp [Stored.untouched, ha]

mutual

theorem normalize_eq_tidied_iff (node : Node) {v : Json} (hv : node.Yields p v) :
    v.normalize {} = node.tidied v ↔ ∀ x ∈ node.stored false v, x.untouched = true := by
  match node with
  | .column name =>
    rw [tidied, stored, Json.normalize_eq_self_iff]
    · simp [Stored.untouched]
    all_goals nofun
  | .object properties =>
    rw [Yields] at hv
    obtain ⟨members, rfl, hv⟩ := hv
    rw [tidied, stored, Json.normalize, Json.obj.injEq]
    exact normalizeMembers_eq_tidiedAll_iff properties hv
  | .relation (.belongsTo r) node =>
    rw [Yields] at hv
    rw [tidied, stored]
    by_cases hn : v.isNull = true
    · rw [Json.eq_null_of_isNull hn, tidied_null]
      simp [Json.normalize, Json.isNull]
    · rw [if_neg hn]
      exact normalize_eq_tidied_iff node (hv.resolve_left fun he => hn (he ▸ rfl))
  | .relation (.hasMany r) node =>
    rw [Yields] at hv
    obtain ⟨items, rfl, hv⟩ := hv
    rw [tidied, stored, Json.normalize_arr, Json.arr.injEq, List.forall_mem_flatMap]
    exact (flatMap_added_eq_iff hv).trans
      (forall₂_congr fun item hi => added_eq_entries_iff node (hv item hi))

theorem added_eq_entries_iff (node : Node) {v : Json} (hv : node.Yields p v) :
    v.added = node.entries v ↔ ∀ x ∈ node.stored true v, x.untouched = true := by
  match node with
  | .column name =>
    rw [stored, List.forall_mem_singleton]
    exact added_eq_entries_column_iff name v
  | .object properties =>
    rw [Yields] at hv
    obtain ⟨members, rfl, hv⟩ := hv
    rw [Json.added_of_single rfl rfl, entries, stored, Json.normalize, List.singleton_inj,
      Json.obj.injEq]
    exact normalizeMembers_eq_tidiedAll_iff properties hv
  | .relation (.belongsTo r) node =>
    rw [Yields] at hv
    rw [entries_belongsTo, stored]
    by_cases hn : v.isNull = true
    · rw [Json.eq_null_of_isNull hn]
      simp [Json.isNull]
    · rw [if_neg hn]
      exact added_eq_entries_iff node (hv.resolve_left fun he => hn (he ▸ rfl))
  | .relation (.hasMany r) node =>
    rw [Yields] at hv
    obtain ⟨items, rfl, hv⟩ := hv
    rw [Json.added_arr, entries_hasMany, stored, List.forall_mem_flatMap]
    exact (flatMap_added_eq_iff hv).trans
      (forall₂_congr fun item hi => added_eq_entries_iff node (hv item hi))

theorem normalizeMembers_eq_tidiedAll_iff (properties : List (String × Node)) {members : Members}
    (hv : YieldsAll p properties members) :
    Json.normalizeMembers {} members = tidiedAll properties members ↔
      ∀ x ∈ storedAll properties members, x.untouched = true := by
  match properties with
  | [] =>
    rw [YieldsAll] at hv
    simp [hv, Json.normalizeMembers, tidiedAll, storedAll]
  | (name, node) :: rest =>
    rw [YieldsAll] at hv
    obtain ⟨v, others, rfl, hv, hr⟩ := hv
    rw [Json.normalizeMembers, tidiedAll, storedAll, List.forall_mem_append, List.cons.injEq,
      Prod.mk.injEq, ← normalize_eq_tidied_iff node hv,
      ← normalizeMembers_eq_tidiedAll_iff rest hr]
    simp

end

end Node

namespace RootSchema

/-- Whatever the columns hold, normalization does to a value what it is to do exactly if it could do
nothing to the values of columns in it. -/
theorem normalize_tidies_iff (s : RootSchema) {v : Json} (hv : s.node.Yields (fun _ => True) v) :
    v.normalize {} = s.node.tidied v ↔ ∀ x ∈ s.node.stored false v, x.untouched = true :=
  s.node.normalize_eq_tidied_iff hv

/-- Players with the tags they have been given and the points of their games. -/
def players : RootSchema where
  table := "player"
  primaryKey := "id"
  node := .object
    [("tags", .column "tags"),
      ("points", .relation (.hasMany ⟨"id", "game", "player"⟩) (.column "points"))]

def player (tags points : Json) : Json := .obj [("tags", tags), ("points", points)]

/-- Tags that hold a clean array, and the points of three games, of which one has none. -/
def tidyPlayer : Json :=
  player (.arr [.str "x", .obj [("n", .arr [])]]) (.arr [.int 3, .null, .obj [("won", .arr [.int 2])]])

theorem players_tidied :
    players.node.Yields (fun _ => True) tidyPlayer ∧
      (∀ x ∈ players.node.stored false tidyPlayer, x.untouched = true) ∧
      tidyPlayer.normalize {} = players.node.tidied tidyPlayer := by
  have given : players.node.Yields (fun _ => True) tidyPlayer := by
    simp [players, tidyPlayer, player, Node.Yields, Node.YieldsAll]
  have untouched : ∀ x ∈ players.node.stored false tidyPlayer, x.untouched = true := by
    simp [players, tidyPlayer, player, Node.stored, Node.storedAll, Stored.untouched, Json.clean,
      Json.cleanItems, Json.cleanMembers, Json.isNull, Json.isArray]
  exact ⟨given, untouched, (players.normalize_tidies_iff given).mpr untouched⟩

/-- Tags with a null among them, and two games with arrays for points. -/
def wildPlayer : Json := player (.arr [.int 1, .null]) (.arr [.arr [.int 1], .arr [.int 2]])

/-- The null is lost from an array of tags, and the arrays that two games have for points become one. -/
theorem players_disturbed :
    players.node.Yields (fun _ => True) wildPlayer ∧
      wildPlayer.normalize {} = player (.arr [.int 1]) (.arr [.int 1, .int 2]) ∧
      players.node.tidied wildPlayer = wildPlayer ∧
      wildPlayer.normalize {} ≠ players.node.tidied wildPlayer := by
  have merged : wildPlayer.normalize {} = player (.arr [.int 1]) (.arr [.int 1, .int 2]) := rfl
  have kept : players.node.tidied wildPlayer = wildPlayer := rfl
  refine ⟨?_, merged, kept, ?_⟩
  · simp [players, wildPlayer, player, Node.Yields, Node.YieldsAll]
  · rw [merged, kept]
    simp [wildPlayer, player]

end RootSchema
end EntityFeed
