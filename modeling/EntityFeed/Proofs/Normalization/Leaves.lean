import EntityFeed.Proofs.Normalization.Repeats
import Mathlib.Data.List.Forall2

/-! What becomes of the parts of a value. Arrays that stand in one another are one nest; the nest
becomes the array of its leaves, which are neither arrays nor null. Objects keep their keys, what has
no parts stays as it is, and nothing else is dropped unless repeats are. -/
namespace EntityFeed.Json

mutual

/-- What stands in a nest of arrays, from left to right: nothing for null, and a value that is no
array for itself. -/
def leaves : Json → List Json
  | .null => []
  | .arr items => leavesOfAll items
  | v => [v]

def leavesOfAll : List Json → List Json
  | [] => []
  | v :: rest => leaves v ++ leavesOfAll rest

end

/-- That the second value is what normalization is to make of the first. -/
inductive Becomes (options : NormalizeOptions) : Json → Json → Prop
  | scalar {v : Json} (h : v.isScalar = true) : Becomes options v v
  /-- The nest has all of its leaves, or, if repeats are dropped, some of them. -/
  | array {items kept entries : List Json} (among : kept.Sublist (leavesOfAll items))
    (all : options.dedupeArrays = false → kept = leavesOfAll items)
    (each : List.Forall₂ (Becomes options) kept entries) :
    Becomes options (.arr items) (.arr entries)
  | object {members others : Members} (keys : others.map (·.1) = members.map (·.1))
    (each : List.Forall₂ (Becomes options) (members.map (·.2)) (others.map (·.2))) :
    Becomes options (.obj members) (.obj others)

theorem leavesOfAll_eq_flatMap (items : List Json) : leavesOfAll items = items.flatMap leaves := by
  induction items with
  | nil => rfl
  | cons v rest ih => rw [leavesOfAll, ih, List.flatMap_cons]

/-- A value adds its leaves to the array it is in, each normalized. -/
theorem added_eq_map_leaves (v : Json) : v.added = v.leaves.map (normalize {}) := by
  induction v using parts_induction with
  | arr items ih =>
    rw [added_arr, leaves, leavesOfAll_eq_flatMap, List.map_flatMap]
    exact List.flatMap_congr ih
  | null => rfl
  | _ => exact (added_of_single rfl rfl).trans (by simp [leaves])

theorem normalize_arr_eq (items : List Json) :
    (arr items).normalize {} = .arr ((leavesOfAll items).map (normalize {})) := by
  rw [normalize_arr, leavesOfAll_eq_flatMap, List.map_flatMap]
  exact congrArg Json.arr (List.flatMap_congr fun v _ => v.added_eq_map_leaves)

/-- What holds of an array if it holds of the leaves of its nest, and of an object if it holds of its
values, holds of all values if it holds of those without parts. -/
@[elab_as_elim]
theorem leaves_induction {motive : Json → Prop} (scalar : ∀ v, v.isScalar = true → motive v)
    (arr : ∀ items, (∀ v ∈ leavesOfAll items, motive v) → motive (.arr items))
    (obj : ∀ members, (∀ m ∈ members, motive m.2) → motive (.obj members)) (v : Json) :
    motive v := by
  -- Leaves may be deep within an array, so they are carried along through the arrays between.
  suffices leaf : ∀ v, (∀ x ∈ leaves v, motive x) ∧ motive v from (leaf v).2
  intro v
  induction v using parts_induction with
  | null => exact ⟨by simp [leaves], scalar _ rfl⟩
  | arr items ih =>
    have all : ∀ x ∈ leavesOfAll items, motive x := by
      intro x hx
      rw [leavesOfAll_eq_flatMap] at hx
      obtain ⟨v, hv, hx⟩ := List.mem_flatMap.mp hx
      exact (ih v hv).1 x hx
    exact ⟨all, arr items all⟩
  | obj members ih =>
    have whole := obj members fun m hm => (ih m hm).2
    exact ⟨by simpa [leaves] using whole, whole⟩
  | _ => exact ⟨by simpa [leaves] using scalar _ rfl, scalar _ rfl⟩

theorem becomes_normalize (v : Json) : v.Becomes {} (v.normalize {}) := by
  induction v using leaves_induction with
  | scalar v h =>
    rw [normalize_of_scalar h]
    exact .scalar h
  | arr items ih =>
    rw [normalize_arr_eq]
    refine .array (.refl _) (fun _ => rfl) ?_
    rw [List.forall₂_map_right_iff, List.forall₂_same]
    exact ih
  | obj members ih =>
    rw [normalize, normalizeMembers_eq_map]
    refine .object (by simp [Function.comp_def]) ?_
    rw [List.map_map, List.forall₂_map_left_iff, List.forall₂_map_right_iff, List.forall₂_same]
    exact ih

/-- What is made of each entry of a list by itself is made of the list. -/
theorem eq_map_of_forall₂ {α β : Type} {r : α → β → Prop} {f : α → β} {l : List α} {l' : List β}
    (each : List.Forall₂ r l l') (h : ∀ x ∈ l, ∀ y, r x y → y = f x) : l' = l.map f := by
  have images := (List.forall₂_and_left _ _).mpr ⟨h, each⟩
  rw [eq_comm, ← List.forall₂_eq_eq_eq, List.forall₂_map_left_iff]
  exact images.imp fun x y both => (both.1 y both.2).symm

/-- With the same keys, what is made of the values is made of the members. -/
theorem eq_map_of_keys {r : Json → Json → Prop} {f : Json → Json} {members others : Members}
    (keys : others.map (·.1) = members.map (·.1))
    (each : List.Forall₂ r (members.map (·.2)) (others.map (·.2)))
    (h : ∀ m ∈ members, ∀ w, r m.2 w → w = f m.2) : others = members.map fun m => (m.1, f m.2) := by
  have values : others.map (·.2) = (members.map (·.2)).map f := by
    refine eq_map_of_forall₂ each fun v hv => ?_
    obtain ⟨m, hm, rfl⟩ := List.mem_map.mp hv
    exact h m hm
  rw [← List.zip_unzip others, List.unzip_eq_map, keys, values, List.map_map, List.zip_map']
  rfl

theorem Becomes.eq_normalize {v w : Json} (h : v.Becomes {} w) : w = v.normalize {} := by
  induction v using leaves_induction generalizing w with
  | scalar v hv =>
    rw [normalize_of_scalar hv]
    cases h with
    | scalar => rfl
    | array | object => contradiction
  | arr items ih =>
    cases h with
    | scalar h => contradiction
    | array among kept each =>
      rw [kept rfl] at each
      rw [normalize_arr_eq, eq_map_of_forall₂ each fun x hx y => ih x hx]
  | obj members ih =>
    cases h with
    | scalar h => contradiction
    | object keys each =>
      rw [normalize, normalizeMembers_eq_map, eq_map_of_keys keys each fun m hm w => ih m hm]

theorem exists_forall₂_of_sublist {α β : Type} {r : α → β → Prop} {l : List α} {l' some : List β}
    (h : List.Forall₂ r l l') (among : some.Sublist l') :
    ∃ kept, kept.Sublist l ∧ List.Forall₂ r kept some := by
  induction h generalizing some with
  | nil => exact ⟨[], .refl _, List.sublist_nil.mp among ▸ .nil⟩
  | cons first _ ih =>
    cases among with
    | cons _ among =>
      obtain ⟨kept, within, each⟩ := ih among
      exact ⟨kept, within.cons _, each⟩
    | cons_cons _ among =>
      obtain ⟨kept, within, each⟩ := ih among
      exact ⟨_, within.cons_cons _, .cons first each⟩

/-- Repeats may be dropped from what a value becomes. -/
theorem Becomes.unrepeated {alike : Json → Json → Bool} {v w : Json} (h : v.Becomes {} w) :
    v.Becomes ⟨true⟩ (w.unrepeated alike) := by
  induction v using leaves_induction generalizing w with
  | scalar v hv =>
    cases h with
    | scalar =>
      rw [unrepeated_of_scalar hv]
      exact .scalar hv
    | array | object => contradiction
  | arr items ih =>
    cases h with
    | scalar h => contradiction
    | @array _ kept entries among all each =>
      have dropped : List.Forall₂ (Becomes ⟨true⟩) kept (entries.map (·.unrepeated alike)) := by
        rw [List.forall₂_map_right_iff]
        have images := (List.forall₂_and_left _ _).mpr
          ⟨fun x hx w => @ih x (among.subset hx) w, each⟩
        exact images.imp fun x y both => both.1 y both.2
      obtain ⟨fewer, within, each⟩ :=
        exists_forall₂_of_sublist dropped (firsts_sublist alike _)
      rw [unrepeated_arr]
      exact .array (within.trans among) (by simp) each
  | obj members ih =>
    cases h with
    | scalar h => contradiction
    | object keys each =>
      rw [unrepeated_obj]
      refine .object (by simpa [Function.comp_def] using keys) ?_
      rw [List.forall₂_map_left_iff, List.forall₂_map_right_iff] at each
      rw [List.map_map, List.forall₂_map_left_iff, List.forall₂_map_right_iff]
      exact ((List.forall₂_and_left _ _).mpr ⟨ih, each⟩).imp fun m n both => both.1 both.2

/-- Normalization gives clean values and leaves them as they are. Under both options objects keep their
keys and what has no parts is kept; if repeats are not dropped, a nest of arrays becomes the array of
its leaves, and there is no other value that the parts could become. -/
theorem normalize_normal_form (options : NormalizeOptions) (v : Json) :
    (v.normalize options).clean = true ∧ v.Becomes options (v.normalize options) ∧
      (v.normalize options).normalize options = v.normalize options ∧
      ∀ w, v.Becomes {} w ↔ w = v.normalize {} := by
  have becomes : v.Becomes options (v.normalize options) := by
    obtain ⟨_ | _⟩ := options
    · exact v.becomes_normalize
    · rw [normalize_dropping]
      exact v.becomes_normalize.unrepeated
  have again : (v.normalize options).normalize options = v.normalize options := by
    obtain ⟨_ | _⟩ := options
    · exact normalize_eq_self _ (clean_normalize {} v)
    · rw [normalize_dropping, normalize_eq_self _ (clean_normalize ⟨true⟩ v), normalize_dropping]
      exact unrepeated_eq_self (repeatless_unrepeated _)
  exact ⟨clean_normalize options v, becomes, again,
    fun w => ⟨Becomes.eq_normalize, fun h => h ▸ v.becomes_normalize⟩⟩

/-- A nest that is four arrays deep, with nulls in it and an object that has a nest of its own. -/
example : (Json.arr [.arr [.int 1, .arr [.null, .arr [.int 2]]], .null,
    .obj [("b", .arr [.arr [.null], .int 3]), ("a", .null)]]).normalize {} =
      .arr [.int 1, .int 2, .obj [("b", .arr [.int 3]), ("a", .null)]] := rfl

end EntityFeed.Json
