import EntityFeed.Normalization
import Mathlib.Data.List.Basic

/-! What normalization makes of a value. In a clean value no array has a null or an array among its
entries; every normalized value is clean, and a clean value is left as it is unless repeats are dropped
too. -/
namespace EntityFeed.Json

def isArray : Json → Bool
  | .arr _ => true
  | _ => false

/-- Whether a value has no parts. -/
def isScalar : Json → Bool
  | .arr _ => false
  | .obj _ => false
  | _ => true

theorem eq_null_of_isNull {v : Json} (h : v.isNull = true) : v = .null := by
  cases v <;> first | rfl | contradiction

mutual

/-- Whether no array in a value has a null or an array among its entries. -/
def clean : Json → Bool
  | .arr items => cleanItems items
  | .obj members => cleanMembers members
  | _ => true

def cleanItems : List Json → Bool
  | [] => true
  | v :: rest => !v.isNull && !v.isArray && clean v && cleanItems rest

def cleanMembers : List (String × Json) → Bool
  | [] => true
  | (_, v) :: rest => clean v && cleanMembers rest

end

theorem cleanItems_iff (items : List Json) :
    cleanItems items = true ↔
      ∀ v ∈ items, v.isNull = false ∧ v.isArray = false ∧ v.clean = true := by
  induction items with
  | nil => simp [cleanItems]
  | cons v rest ih => simp [cleanItems, ih, and_assoc]

theorem normalize_of_scalar {options : NormalizeOptions} {v : Json} (h : v.isScalar = true) :
    v.normalize options = v := by
  cases v <;> first | rfl | contradiction

theorem normalizeItems_eq_map (options : NormalizeOptions) (items : List Json) :
    normalizeItems options items = items.map (normalize options) := by
  induction items with
  | nil => rfl
  | cons v rest ih => rw [normalizeItems, ih, List.map_cons]

theorem distinctBy_sublist (seen : List String) (items : List Json) :
    (distinctBy seen items).Sublist items := by
  induction items generalizing seen with
  | nil => exact .slnil
  | cons v rest ih =>
    rw [distinctBy]
    split
    · exact (ih seen).cons _
    · exact (ih _).cons_cons _

/-- An entry of a normalized array is part of what one of the items has become. -/
theorem mem_cleaned {options : NormalizeOptions} {items : List Json} {x : Json}
    (h : x ∈ cleaned options items) : x.isNull = false ∧ ∃ v ∈ items, x ∈ v.spliced := by
  have kept : x ∈ (items.flatMap spliced).filter (!·.isNull) := by
    unfold cleaned at h
    split at h
    · exact (distinctBy_sublist [] _).subset h
    · exact h
  obtain ⟨hm, hn⟩ := List.mem_filter.mp kept
  exact ⟨by simpa using hn, List.mem_flatMap.mp hm⟩

theorem spliced_of_not_array {v : Json} (h : v.isArray = false) : v.spliced = [v] := by
  cases v <;> first | rfl | contradiction

theorem clean_of_mem_spliced {v x : Json} (h : v.clean = true) (hx : x ∈ v.spliced) :
    x.isArray = false ∧ x.clean = true := by
  cases v with
  | arr entries =>
    rw [clean, cleanItems_iff] at h
    exact (h x hx).2
  | _ =>
    rw [spliced_of_not_array rfl, List.mem_singleton] at hx
    exact ⟨hx ▸ rfl, hx ▸ h⟩

mutual

theorem clean_normalize (options : NormalizeOptions) (v : Json) :
    (v.normalize options).clean = true := by
  match v with
  | .arr items =>
    rw [normalize, clean, cleanItems_iff]
    intro x hx
    obtain ⟨hn, w, hw, hxw⟩ := mem_cleaned hx
    exact ⟨hn, clean_of_mem_spliced (clean_normalizeItems options items w hw) hxw⟩
  | .obj members =>
    rw [normalize, clean]
    exact clean_normalizeMembers options members
  | .null | .bool _ | .int _ | .float _ | .str _ => simp [normalize, clean]

theorem clean_normalizeItems (options : NormalizeOptions) (items : List Json) :
    ∀ w ∈ normalizeItems options items, w.clean = true := by
  match items with
  | [] => simp [normalizeItems]
  | v :: rest =>
    rw [normalizeItems, List.forall_mem_cons]
    exact ⟨clean_normalize options v, clean_normalizeItems options rest⟩

theorem clean_normalizeMembers (options : NormalizeOptions) (members : List (String × Json)) :
    cleanMembers (normalizeMembers options members) = true := by
  match members with
  | [] => rfl
  | (k, v) :: rest =>
    rw [normalizeMembers, cleanMembers, clean_normalize options v,
      clean_normalizeMembers options rest, Bool.and_self]

end

/-- What a value adds to the array it is in. -/
def added (v : Json) : List Json := (v.normalize {}).spliced.filter (!·.isNull)

theorem normalize_arr (items : List Json) :
    (Json.arr items).normalize {} = .arr (items.flatMap added) := by
  simp only [normalize, cleaned, normalizeItems_eq_map, List.flatMap_map, List.filter_flatMap]
  rfl

theorem not_array_of_mem_added {v x : Json} (h : x ∈ v.added) : x.isArray = false :=
  (clean_of_mem_spliced (clean_normalize {} v) (List.mem_filter.mp h).1).1

@[simp] theorem added_null : added .null = [] := rfl

/-- An array adds what its items add. -/
@[simp] theorem added_arr (items : List Json) : (Json.arr items).added = items.flatMap added := by
  rw [added, normalize_arr, spliced, List.filter_eq_self]
  intro x hx
  obtain ⟨v, -, hv⟩ := List.mem_flatMap.mp hx
  exact (List.mem_filter.mp hv).2

/-- What is neither null nor an array adds itself. -/
theorem added_of_single {v : Json} (hn : v.isNull = false) (ha : v.isArray = false) :
    v.added = [v.normalize {}] := by
  cases v <;> first | contradiction | rfl

mutual

theorem normalize_eq_self (v : Json) (h : v.clean = true) : v.normalize {} = v := by
  match v with
  | .arr items =>
    rw [clean] at h
    rw [normalize_arr, flatMap_added_eq_self items h]
  | .obj members =>
    rw [clean] at h
    rw [normalize, normalizeMembers_eq_self members h]
  | .null | .bool _ | .int _ | .float _ | .str _ => rfl

theorem flatMap_added_eq_self (items : List Json) (h : cleanItems items = true) :
    items.flatMap added = items := by
  match items with
  | [] => rfl
  | v :: rest =>
    simp only [cleanItems, Bool.and_eq_true, Bool.not_eq_true'] at h
    obtain ⟨⟨⟨hn, ha⟩, hv⟩, hr⟩ := h
    rw [List.flatMap_cons, added_of_single hn ha, normalize_eq_self v hv,
      flatMap_added_eq_self rest hr, List.singleton_append]

theorem normalizeMembers_eq_self (members : List (String × Json))
    (h : cleanMembers members = true) : normalizeMembers {} members = members := by
  match members with
  | [] => rfl
  | (k, v) :: rest =>
    rw [cleanMembers, Bool.and_eq_true] at h
    rw [normalizeMembers, normalize_eq_self v h.1, normalizeMembers_eq_self rest h.2]

end

theorem normalize_eq_self_iff (v : Json) : v.normalize {} = v ↔ v.clean = true :=
  ⟨fun h => h ▸ clean_normalize {} v, normalize_eq_self v⟩

example : (Json.arr [.arr [.int 1, .null], .obj [("a", .arr [.null])]]).normalize {} =
    .arr [.int 1, .obj [("a", .arr [])]] := rfl

end EntityFeed.Json
