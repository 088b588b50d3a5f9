import EntityFeed.Proofs.Sql.Meaning
import Mathlib.Data.List.Nodup

/-! Groups of equal keys. Every element is in the group of its key, and there is one group for each
key. -/
namespace EntityFeed.Sql

variable {α κ : Type} [DecidableEq κ] {key : α → κ} {l : List α}

theorem mem_groups {g : List α} : g ∈ groups key l ↔ ∃ x ∈ l, g = l.filter fun y => key y = key x := by
  simp only [groups, List.mem_map, List.mem_dedup]
  constructor
  · rintro ⟨k, ⟨x, hx, rfl⟩, rfl⟩
    exact ⟨x, hx, rfl⟩
  · rintro ⟨x, hx, rfl⟩
    exact ⟨key x, ⟨x, hx, rfl⟩, rfl⟩

theorem mem_groups_of_mem (key : α → κ) {x : α} (h : x ∈ l) :
    (l.filter fun y => key y = key x) ∈ groups key l :=
  mem_groups.mpr ⟨x, h, rfl⟩

/-- A group begins with one of its elements. -/
theorem exists_head?_of_mem_groups {g : List α} (h : g ∈ groups key l) :
    ∃ x ∈ l, g.head? = some x ∧ g = l.filter fun y => key y = key x := by
  obtain ⟨x, hx, rfl⟩ := mem_groups.mp h
  cases hg : l.filter fun y => key y = key x with
  | nil =>
    rw [List.filter_eq_nil_iff] at hg
    exact absurd (decide_eq_true rfl) (hg x hx)
  | cons y rest =>
    have hy : y ∈ l.filter fun y => key y = key x := hg ▸ List.mem_cons_self
    obtain ⟨hl, hk⟩ := List.mem_filter.mp hy
    refine ⟨y, hl, rfl, ?_⟩
    rw [of_decide_eq_true hk, hg]

/-- One group is for a key, if there is an element with it. -/
theorem filter_groups (k : κ) :
    (groups key l).filter (fun g => g.head?.map key = some k) =
      if (l.filter fun x => key x = k) = [] then [] else [l.filter fun x => key x = k] := by
  -- The groups are looked at by their keys, of which each is there once.
  have hk : ∀ k' ∈ (l.map key).dedup,
      decide ((l.filter fun x => key x = k').head?.map key = some k) = decide (k' = k) := by
    intro k' hm
    have hg : (l.filter fun x => key x = k') ∈ groups key l := List.mem_map_of_mem hm
    obtain ⟨x, hx, hh, -⟩ := exists_head?_of_mem_groups hg
    have hx' : key x = k' := by
      have hm' := List.mem_of_head? hh
      exact of_decide_eq_true (List.mem_filter.mp hm').2
    rw [hh, Option.map_some, hx']
    simp only [Option.some.injEq]
  rw [groups, List.filter_map]
  have hc : (l.map key).dedup.filter ((fun g => decide (g.head?.map key = some k)) ∘
      fun k' => l.filter fun x => key x = k') = (l.map key).dedup.filter (· = k) :=
    List.filter_congr hk
  rw [hc, List.filter_eq]
  by_cases hm : k ∈ l.map key
  · rw [List.count_eq_one_of_mem (List.nodup_dedup _) (List.mem_dedup.mpr hm), if_neg]
    · rfl
    · obtain ⟨x, hx, rfl⟩ := List.mem_map.mp hm
      intro he
      rw [List.filter_eq_nil_iff] at he
      exact he x hx (decide_eq_true rfl)
  · rw [List.count_eq_zero_of_not_mem (fun h => hm (List.mem_dedup.mp h)), if_pos]
    · rfl
    · rw [List.filter_eq_nil_iff]
      intro x hx he
      exact hm (List.mem_map.mpr ⟨x, hx, of_decide_eq_true he⟩)

/-- One group is for what equals a value, if there is anything. -/
theorem filter_groups_equal {α : Type} (c : Comparison) (v : Json) (f : α → Json) (l : List α)
    (d : α) :
    (groups (fun x => c.key (f x)) l).filter (fun g => c.equal v (f (g.headD d))) =
      if (l.filter fun x => c.equal v (f x)) = [] then [] else [l.filter fun x => c.equal v (f x)] := by
  cases hv : c.key v with
  | none =>
    have hn : ∀ w, c.equal v w = false := by
      intro w
      simp [Comparison.equal, hv]
    simp [hn]
  | some k =>
    have he : ∀ w, c.equal v w = decide (c.key w = some k) := by
      intro w
      simp only [Comparison.equal, hv, Option.isSome_some, Bool.true_and]
      exact Bool.beq_comm.trans (Bool.beq_eq_decide_eq _ _)
    have hg : ∀ g ∈ groups (fun x => c.key (f x)) l,
        c.equal v (f (g.headD d)) = decide (g.head?.map (fun x => c.key (f x)) = some (some k)) := by
      intro g hg
      obtain ⟨x, -, hh, -⟩ := exists_head?_of_mem_groups hg
      rw [he, List.headD_eq_head?_getD, hh, Option.getD_some, Option.map_some]
      simp only [Option.some.injEq]
    rw [List.filter_congr hg, filter_groups]
    simp only [he]

end EntityFeed.Sql
