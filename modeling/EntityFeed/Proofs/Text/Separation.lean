import Mathlib.Algebra.GroupWithZero.Nat
import Mathlib.Data.List.Basic

/-! What is in lists that are put together with a separator between them. -/
namespace EntityFeed.Text

variable {α : Type} {sep : List α} {items : List (List α)} {x : α}

theorem of_mem_intercalate (h : x ∈ sep.intercalate items) : x ∈ sep ∨ ∃ item ∈ items, x ∈ item := by
  induction items with
  | nil => exact absurd h List.not_mem_nil
  | cons first rest ih =>
    rw [List.exists_mem_cons_iff]
    cases rest with
    | nil => exact .inr (.inl (by simpa using h))
    | cons next rest =>
      rw [List.intercalate_cons_cons, List.mem_append, List.mem_append] at h
      rcases h with (here | between) | later
      · exact .inr (.inl here)
      · exact .inl between
      · exact (ih later).imp_right .inr

theorem mem_intercalate_of_mem {item : List α} (among : item ∈ items) (mem : x ∈ item) :
    x ∈ sep.intercalate items := by
  induction items with
  | nil => contradiction
  | cons first rest ih =>
    cases rest with
    | nil =>
      obtain rfl := List.mem_singleton.mp among
      simpa using mem
    | cons next rest =>
      rw [List.intercalate_cons_cons]
      obtain rfl | behind := List.mem_cons.mp among
      · exact List.mem_append_left _ (List.mem_append_left _ mem)
      · exact List.mem_append_right _ (ih behind)

theorem length_intercalate (x : α) (item : List α) (items : List (List α)) :
    (List.intercalate [x] (item :: items)).length + 1 = ((item :: items).map (·.length + 1)).sum := by
  induction items generalizing item with
  | nil => simp
  | cons next items ih =>
    have := ih next
    simp only [List.intercalate_cons_cons, List.length_append, List.length_singleton, List.map_cons,
      List.sum_cons] at this ⊢
    omega

end EntityFeed.Text
