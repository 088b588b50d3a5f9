import EntityFeed.Proofs.Entity
import EntityFeed.Impact.Hit

/-! Databases that differ in one row, and the event for the difference. Rows that an event does not
touch stand for each other, and so do the two images of an updated row as far as its columns are the
same. -/
namespace EntityFeed
open Sql

/-- Whether two values are identical or the same JSON. -/
def Json.Equal (a b : Json) : Prop := a = b ∨ a.same b = true

theorem Json.Equal.idText? {a b : Json} (h : a.Equal b) : a.idText? = b.idText? := by
  rcases h with rfl | h
  · rfl
  · cases a <;> cases b <;> simp_all [same, Json.idText?]

/-- The events that carry the whole images of the row they are about. -/
inductive ChangeEvent.Full : ChangeEvent → Prop
  | insertion (table : String) (data : Row) : Full (.insertion table data)
  | deletion (table : String) (dataOld : Row) : Full (.deletion table dataOld)
  /-- Both images have the same columns. -/
  | replacement (table : String) (data dataOld : Row)
    (h : ∀ column, (data.get? column).isSome = (dataOld.get? column).isSome) :
    Full (.replacement table data dataOld)

/-- That two databases differ in the row an event is about and nowhere else. -/
structure Change (e : ChangeEvent) (before after : Database) : Prop where
  full : e.Full
  rows : ∃ front back, before e.table = front ++ e.dataOld.toList ++ back ∧
    after e.table = front ++ e.data.toList ++ back
  others : ∀ table, table ≠ e.table → after table = before table

namespace ChangeEvent

variable {e : ChangeEvent} {columns : List String}

theorem touches_mono {others : List String} (h : e.touches columns = false) (hs : others ⊆ columns) :
    e.touches others = false := by
  rw [touches, List.any_eq_false] at h ⊢
  intro column hc
  have hn := h column hc
  simp only [List.contains_iff_mem] at hn ⊢
  exact fun hm => hn (hs hm)

theorem equal_of_untouched {table : String} {data dataOld : Row}
    (hs : ∀ column, (data.get? column).isSome = (dataOld.get? column).isSome)
    (h : (ChangeEvent.replacement table data dataOld).touches columns = false) {column : String}
    (hc : column ∈ columns) : (dataOld.value column).Equal (data.value column) := by
  rw [touches, List.any_eq_false] at h
  cases hd : data.get? column with
  | none =>
    have ho : dataOld.get? column = none := by
      have := hs column
      rw [hd] at this
      simpa using this.symm
    exact .inl (by rw [Row.value, Row.value, hd, ho])
  | some v =>
    have hm : (column, v) ∈ data := by
      obtain ⟨front, back, rfl, -⟩ := List.lookup_eq_some_iff.mp hd
      exact List.mem_append_right _ List.mem_cons_self
    have hu : unchanged (some dataOld) column v = true := by
      by_contra hn
      refine h column ?_ (by simpa using hc)
      refine List.mem_map.mpr ⟨(column, v), List.mem_filter.mpr ⟨hm, ?_⟩, rfl⟩
      change (!unchanged (some dataOld) column v) = true
      simpa using hn
    rw [unchanged, Option.bind_some] at hu
    split at hu
    · rename_i old ho
      right
      rw [Row.value, Row.value, hd, ho]
      exact hu
    · contradiction

end ChangeEvent

/-- That two rows of a table are one and the same row or the images of an updated one, whose columns
of interest it keeps. -/
def Counterparts (e : ChangeEvent) (table : String) (columns : List String) (old new : Row) : Prop :=
  old = new ∨ e.Full ∧ e = .replacement table new old ∧ e.touches columns = false

namespace Counterparts

variable {e : ChangeEvent} {table : String} {columns : List String} {old new : Row}

theorem mono (h : Counterparts e table columns old new) {others : List String}
    (hs : others ⊆ columns) : Counterparts e table others old new := by
  rcases h with rfl | ⟨hf, he, ht⟩
  · exact .inl rfl
  · exact .inr ⟨hf, he, ChangeEvent.touches_mono ht hs⟩

theorem equal (h : Counterparts e table columns old new) {column : String} (hc : column ∈ columns) :
    (old.value column).Equal (new.value column) := by
  rcases h with rfl | ⟨hf, rfl, ht⟩
  · exact .inl rfl
  · cases hf with
    | replacement _ _ _ hs => exact ChangeEvent.equal_of_untouched hs ht hc

end Counterparts

/-- The images with some property correspond, if there are as many of each and then the columns of
interest are not touched. -/
theorem ChangeEvent.Full.forall₂_images {e : ChangeEvent} (hf : e.Full) {columns : List String}
    {p : Row → Bool}
    (h : ∀ row ∈ e.data.toList ++ e.dataOld.toList, p row = true →
      (e.dataOld.toList.filter p).length = (e.data.toList.filter p).length ∧
        (e.action = .update → e.touches columns = false)) :
    List.Forall₂ (Counterparts e e.table columns) (e.dataOld.toList.filter p)
      (e.data.toList.filter p) := by
  by_cases hn : ∃ row ∈ e.data.toList ++ e.dataOld.toList, p row = true
  · obtain ⟨row, hm, hp⟩ := hn
    obtain ⟨hl, ht⟩ := h row hm hp
    cases hf with
    | insertion table data =>
      rw [List.length_eq_zero_iff.mp hl.symm]
      exact .nil
    | deletion table dataOld =>
      rw [List.length_eq_zero_iff.mp hl]
      exact .nil
    | replacement table data dataOld hs =>
      simp only [ChangeEvent.replacement, Option.toList_some] at hl ⊢
      by_cases ho : p dataOld = true
      · by_cases hd : p data = true
        · rw [List.filter_cons_of_pos ho, List.filter_cons_of_pos hd]
          exact .cons (.inr ⟨.replacement table data dataOld hs, rfl, ht rfl⟩) .nil
        · simp [ho, hd] at hl
      · by_cases hd : p data = true
        · simp [ho, hd] at hl
        · rw [List.filter_cons_of_neg ho, List.filter_cons_of_neg hd]
          exact .nil
  · have hnil : ∀ rows ⊆ e.data.toList ++ e.dataOld.toList, rows.filter p = [] := by
      intro rows hs
      rw [List.filter_eq_nil_iff]
      exact fun row hr hp => hn ⟨row, hs hr, hp⟩
    rw [hnil _ (List.subset_append_left _ _), hnil _ (List.subset_append_right _ _)]
    exact .nil

/-- Both images have the same values in a column that is not touched. -/
theorem ChangeEvent.Full.length_images {e : ChangeEvent} (hf : e.Full) (hu : e.action = .update)
    {columns : List String} (ht : e.touches columns = false) {key : String} (hk : key ∈ columns)
    (v : Json) :
    (e.dataOld.toList.filter fun row => Comparison.byIdText.equal v (row.value key)).length =
      (e.data.toList.filter fun row => Comparison.byIdText.equal v (row.value key)).length := by
  cases hf with
  | insertion table data => contradiction
  | deletion table dataOld => contradiction
  | replacement table data dataOld hs =>
    have he := (equal_of_untouched hs ht hk).idText?
    have hb : Comparison.byIdText.equal v (dataOld.value key) =
        Comparison.byIdText.equal v (data.value key) := by
      simp only [Comparison.equal, Comparison.byIdText, he]
    simp only [ChangeEvent.replacement, Option.toList_some, List.filter_cons, List.filter_nil, hb]
    split <;> rfl

namespace Change

variable {e : ChangeEvent} {before after : Database} {table key : String} {columns : List String}

/-- Rows with a value correspond if those of the images that have it do. -/
theorem forall₂_rowsWith (h : Change e before after) {v : Json} {c : Comparison}
    (hi : table = e.table → List.Forall₂ (Counterparts e table columns)
      (e.dataOld.toList.filter fun row => c.equal v (row.value key))
      (e.data.toList.filter fun row => c.equal v (row.value key))) :
    List.Forall₂ (Counterparts e table columns) (rowsWith c before table key v)
      (rowsWith c after table key v) := by
  have hr : ∀ rows : List Row, List.Forall₂ (Counterparts e table columns) rows rows :=
    fun rows => List.forall₂_same.mpr fun _ _ => .inl rfl
  by_cases ht : table = e.table
  · obtain ⟨front, back, hb, ha⟩ := h.rows
    rw [rowsWith, rowsWith, ht, hb, ha, ← ht]
    simp only [List.filter_append]
    exact List.rel_append (List.rel_append (hr _) (hi ht)) (hr _)
  · rw [rowsWith, rowsWith, h.others table ht]
    exact hr _

end Change
end EntityFeed
