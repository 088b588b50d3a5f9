import EntityFeed.Impact.Discovery
import EntityFeed.Proofs.Entity
import EntityFeed.Proofs.Sql.Alias
import EntityFeed.Proofs.Sql.Grouping
import EntityFeed.Proofs.Sql.Scoping

/-! What a search finds. A join narrows what has been found to the rows that match and puts the new
row behind the others, so that it stands for what was found before. -/
namespace EntityFeed
open Sql

namespace Search

def joinedTables (s : Search) : List Joined :=
  s.joins.map fun j => .table .inner j.table j.left j.right

def header (s : Search) : Header := (s.source.qualifier, none) :: s.joinedTables.map Joined.entry

def names (s : Search) : List String := s.header.map (·.1)

/-- That a search finds some joined rows. -/
def Finds (c : Comparison) (ω : Arrangement) (db : Database) (s : Search) (scope : Scope) : Prop :=
  scope ∈ Joined.extendAll c ω db s.joinedTables
      ((db s.source.table).map fun row => [(s.source.qualifier, row)]) ∧
    Membership.holds c ⟨⟨s.source.qualifier, s.column⟩, s.values⟩ scope = true

section Rows

variable {c : Comparison} {ω : Arrangement} {db : Database} {s : Search} {scope : Scope}

theorem Finds.names_eq (h : s.Finds c ω db scope) : scope.map (·.1) = s.names := by
  obtain ⟨start, hs, extra, rfl, he⟩ := Joined.exists_of_mem_extendAll c ω db h.1
  obtain ⟨row, -, rfl⟩ := List.mem_map.mp hs
  have hq : s.joinedTables.map (·.qualifier) = (s.joinedTables.map Joined.entry).map (·.1) := by
    rw [List.map_map]
    exact List.map_congr_left fun j _ => j.entry_fst.symm
  rw [List.map_append, he, hq]
  rfl

/-- The row that a search starts from. -/
theorem Finds.exists_source (h : s.Finds c ω db scope) :
    ∃ row ∈ db s.source.table, scope.lookup s.source.qualifier = some row := by
  obtain ⟨start, hs, extra, rfl, -⟩ := Joined.exists_of_mem_extendAll c ω db h.1
  obtain ⟨row, hr, rfl⟩ := List.mem_map.mp hs
  exact ⟨row, hr, List.lookup_cons_self⟩

theorem joinedTables_joined (s : Search) (table : TableRef) (left right : ColumnRef) :
    (s.joined table left right).joinedTables =
      s.joinedTables ++ [.table .inner table left right] := by
  rw [joinedTables, joined, List.map_append]
  rfl

theorem header_joined (s : Search) (table : TableRef) (left right : ColumnRef) :
    (s.joined table left right).header = s.header ++ [(table.qualifier, none)] := by
  rw [header, joinedTables_joined, List.map_append]
  rfl

/-- A search without joins finds the rows with one of its values. -/
theorem finds_start {source : TableRef} {column : String} {values : List String} {row : Row}
    (hr : row ∈ db source.table) (hv : ∃ k ∈ values, c.equal (row.value column) (.str k) = true) :
    Finds c ω db ⟨source, column, values, []⟩ [(source.qualifier, row)] := by
  refine ⟨?_, ?_⟩
  · rw [joinedTables, List.map_nil, Joined.extendAll]
    exact List.mem_map_of_mem hr
  · rw [Membership.holds, List.any_eq_true]
    obtain ⟨k, hk, he⟩ := hv
    refine ⟨k, hk, ?_⟩
    have hval : Scope.value [(source.qualifier, row)] ⟨source.qualifier, column⟩ = row.value column :=
      Scope.value_eq_of_lookup List.lookup_cons_self
    rw [hval]
    exact he

/-- A further join finds what was found with a row that matches. -/
theorem Finds.joined (h : s.Finds c ω db scope) {table : TableRef} {left right : ColumnRef} {row : Row}
    (hr : row ∈ db table.table)
    (he : c.equal (Scope.value (scope ++ [(table.qualifier, row)]) left)
      (Scope.value (scope ++ [(table.qualifier, row)]) right) = true) :
    (s.joined table left right).Finds c ω db (scope ++ [(table.qualifier, row)]) := by
  obtain ⟨source, -, hs⟩ := h.exists_source
  refine ⟨?_, ?_⟩
  · rw [joinedTables_joined, Joined.extendAll_append, Joined.extendAll_cons, Joined.extendAll]
    exact List.mem_flatMap.mpr ⟨scope, h.1, (Joined.mem_extend_inner c ω db).mpr ⟨row, hr, rfl, he⟩⟩
  · have hm := h.2
    rw [Membership.holds] at hm ⊢
    rw [Scope.value_eq_of_lookup (r := ⟨s.source.qualifier, s.column⟩) hs] at hm
    rw [Search.joined, Scope.value_of_lookup (r := ⟨s.source.qualifier, s.column⟩) hs]
    exact hm

/-- What a search without joins finds is a row with one of its values. -/
theorem Finds.exists_of_start {source : TableRef} {column : String} {values : List String}
    (h : Finds c ω db ⟨source, column, values, []⟩ scope) :
    ∃ row ∈ db source.table, scope = [(source.qualifier, row)] ∧
      ∃ k ∈ values, c.equal (row.value column) (.str k) = true := by
  obtain ⟨hm, hv⟩ := h
  rw [joinedTables, List.map_nil, Joined.extendAll] at hm
  obtain ⟨row, hr, rfl⟩ := List.mem_map.mp hm
  refine ⟨row, hr, rfl, ?_⟩
  have hval : Scope.value [(source.qualifier, row)] ⟨source.qualifier, column⟩ = row.value column :=
    Scope.value_eq_of_lookup List.lookup_cons_self
  rw [Membership.holds, List.any_eq_true, hval] at hv
  exact hv

/-- What a search finds behind a further join was found without it, and has a row that matches. -/
theorem Finds.exists_of_joined {table : TableRef} {left right : ColumnRef}
    (h : (s.joined table left right).Finds c ω db scope) :
    ∃ found row, scope = found ++ [(table.qualifier, row)] ∧ s.Finds c ω db found ∧
      row ∈ db table.table ∧ c.equal (scope.value left) (scope.value right) = true := by
  obtain ⟨hm, hv⟩ := h
  rw [joinedTables_joined, Joined.extendAll_append, Joined.extendAll_cons, Joined.extendAll] at hm
  obtain ⟨found, hf, hm⟩ := List.mem_flatMap.mp hm
  obtain ⟨row, hr, rfl, he⟩ := (Joined.mem_extend_inner c ω db).mp hm
  obtain ⟨first, hl⟩ : ∃ first, found.lookup s.source.qualifier = some first := by
    obtain ⟨start, hs, extra, rfl, -⟩ := Joined.exists_of_mem_extendAll c ω db hf
    obtain ⟨first, -, rfl⟩ := List.mem_map.mp hs
    exact ⟨first, List.lookup_cons_self⟩
  refine ⟨found, row, rfl, ⟨hf, ?_⟩, hr, he⟩
  rw [Membership.holds] at hv ⊢
  rw [Search.joined, Scope.value_of_lookup (r := ⟨s.source.qualifier, s.column⟩) hl] at hv
  rw [Scope.value_eq_of_lookup (r := ⟨s.source.qualifier, s.column⟩) hl]
  exact hv

end Rows

section Acceptance

/-- That a search is accepted and its aliases have been issued. -/
structure Fits (s : Search) (a : Aliases) : Prop where
  accepted : Joined.scopedAll [(s.source.qualifier, none)] s.joinedTables = true
  issued : ∀ q ∈ s.names, q ∈ a.names

variable {s : Search} {a : Aliases}

theorem fits_start {source : TableRef} {column : String} {values : List String}
    (h : source.qualifier ∈ a.names) : Fits ⟨source, column, values, []⟩ a := by
  refine ⟨rfl, ?_⟩
  intro q hq
  rw [List.mem_singleton.mp hq]
  exact h

/-- Every alias of a search is one of a table. -/
theorem lookup_header {q : String} (h : q ∈ s.names) : s.header.lookup q = some none := by
  have hall : ∀ entry ∈ s.header, entry.2 = none := by
    intro entry he
    rcases List.mem_cons.mp he with rfl | he
    · rfl
    · obtain ⟨j, hj, rfl⟩ := List.mem_map.mp he
      obtain ⟨i, -, rfl⟩ := List.mem_map.mp hj
      rfl
  cases hl : s.header.lookup q with
  | none =>
    obtain ⟨entry, he, rfl⟩ := List.mem_map.mp h
    have hne := List.lookup_eq_none_iff.mp hl entry he
    simp at hne
  | some columns =>
    obtain ⟨front, back, he, -⟩ := List.lookup_eq_some_iff.mp hl
    have hn := hall (q, columns) (he ▸ List.mem_append_right _ List.mem_cons_self)
    exact congrArg some hn

/-- A search is joined under the next alias on a column of a table that it has. -/
theorem Fits.joined (h : s.Fits a) (table near far : String) {qualifier : String}
    (hq : qualifier ∈ s.names) :
    (s.joined ⟨table, (a.next table).1⟩ ⟨(a.next table).1, near⟩ ⟨qualifier, far⟩).Fits
      (a.next table).2 := by
  have hn : (a.next table).1 ∉ s.header.map (·.1) :=
    fun hm => Aliases.next_notMem_names a table (h.issued _ hm)
  have hleft : ColumnRef.resolves (s.header ++ [((a.next table).1, none)])
      ⟨(a.next table).1, near⟩ = true := by
    rw [ColumnRef.resolves, lookup_append_of_notMem hn]
  have hright : ColumnRef.resolves (s.header ++ [((a.next table).1, none)]) ⟨qualifier, far⟩ = true :=
    ColumnRef.resolves_of_table (lookup_header hq) _
  refine ⟨?_, ?_⟩
  · rw [joinedTables_joined, Joined.scopedAll_append]
    change (Joined.scopedAll [(s.source.qualifier, none)] s.joinedTables &&
      Joined.scopedAll s.header _) = true
    simp only [h.accepted, Joined.scopedAll, Joined.fits, Joined.entry, Joined.left, Joined.right,
      hleft, hright, Bool.true_and, Bool.and_true]
    simpa using hn
  · intro q hm
    rw [names, header_joined, List.map_append, List.mem_append] at hm
    rw [Aliases.names_next]
    rcases hm with hm | hm
    · exact List.mem_cons_of_mem _ (h.issued q hm)
    · rw [List.mem_singleton.mp hm]
      exact List.mem_cons_self

theorem mem_names_joined (s : Search) (table : TableRef) (left right : ColumnRef) :
    table.qualifier ∈ (s.joined table left right).names := by
  rw [names, header_joined, List.map_append]
  exact List.mem_append_right _ List.mem_cons_self

end Acceptance
end Search
end EntityFeed
