import EntityFeed.Sql.Alias
import Mathlib.Data.List.Basic

/-! Aliases never collide: the number behind the last underscore tells the table's name and the use
apart, and the uses of one table are counted. -/
namespace EntityFeed.Sql

/-- The alias of a table for its `n`-th use. -/
def aliasOf (table : String) (n : Nat) : String := table ++ "_" ++ toString n

theorem toList_aliasOf (table : String) (n : Nat) :
    (aliasOf table n).toList = table.toList ++ '_' :: Nat.toDigits 10 n := by
  simp [aliasOf, Nat.toString_eq_repr, Nat.toList_repr]

/-- What stands behind the last of some marks is determined, and so is what stands before it. -/
theorem append_mark_inj {α : Type} {mark : α} {front back front' back' : List α} (h : mark ∉ back)
    (h' : mark ∉ back') (he : front ++ mark :: back = front' ++ mark :: back') :
    front = front' ∧ back = back' := by
  rcases List.append_eq_append_iff.mp he with ⟨mid, hf, hb⟩ | ⟨mid, hf, hb⟩
  · cases mid with
    | nil =>
      have hb' : back = back' := by simpa using hb
      exact ⟨by simpa using hf.symm, hb'⟩
    | cons c mid =>
      obtain ⟨-, hb'⟩ := List.cons_eq_cons.mp hb
      exact absurd (hb' ▸ List.mem_append_right mid List.mem_cons_self) h
  · cases mid with
    | nil =>
      have hb' : back' = back := by simpa using hb
      exact ⟨by simpa using hf, hb'.symm⟩
    | cons c mid =>
      obtain ⟨-, hb'⟩ := List.cons_eq_cons.mp hb
      exact absurd (hb' ▸ List.mem_append_right mid List.mem_cons_self) h'

theorem aliasOf_inj {t u : String} {m n : Nat} (h : aliasOf t m = aliasOf u n) : t = u ∧ m = n := by
  have hl := congrArg String.toList h
  rw [toList_aliasOf, toList_aliasOf] at hl
  obtain ⟨ht, hd⟩ := append_mark_inj Nat.underscore_not_in_toDigits
    Nat.underscore_not_in_toDigits hl
  refine ⟨String.toList_inj.mp ht, ?_⟩
  rw [← Nat.ofDigitChars_ten_toDigits (n := m), hd, Nat.ofDigitChars_ten_toDigits]

namespace Aliases

/-- The aliases issued so far, the last first. -/
def names (a : Aliases) : List String := namesOf a.issued
where
  namesOf : List String → List String
    | [] => []
    | table :: rest => aliasOf table (rest.count table + 1) :: namesOf rest

theorem names_next (a : Aliases) (table : String) :
    (a.next table).2.names = (a.next table).1 :: a.names := rfl

theorem exists_of_mem_namesOf {issued : List String} {q : String} (h : q ∈ names.namesOf issued) :
    ∃ table n, n < issued.count table ∧ q = aliasOf table (n + 1) := by
  induction issued with
  | nil => simp [names.namesOf] at h
  | cons t rest ih =>
    rcases List.mem_cons.mp h with rfl | h
    · exact ⟨t, rest.count t, by simp, rfl⟩
    · obtain ⟨table, n, hn, rfl⟩ := ih h
      have hc := List.count_le_count_cons (l := rest) (a := table) (b := t)
      exact ⟨table, n, by omega, rfl⟩

theorem nodup_names (a : Aliases) : a.names.Nodup := by
  obtain ⟨issued⟩ := a
  change (names.namesOf issued).Nodup
  induction issued with
  | nil => exact List.nodup_nil
  | cons t rest ih =>
    refine List.nodup_cons.mpr ⟨?_, ih⟩
    intro h
    obtain ⟨table, n, hn, he⟩ := exists_of_mem_namesOf h
    obtain ⟨rfl, hm⟩ := aliasOf_inj he
    omega

/-- The next alias is a new one. -/
theorem next_notMem_names (a : Aliases) (table : String) : (a.next table).1 ∉ a.names := by
  have h := nodup_names (a.next table).2
  rw [names_next] at h
  exact (List.nodup_cons.mp h).1

theorem names_suffix_next (a : Aliases) (table : String) : a.names <:+ (a.next table).2.names := by
  rw [names_next]
  exact List.suffix_cons _ _

end Aliases
end EntityFeed.Sql
