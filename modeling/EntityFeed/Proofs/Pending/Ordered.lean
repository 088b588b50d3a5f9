import EntityFeed.Proofs.Pending.Store
import Mathlib.Data.List.Nodup

/-! Pending ids as one ordered set: a list without duplicates in which the ids stand as they were
first added. A set in memory and a set of a database table both hold such a list. The memory keeps the
order beside the members; the table keeps it in the numbers of its rows. -/
namespace EntityFeed.Pending

namespace Ordered

/-- New ids go behind the others, each once, where they first occur. -/
def add (set ids : List String) : List String := set ++ (ids.filter (· ∉ set)).eraseDups

def remove (set ids : List String) : List String := set.filter (· ∉ ids)

def insert (set : List String) (id : String) : List String := if id ∈ set then set else set ++ [id]

@[simp] theorem add_nil (set : List String) : add set [] = set := by simp [add]

@[simp] theorem remove_nil (set : List String) : remove set [] = set := by simp [remove]

theorem add_cons (set : List String) (id : String) (rest : List String) :
    add set (id :: rest) = add (insert set id) rest := by
  by_cases h : id ∈ set
  · simp [add, insert, h]
  · have behind : (rest.filter (· ∉ set)).filter (fun b => !b == id) =
        rest.filter (· ∉ set ++ [id]) := by
      rw [List.filter_filter]
      refine List.filter_congr fun x _ => ?_
      by_cases hx : x = id <;> simp [hx]
    rw [insert, if_neg h, add, List.filter_cons_of_pos (by simpa using h), List.eraseDups_cons, behind,
      add, List.append_assoc, List.singleton_append]

theorem remove_cons (set : List String) (id : String) (rest : List String) :
    remove set (id :: rest) = remove (remove set [id]) rest := by
  unfold remove
  rw [List.filter_filter]
  refine List.filter_congr fun x _ => ?_
  by_cases hx : x = id <;> simp [hx]

theorem nodup_insert {set : List String} (h : set.Nodup) (id : String) : (insert set id).Nodup := by
  unfold insert
  split
  · exact h
  · rename_i hid
    exact h.append (List.nodup_singleton id) (by simpa using hid)

theorem nodup_add {set : List String} (h : set.Nodup) (ids : List String) : (add set ids).Nodup := by
  induction ids generalizing set with
  | nil => simpa using h
  | cons id rest ih =>
    rw [add_cons]
    exact ih (nodup_insert h id)

theorem nodup_remove {set : List String} (h : set.Nodup) (ids : List String) :
    (remove set ids).Nodup := h.filter _

theorem length_insert (set : List String) (id : String) :
    (insert set id).length = set.length + if id ∈ set then 0 else 1 := by
  unfold insert
  split <;> simp

theorem length_remove (set : List String) (id : String) :
    (remove set [id]).length + set.count id = set.length := by
  rw [remove, ← List.countP_eq_length_filter, List.count, Nat.add_comm,
    List.length_eq_countP_add_countP (· == id)]
  simp

/-- An id that is added again after it has been removed is the last one. -/
example : add (remove (add [] ["a", "b", "a"]) ["a", "c"]) ["b", "a"] = ["b", "a"] := by decide

end Ordered

namespace MemorySet

variable {s : MemorySet}

/-- That the order has every member once and nothing else. -/
structure Exact (s : MemorySet) : Prop where
  nodup : s.order.Nodup
  sound : s.Sound

theorem exact_empty : Exact {} := ⟨List.nodup_nil, sound_empty⟩

theorem Sound.order_insert (h : s.Sound) (id : String) :
    (s.insert id).order = Ordered.insert s.order id := by
  have member : (s.members.contains id = true) = (id ∈ s.order) := by
    rw [Std.HashSet.contains_iff_mem, h id]
  simp only [MemorySet.insert, Ordered.insert, member]
  split <;> rfl

theorem Sound.order_add (h : s.Sound) (ids : List String) :
    (s.add ids).order = Ordered.add s.order ids := by
  induction ids generalizing s with
  | nil => simp [MemorySet.add]
  | cons id rest ih =>
    rw [Ordered.add_cons, ← h.order_insert]
    exact ih (h.insert id)

theorem Exact.add (h : s.Exact) (ids : List String) : (s.add ids).Exact := by
  refine ⟨?_, h.sound.add ids⟩
  rw [h.sound.order_add]
  exact Ordered.nodup_add h.nodup ids

theorem Exact.remove (h : s.Exact) (ids : List String) : (s.remove ids).Exact := by
  refine ⟨?_, h.sound.remove ids⟩
  rw [h.sound.order_remove]
  exact Ordered.nodup_remove h.nodup ids

end MemorySet

namespace Table

variable {t : Table} {key other id : String}

/-- That the rows are numbered in their order by numbers that have been used, and that no id is in a
set twice. -/
structure Sound (t : Table) : Prop where
  ascending : t.rows.Pairwise fun a b => a.seq < b.seq
  used : ∀ r ∈ t.rows, r.seq < t.nextSeq
  unique : t.rows.Pairwise fun a b => ¬(a.key = b.key ∧ a.id = b.id)

theorem sound_empty : Sound {} := ⟨.nil, nofun, .nil⟩

theorem Sound.insert (h : t.Sound) (key id : String) : (t.insert key id).Sound := by
  unfold Table.insert
  split
  · exact h
  · rename_i absent
    refine ⟨?_, ?_, ?_⟩
    · refine List.pairwise_append.mpr ⟨h.ascending, List.pairwise_singleton _ _, ?_⟩
      intro a ha b hb
      rw [List.mem_singleton.mp hb]
      exact h.used a ha
    · intro r hr
      rcases List.mem_append.mp hr with hr | hr
      · exact Nat.lt_succ_of_lt (h.used r hr)
      · rw [List.mem_singleton.mp hr]
        exact Nat.lt_succ_self _
    · refine List.pairwise_append.mpr ⟨h.unique, List.pairwise_singleton _ _, ?_⟩
      intro a ha b hb same
      rw [List.mem_singleton.mp hb] at same
      refine absent (List.any_eq_true.mpr ⟨a, ha, ?_⟩)
      simpa using same

theorem Sound.erase (h : t.Sound) (key id : String) : (t.erase key id).Sound :=
  ⟨h.ascending.filter _, fun r hr => h.used r (List.mem_of_mem_filter hr), h.unique.filter _⟩

/-- The ids of a set, in the order of its rows. -/
def ids (t : Table) (key : String) : List String := (t.rows.filter (·.key == key)).map (·.id)

/-- Rows that are numbered in their order need not be sorted. -/
theorem Sound.snapshot_eq (h : t.Sound) (key : String) : t.snapshot key = t.ids key := by
  have sorted : (t.rows.filter (·.key == key)).Pairwise fun a b => decide (a.seq ≤ b.seq) = true :=
    (h.ascending.filter _).imp fun hab => decide_eq_true (Nat.le_of_lt hab)
  rw [snapshot, List.mergeSort_of_pairwise sorted, ids]

theorem size_eq (t : Table) (key : String) : t.size key = (t.ids key).length := by
  rw [size, ids, List.length_map, List.countP_eq_length_filter]

theorem contains_iff : t.contains key id = true ↔ id ∈ t.ids key := by
  simp [contains, ids, and_assoc]

theorem Sound.nodup_ids (h : t.Sound) (key : String) : (t.ids key).Nodup := by
  refine List.pairwise_map.mpr ((h.unique.filter _).imp_of_mem ?_)
  intro a b ha hb differ same
  have hka := (List.mem_filter.mp ha).2
  have hkb := (List.mem_filter.mp hb).2
  rw [beq_iff_eq] at hka hkb
  exact differ ⟨hka.trans hkb.symm, same⟩

theorem ids_insert (t : Table) (key id : String) :
    (t.insert key id).ids key = Ordered.insert (t.ids key) id := by
  unfold Table.insert Ordered.insert
  by_cases h : id ∈ t.ids key
  · rw [if_pos (contains_iff.mpr h), if_pos h]
  · rw [if_neg (fun hc => h (contains_iff.mp hc)), if_neg h]
    simp [ids]

theorem ids_insert_of_ne (t : Table) (id : String) (h : key ≠ other) :
    (t.insert key id).ids other = t.ids other := by
  unfold Table.insert
  split
  · rfl
  · simp [ids, h]

theorem ids_erase (t : Table) (key id : String) :
    (t.erase key id).ids key = Ordered.remove (t.ids key) [id] := by
  rw [ids, erase, Ordered.remove, ids, List.filter_map, List.filter_filter, List.filter_filter]
  congr 1
  refine List.filter_congr fun r _ => ?_
  by_cases hk : r.key = key <;> by_cases hi : r.id = id <;> simp [hk, hi]

theorem ids_erase_of_ne (t : Table) (id : String) (h : key ≠ other) :
    (t.erase key id).ids other = t.ids other := by
  rw [ids, erase, ids, List.filter_filter]
  congr 1
  refine List.filter_congr fun r _ => ?_
  by_cases hk : r.key = other
  · simp [hk, h.symm]
  · simp [hk]

/-- That a table comes from another one by changes to one of its sets. -/
structure ChangesOnly (key : String) (t u : Table) : Prop where
  sound : u.Sound
  others : ∀ other, key ≠ other → u.ids other = t.ids other

namespace ChangesOnly

variable {u v : Table}

theorem refl (h : t.Sound) (key : String) : ChangesOnly key t t := ⟨h, fun _ _ => rfl⟩

theorem trans (h : ChangesOnly key t u) (h' : ChangesOnly key u v) : ChangesOnly key t v :=
  ⟨h'.sound, fun other hne => (h'.others other hne).trans (h.others other hne)⟩

theorem insert (h : t.Sound) (key id : String) : ChangesOnly key t (t.insert key id) :=
  ⟨h.insert key id, fun _ hne => t.ids_insert_of_ne id hne⟩

theorem erase (h : t.Sound) (key id : String) : ChangesOnly key t (t.erase key id) :=
  ⟨h.erase key id, fun _ hne => t.ids_erase_of_ne id hne⟩

theorem add (h : t.Sound) (key : String) (new : List String) :
    ChangesOnly key t (t.add key new).2 := by
  induction new generalizing t with
  | nil => exact refl h key
  | cons id rest ih =>
    rw [add_cons]
    exact (insert h key id).trans (ih (h.insert key id))

theorem remove (h : t.Sound) (key : String) (gone : List String) :
    ChangesOnly key t (t.remove key gone).2 := by
  induction gone generalizing t with
  | nil => exact refl h key
  | cons id rest ih =>
    rw [remove_cons]
    exact (erase h key id).trans (ih (h.erase key id))

end ChangesOnly

theorem ids_add (t : Table) (key : String) (new : List String) :
    (t.add key new).2.ids key = Ordered.add (t.ids key) new := by
  induction new generalizing t with
  | nil => simp [add]
  | cons id rest ih => rw [add_cons, ih, ids_insert, Ordered.add_cons]

theorem ids_remove (t : Table) (key : String) (gone : List String) :
    (t.remove key gone).2.ids key = Ordered.remove (t.ids key) gone := by
  induction gone generalizing t with
  | nil => simp [remove]
  | cons id rest ih => rw [remove_cons, ih, ids_erase, ← Ordered.remove_cons]

theorem count_eq (t : Table) (key id : String) :
    t.rows.countP (fun r => r.key == key && r.id == id) = (t.ids key).count id := by
  rw [ids, List.count, List.countP_map, List.countP_filter]
  refine List.countP_congr fun r _ => ?_
  simp [and_comm]

/-- The rows that are inserted are as many as the ids that the set has more. -/
theorem count_add (t : Table) (key : String) (new : List String) :
    (t.ids key).length + (t.add key new).1 = (Ordered.add (t.ids key) new).length := by
  induction new generalizing t with
  | nil => simp [add]
  | cons id rest ih =>
    have later := ih (t.insert key id)
    have grown := Ordered.length_insert (t.ids key) id
    rw [ids_insert] at later
    rw [add_cons, Ordered.add_cons]
    simp only [contains_iff]
    omega

/-- The rows that are erased are as many as the ids that the set has fewer. -/
theorem count_remove (t : Table) (key : String) (gone : List String) :
    (Ordered.remove (t.ids key) gone).length + (t.remove key gone).1 = (t.ids key).length := by
  induction gone generalizing t with
  | nil => simp [remove]
  | cons id rest ih =>
    have later := ih (t.erase key id)
    have shrunk := Ordered.length_remove (t.ids key) id
    rw [ids_erase] at later
    rw [remove_cons, Ordered.remove_cons, count_eq]
    dsimp only
    omega

end Table
end EntityFeed.Pending
