import EntityFeed.Pending.Store
import Std.Data.HashSet.Lemmas

/-! Which ids a store holds: adding unites, and taking away leaves all others. It is so for either
kind of store. -/
namespace EntityFeed.Pending

namespace MemorySet

/-- That the ids in order are the members. -/
def Sound (s : MemorySet) : Prop := ∀ id, id ∈ s.order ↔ id ∈ s.members

theorem sound_empty : Sound {} := by
  intro id
  simp

variable {s : MemorySet}

theorem Sound.insert (h : s.Sound) (id : String) : (s.insert id).Sound := by
  unfold MemorySet.insert
  split
  · exact h
  · intro x
    rw [List.mem_append, List.mem_singleton, Std.HashSet.mem_insert, h x, beq_iff_eq, or_comm,
      eq_comm]

theorem Sound.mem_insert (h : s.Sound) {id x : String} :
    x ∈ (s.insert id).order ↔ x ∈ s.order ∨ x = id := by
  unfold MemorySet.insert
  split
  · rename_i hc
    rw [Std.HashSet.contains_iff_mem, ← h id] at hc
    constructor
    · exact .inl
    · rintro (hx | rfl)
      · exact hx
      · exact hc
  · rw [List.mem_append, List.mem_singleton]

theorem Sound.add (h : s.Sound) (ids : List String) : (s.add ids).Sound := by
  induction ids generalizing s with
  | nil => exact h
  | cons id rest ih => exact ih (h.insert id)

theorem Sound.mem_add (h : s.Sound) {ids : List String} {x : String} :
    x ∈ (s.add ids).order ↔ x ∈ s.order ∨ x ∈ ids := by
  induction ids generalizing s with
  | nil => simp [MemorySet.add]
  | cons id rest ih =>
    have hr := ih (h.insert id)
    rw [h.mem_insert] at hr
    rw [List.mem_cons, ← or_assoc]
    exact hr

theorem foldl_without (m : Std.HashSet String) (removed : Bool) (ids : List String) :
    ids.foldl (fun (m, removed) id => (m.erase id, removed || m.contains id)) (m, removed) =
      (ids.foldl (fun m id => m.erase id) m, removed || ids.any m.contains) := by
  induction ids generalizing m removed with
  | nil => simp
  | cons id rest ih =>
    simp only [List.foldl_cons, List.any_cons, ih, Prod.mk.injEq, true_and, Bool.or_assoc]
    cases hid : m.contains id with
    | true => simp
    | false =>
      -- What is taken out is not there, so the others are there as before.
      have same : (m.erase id).contains = m.contains := by
        funext x
        by_cases hx : id = x
        · simp [← hx, hid]
        · simp [hx]
      rw [same, Bool.false_or]

theorem mem_foldl_erase {m : Std.HashSet String} {ids : List String} {x : String} :
    x ∈ ids.foldl (fun m id => m.erase id) m ↔ x ∈ m ∧ x ∉ ids := by
  induction ids generalizing m with
  | nil => simp
  | cons id rest ih =>
    rw [List.foldl_cons, ih, Std.HashSet.mem_erase, List.mem_cons]
    simp only [beq_eq_false_iff_ne, ne_eq, not_or]
    constructor
    · rintro ⟨⟨hne, hm⟩, hr⟩
      exact ⟨hm, fun he => hne he.symm, hr⟩
    · rintro ⟨hm, hne, hr⟩
      exact ⟨⟨fun he => hne he.symm, hm⟩, hr⟩

theorem mem_members_remove {ids : List String} {x : String} :
    x ∈ (s.remove ids).members ↔ x ∈ s.members ∧ x ∉ ids := by
  have h : (s.remove ids).members = ids.foldl (fun m id => m.erase id) s.members := by
    rw [remove, without, foldl_without]
    dsimp only
    split <;> rfl
  rw [h, mem_foldl_erase]

/-- The others keep their order, be it that all are looked through or that none had to be. -/
theorem Sound.order_remove (h : s.Sound) (ids : List String) :
    (s.remove ids).order = s.order.filter (· ∉ ids) := by
  rw [remove, without, foldl_without]
  dsimp only
  split
  · refine List.filter_congr fun x hx => ?_
    rw [Bool.eq_iff_iff, Std.HashSet.contains_iff_mem, mem_foldl_erase, decide_eq_true_iff]
    exact and_iff_right ((h x).mp hx)
  · rename_i hnone
    have absent : ∀ id ∈ ids, id ∉ s.members := by simpa using hnone
    refine (List.filter_eq_self.mpr fun x hx => ?_).symm
    exact decide_eq_true fun hid => absent x hid ((h x).mp hx)

theorem Sound.mem_remove (h : s.Sound) {ids : List String} {x : String} :
    x ∈ (s.remove ids).order ↔ x ∈ s.order ∧ x ∉ ids := by
  rw [h.order_remove, List.mem_filter, decide_eq_true_iff]

theorem Sound.remove (h : s.Sound) (ids : List String) : (s.remove ids).Sound := by
  intro x
  rw [h.mem_remove, h x, mem_members_remove]

end MemorySet

namespace Table

variable {t : Table} {key id x : String}

theorem mem_snapshot : x ∈ t.snapshot key ↔ t.contains key x = true := by
  simp only [snapshot, contains, List.mem_map, List.mem_mergeSort, List.mem_filter, List.any_eq_true,
    Bool.and_eq_true, beq_iff_eq, and_assoc]

theorem contains_insert :
    (t.insert key id).contains key x = true ↔ t.contains key x = true ∨ x = id := by
  unfold insert
  split
  · rename_i hc
    constructor
    · exact .inl
    · rintro (hx | rfl)
      · exact hx
      · exact hc
  · simp only [contains, List.any_append, List.any_cons, List.any_nil, Bool.or_false, Bool.or_eq_true,
      beq_self_eq_true, Bool.true_and, beq_iff_eq]
    exact or_congr_right eq_comm

theorem contains_erase :
    (t.erase key id).contains key x = true ↔ t.contains key x = true ∧ x ≠ id := by
  simp only [contains, erase, List.any_eq_true, List.mem_filter, Bool.and_eq_true, beq_iff_eq,
    Bool.not_eq_true', Bool.and_eq_false_iff, beq_eq_false_iff_ne]
  constructor
  · rintro ⟨r, ⟨hr, hne⟩, rfl, rfl⟩
    exact ⟨⟨r, hr, rfl, rfl⟩, by simpa using hne⟩
  · rintro ⟨⟨r, hr, rfl, rfl⟩, hne⟩
    exact ⟨r, ⟨hr, .inr hne⟩, rfl, rfl⟩

theorem foldl_counting (count : Table → String → Nat) (change : Table → String → Table) (n : Nat)
    (t : Table) (ids : List String) :
    ids.foldl (fun (n, t) id => (n + count t id, change t id)) (n, t) =
      (n + (ids.foldl (fun (n, t) id => (n + count t id, change t id)) (0, t)).1,
        (ids.foldl (fun (n, t) id => (n + count t id, change t id)) (0, t)).2) := by
  induction ids generalizing n t with
  | nil => rfl
  | cons id rest ih =>
    simp only [List.foldl_cons]
    rw [ih (n + count t id), ih (0 + count t id), Nat.zero_add, Nat.add_assoc]

theorem add_cons (t : Table) (key id : String) (rest : List String) :
    t.add key (id :: rest) =
      ((if t.contains key id then 0 else 1) + ((t.insert key id).add key rest).1,
        ((t.insert key id).add key rest).2) := by
  simp only [add, List.foldl_cons, Nat.zero_add]
  exact foldl_counting (fun t id => if t.contains key id then 0 else 1) (·.insert key ·) _ _ rest

theorem remove_cons (t : Table) (key id : String) (rest : List String) :
    t.remove key (id :: rest) =
      (t.rows.countP (fun r => r.key == key && r.id == id) + ((t.erase key id).remove key rest).1,
        ((t.erase key id).remove key rest).2) := by
  simp only [remove, List.foldl_cons, Nat.zero_add]
  exact foldl_counting (fun t id => t.rows.countP fun r => r.key == key && r.id == id)
    (·.erase key ·) _ _ rest

theorem contains_add {ids : List String} :
    (t.add key ids).2.contains key x = true ↔ t.contains key x = true ∨ x ∈ ids := by
  induction ids generalizing t with
  | nil => simp [add]
  | cons id rest ih => rw [add_cons, ih, contains_insert, List.mem_cons, or_assoc]

theorem contains_remove {ids : List String} :
    (t.remove key ids).2.contains key x = true ↔ t.contains key x = true ∧ x ∉ ids := by
  induction ids generalizing t with
  | nil => simp [remove]
  | cons id rest ih => rw [remove_cons, ih, contains_erase, List.mem_cons, not_or, and_assoc]

end Table

theorem Handle.table_write (h : Handle) (d : Disk) (t : Table) :
    h.table (d.write h.file (.database t)) = t := by
  simp [table, Disk.write, Disk.file?]

namespace Store

/-- That a store in memory is consistent. -/
def Sound : Store → Prop
  | memory m => m.Sound
  | database _ => True

theorem sound_empty : empty.Sound := MemorySet.sound_empty

variable {s : Store} {d : Disk} {ids : List String} {x : String}

theorem Sound.add (h : s.Sound) (d : Disk) (ids : List String) : (s.add d ids).1.Sound := by
  cases s with
  | memory m => exact MemorySet.Sound.add h ids
  | database h => trivial

theorem Sound.remove (h : s.Sound) (d : Disk) (ids : List String) : (s.remove d ids).1.Sound := by
  cases s with
  | memory m => exact MemorySet.Sound.remove h ids
  | database h => trivial

theorem Sound.mem_snapshot_add (h : s.Sound) :
    x ∈ (s.add d ids).1.snapshot (s.add d ids).2 ↔ x ∈ s.snapshot d ∨ x ∈ ids := by
  cases s with
  | memory m => exact MemorySet.Sound.mem_add h
  | database h =>
    simp only [Store.add, snapshot, Handle.snapshot, Handle.add, Handle.table_write,
      Table.mem_snapshot]
    exact Table.contains_add

theorem Sound.mem_snapshot_remove (h : s.Sound) :
    x ∈ (s.remove d ids).1.snapshot (s.remove d ids).2 ↔ x ∈ s.snapshot d ∧ x ∉ ids := by
  cases s with
  | memory m => exact MemorySet.Sound.mem_remove h
  | database h =>
    simp only [Store.remove, snapshot, Handle.snapshot, Handle.remove, Handle.table_write,
      Table.mem_snapshot]
    exact Table.contains_remove

end Store
end EntityFeed.Pending
