import EntityFeed.Json.Basic
import Mathlib.Data.List.Nodup
import Mathlib.Data.List.Perm.Subperm

/-! Being the same JSON, for values that have each key of an object once. It goes both ways and along
chains, although objects are compared from one side only: the keys of one object are looked up in the
other, which has no more keys than the first. -/
namespace EntityFeed

namespace Binary64

variable {x y z : Binary64}

theorem same_iff : x.same y = true ↔ x.isNaN = false ∧ y.isNaN = false ∧
    (x = y ∨ x.isZero = true ∧ y.isZero = true) := by
  obtain ⟨a⟩ := x
  obtain ⟨b⟩ := y
  simp [same, and_assoc]

theorem same_symm (h : x.same y = true) : y.same x = true := by
  rw [same_iff] at h ⊢
  exact ⟨h.2.1, h.1, h.2.2.imp Eq.symm And.symm⟩

theorem same_trans (h : x.same y = true) (h' : y.same z = true) : x.same z = true := by
  rw [same_iff] at h h' ⊢
  refine ⟨h.1, h'.2.1, ?_⟩
  obtain ⟨-, -, rfl | hx⟩ := h
  · exact h'.2.2
  · obtain ⟨-, -, rfl | hz⟩ := h'
    · exact .inr hx
    · exact .inr ⟨hx.1, hz.2⟩

end Binary64

namespace Members

theorem insert_of_notMem {members : Members} {key : String} (h : key ∉ members.map (·.1)) (v : Json) :
    members.insert key v = members ++ [(key, v)] := by
  induction members with
  | nil => rfl
  | cons m rest ih =>
    rw [List.map_cons, List.mem_cons, not_or] at h
    rw [insert, if_neg (Ne.symm h.1), ih h.2, List.cons_append]

/-- Members with new keys are put at the end, each with its value. -/
theorem foldl_insert {done members : Members} (h : ((done ++ members).map (·.1)).Nodup) :
    members.foldl (fun done (k, v) => done.insert k v) done = done ++ members := by
  induction members generalizing done with
  | nil => simp
  | cons m rest ih =>
    obtain ⟨key, v⟩ := m
    have fresh : key ∉ done.map (·.1) := by
      rw [List.map_append] at h
      exact fun known => (List.nodup_append.mp h).2.2 key known key List.mem_cons_self rfl
    have behind : done ++ (key, v) :: rest = done ++ [(key, v)] ++ rest := by simp
    rw [behind] at h ⊢
    rw [List.foldl_cons]
    dsimp only
    rw [insert_of_notMem fresh, ih h]

/-- Members that have each key once are settled. -/
theorem settled_eq_self {members : Members} (h : (members.map (·.1)).Nodup) :
    members.settled = members :=
  @foldl_insert [] members h

end Members

namespace Json

mutual

/-- That each object in a value has each of its keys once. -/
def IsSettled : Json → Prop
  | .arr items => AllSettled items
  | .obj members => (members.map (·.1)).Nodup ∧ MembersSettled members
  | _ => True

def AllSettled : List Json → Prop
  | [] => True
  | v :: rest => IsSettled v ∧ AllSettled rest

def MembersSettled : List (String × Json) → Prop
  | [] => True
  | (_, v) :: rest => IsSettled v ∧ MembersSettled rest

end

theorem MembersSettled.of_mem {members : Members} (h : MembersSettled members) {m : String × Json}
    (hm : m ∈ members) : m.2.IsSettled := by
  induction members with
  | nil => contradiction
  | cons head rest ih =>
    rcases List.mem_cons.mp hm with rfl | hm
    · exact h.1
    · exact ih h.2 hm

theorem MembersSettled.insert {members : Members} (h : MembersSettled members) (key : String) {v : Json}
    (hv : v.IsSettled) : MembersSettled (members.insert key v) := by
  induction members with
  | nil => exact ⟨hv, trivial⟩
  | cons head rest ih =>
    rw [Members.insert]
    split
    · exact ⟨hv, h.2⟩
    · exact ⟨h.1, ih h.2⟩

theorem isSettled_obj_insert {members : Members} (h : (obj members).IsSettled) (key : String)
    {v : Json} (hv : v.IsSettled) : (obj (members.insert key v)).IsSettled := by
  refine ⟨?_, h.2.insert key hv⟩
  rw [Members.keys_insert]
  split
  · exact h.1
  · rename_i fresh
    exact h.1.append (List.nodup_singleton key) (by simpa using fresh)

theorem isSettled_obj_settled {members : Members} (h : MembersSettled members) :
    (obj members.settled).IsSettled :=
  List.foldlRecOn members _ (motive := fun done => (obj done).IsSettled) ⟨List.nodup_nil, trivial⟩
    fun _ hd m hm => isSettled_obj_insert hd m.1 (h.of_mem hm)

mutual

/-- In a value that has been settled each object has each key once. -/
theorem isSettled_settled : (v : Json) → v.settled.IsSettled
  | .arr items => by
    rw [settled, IsSettled]
    exact allSettled_settledItems items
  | .obj members => by
    rw [settled]
    exact isSettled_obj_settled (membersSettled_settledMembers members)
  | .null | .bool _ | .int _ | .float _ | .str _ => by simp [settled, IsSettled]

theorem allSettled_settledItems : (items : List Json) → AllSettled (settledItems items)
  | [] => trivial
  | v :: rest => ⟨isSettled_settled v, allSettled_settledItems rest⟩

theorem membersSettled_settledMembers : (members : Members) →
    MembersSettled (settledMembers members)
  | [] => trivial
  | (_, v) :: rest => ⟨isSettled_settled v, membersSettled_settledMembers rest⟩

end

mutual

/-- A value in which each object has each key once is settled. -/
theorem settled_eq_self : (v : Json) → v.IsSettled → v.settled = v
  | .arr items, h => by rw [settled, settledItems_eq_self items h]
  | .obj members, h => by
    rw [settled, settledMembers_eq_self members h.2, Members.settled_eq_self h.1]
  | .null, _ | .bool _, _ | .int _, _ | .float _, _ | .str _, _ => by simp [settled]

theorem settledItems_eq_self : (items : List Json) → AllSettled items → settledItems items = items
  | [], _ => rfl
  | v :: rest, h => by rw [settledItems, settled_eq_self v h.1, settledItems_eq_self rest h.2]

theorem settledMembers_eq_self : (members : Members) → MembersSettled members →
    settledMembers members = members
  | [], _ => rfl
  | (_, v) :: rest, h => by
    rw [settledMembers, settled_eq_self v h.1, settledMembers_eq_self rest h.2]

end

theorem sameMembers_iff {a b : Members} : sameMembers a b = true ↔
    ∀ m ∈ a, ∃ w, b.lookup m.1 = some w ∧ m.2.same w = true := by
  induction a with
  | nil => simp [sameMembers]
  | cons head rest ih =>
    rw [sameMembers, Bool.and_eq_true, ih, List.forall_mem_cons]
    refine and_congr_left fun _ => ?_
    cases b.lookup head.1 <;> simp

theorem mem_of_lookup {members : Members} {key : String} {v : Json}
    (h : members.lookup key = some v) : (key, v) ∈ members := by
  obtain ⟨front, back, rfl, -⟩ := List.lookup_eq_some_iff.mp h
  exact List.mem_append_right _ List.mem_cons_self

theorem lookup_of_mem {members : Members} (h : (members.map (·.1)).Nodup) {m : String × Json}
    (hm : m ∈ members) : members.lookup m.1 = some m.2 := by
  induction members with
  | nil => contradiction
  | cons head rest ih =>
    rw [List.map_cons, List.nodup_cons] at h
    rcases List.mem_cons.mp hm with rfl | hm
    · exact List.lookup_cons_self
    · have apart : (m.1 == head.1) = false := by
        rw [beq_eq_false_iff_ne]
        exact fun same => h.1 (same ▸ List.mem_map_of_mem hm)
      rw [List.lookup_cons, apart]
      exact ih h.2 hm

/-- Of two objects with as many keys, each of them once, the first has all keys of the second if the
second has all of the first. -/
theorem keys_subset_of_length {a b : Members} (ha : (a.map (·.1)).Nodup) (length : a.length = b.length)
    (within : ∀ m ∈ a, m.1 ∈ b.map (·.1)) : ∀ m ∈ b, m.1 ∈ a.map (·.1) := by
  have sub : (a.map (·.1)).Subperm (b.map (·.1)) := by
    refine List.subperm_of_subset ha fun key hk => ?_
    obtain ⟨m, hm, rfl⟩ := List.mem_map.mp hk
    exact within m hm
  have perm := sub.perm_of_length_le (by simp [length])
  exact fun m hm => perm.mem_iff.mpr (List.mem_map_of_mem hm)

mutual

theorem same_symm : (a b : Json) → a.IsSettled → b.IsSettled → a.same b = true → b.same a = true
  | .null, .null, _, _, _ => rfl
  | .bool _, .bool _, _, _, h => by
    rw [same, beq_iff_eq] at h ⊢
    exact h.symm
  | .int _, .int _, _, _, h => by
    rw [same, beq_iff_eq] at h ⊢
    exact h.symm
  | .float _, .float _, _, _, h => by
    rw [same] at h ⊢
    exact Binary64.same_symm h
  | .str _, .str _, _, _, h => by
    rw [same, beq_iff_eq] at h ⊢
    exact h.symm
  | .arr as, .arr bs, ha, hb, h => by
    rw [same] at h ⊢
    rw [IsSettled] at ha hb
    exact sameItems_symm as bs ha hb h
  | .obj as, .obj bs, ha, hb, h => by
    rw [same, Bool.and_eq_true, beq_iff_eq] at h ⊢
    rw [IsSettled] at ha hb
    have back := sameMembers_symm as bs ha.2 hb.2 h.2
    have within : ∀ m ∈ as, m.1 ∈ bs.map (·.1) := by
      intro m hm
      obtain ⟨w, found, -⟩ := back m hm
      exact List.mem_map.mpr ⟨(m.1, w), mem_of_lookup found, rfl⟩
    refine ⟨h.1.symm, sameMembers_iff.mpr fun m hm => ?_⟩
    obtain ⟨n, hn, key⟩ := List.mem_map.mp (keys_subset_of_length ha.1 h.1 within m hm)
    obtain ⟨w, found, same⟩ := back n hn
    rw [key, lookup_of_mem hb.1 hm, Option.some.injEq] at found
    exact ⟨n.2, key ▸ lookup_of_mem ha.1 hn, found ▸ same⟩

theorem sameItems_symm : (as bs : List Json) → AllSettled as → AllSettled bs →
    sameItems as bs = true → sameItems bs as = true
  | [], [], _, _, _ => rfl
  | a :: as, b :: bs, ha, hb, h => by
    rw [sameItems, Bool.and_eq_true] at h ⊢
    exact ⟨same_symm a b ha.1 hb.1 h.1, sameItems_symm as bs ha.2 hb.2 h.2⟩

theorem sameMembers_symm : (as bs : Members) → MembersSettled as → MembersSettled bs →
    sameMembers as bs = true → ∀ m ∈ as, ∃ w, bs.lookup m.1 = some w ∧ w.same m.2 = true
  | [], _, _, _, _ => by simp
  | (key, v) :: rest, bs, ha, hb, h => by
    obtain ⟨⟨w, found, same⟩, others⟩ := List.forall_mem_cons.mp (sameMembers_iff.mp h)
    have settled : w.IsSettled := hb.of_mem (mem_of_lookup found)
    exact List.forall_mem_cons.mpr ⟨⟨w, found, same_symm v w ha.1 settled same⟩,
      sameMembers_symm rest bs ha.2 hb (sameMembers_iff.mpr others)⟩

end

mutual

theorem same_trans : (a b c : Json) → a.same b = true → b.same c = true → a.same c = true
  | .null, .null, .null, _, _ => rfl
  | .bool _, .bool _, .bool _, h, h' => by simp_all [same]
  | .int _, .int _, .int _, h, h' => by simp_all [same]
  | .float _, .float _, .float _, h, h' => by
    rw [same] at h h' ⊢
    exact Binary64.same_trans h h'
  | .str _, .str _, .str _, h, h' => by simp_all [same]
  | .arr as, .arr bs, .arr cs, h, h' => by
    rw [same] at h h' ⊢
    exact sameItems_trans as bs cs h h'
  | .obj as, .obj bs, .obj cs, h, h' => by
    rw [same, Bool.and_eq_true, beq_iff_eq] at h h' ⊢
    exact ⟨h.1.trans h'.1, sameMembers_trans as bs cs h.2 h'.2⟩

theorem sameItems_trans : (as bs cs : List Json) → sameItems as bs = true →
    sameItems bs cs = true → sameItems as cs = true
  | [], [], [], _, _ => rfl
  | a :: as, b :: bs, c :: cs, h, h' => by
    rw [sameItems, Bool.and_eq_true] at h h' ⊢
    exact ⟨same_trans a b c h.1 h'.1, sameItems_trans as bs cs h.2 h'.2⟩

theorem sameMembers_trans : (as bs cs : Members) → sameMembers as bs = true →
    sameMembers bs cs = true → sameMembers as cs = true
  | [], _, _, _, _ => rfl
  | (key, v) :: rest, bs, cs, h, h' => by
    obtain ⟨⟨w, found, same⟩, others⟩ := List.forall_mem_cons.mp (sameMembers_iff.mp h)
    obtain ⟨u, found', same'⟩ := sameMembers_iff.mp h' _ (mem_of_lookup found)
    have behind := sameMembers_trans rest bs cs (sameMembers_iff.mpr others) h'
    exact sameMembers_iff.mpr (List.forall_mem_cons.mpr
      ⟨⟨u, found', same_trans v w u same same'⟩, sameMembers_iff.mp behind⟩)

end

/-- In a comparison, either side can be replaced by what is the same. -/
theorem same_congr_left {a a' : Json} (b : Json) (ha : a.IsSettled) (ha' : a'.IsSettled)
    (h : a.same a' = true) : a.same b = a'.same b := by
  rw [Bool.eq_iff_iff]
  exact ⟨same_trans a' a b (same_symm a a' ha ha' h), same_trans a a' b h⟩

theorem same_congr_right (a : Json) {b b' : Json} (hb : b.IsSettled) (hb' : b'.IsSettled)
    (h : b.same b' = true) : a.same b = a.same b' := by
  rw [Bool.eq_iff_iff]
  exact ⟨fun same => same_trans a b b' same h,
    fun same => same_trans a b' b same (same_symm b b' hb hb' h)⟩

end Json
end EntityFeed
