import EntityFeed.Proofs.Json.Sameness

/-! Values as they are held: each key of an object once, and no number that is infinite or none at
all. Among them, being the same JSON is an equivalence. -/
namespace EntityFeed.Json

/-- What holds of a value whenever it holds of its items or of the values of its members holds of all
values. -/
@[elab_as_elim]
theorem parts_induction {motive : Json → Prop} (null : motive .null) (bool : ∀ b, motive (.bool b))
    (int : ∀ n, motive (.int n)) (float : ∀ x, motive (.float x)) (str : ∀ s, motive (.str s))
    (arr : ∀ items, (∀ v ∈ items, motive v) → motive (.arr items))
    (obj : ∀ members, (∀ m ∈ members, motive m.2) → motive (.obj members)) : ∀ v, motive v
  | .null => null
  | .bool b => bool b
  | .int n => int n
  | .float x => float x
  | .str s => str s
  | .arr items => arr items fun v _ => parts_induction null bool int float str arr obj v
  | .obj members => obj members fun m _ => parts_induction null bool int float str arr obj m.2
termination_by v => sizeOf v
decreasing_by
  · rename_i within
    have smaller := List.sizeOf_lt_of_mem within
    simp only [Json.arr.sizeOf_spec]
    omega
  · rename_i within
    have smaller := List.sizeOf_lt_of_mem within
    obtain ⟨key, v⟩ := m
    simp only [Json.obj.sizeOf_spec, Prod.mk.sizeOf_spec] at smaller ⊢
    omega

mutual

/-- That every number in a value is finite. -/
def IsFinite : Json → Prop
  | .float x => x.isFinite = true
  | .arr items => AllFinite items
  | .obj members => MembersFinite members
  | _ => True

def AllFinite : List Json → Prop
  | [] => True
  | v :: rest => IsFinite v ∧ AllFinite rest

def MembersFinite : Members → Prop
  | [] => True
  | (_, v) :: rest => IsFinite v ∧ MembersFinite rest

end

theorem allSettled_iff {items : List Json} : AllSettled items ↔ ∀ v ∈ items, v.IsSettled := by
  induction items with
  | nil => simp [AllSettled]
  | cons v rest ih => simp [AllSettled, ih]

theorem membersSettled_iff {members : Members} :
    MembersSettled members ↔ ∀ m ∈ members, m.2.IsSettled := by
  induction members with
  | nil => simp [MembersSettled]
  | cons m rest ih => simp [MembersSettled, ih]

theorem allFinite_iff {items : List Json} : AllFinite items ↔ ∀ v ∈ items, v.IsFinite := by
  induction items with
  | nil => simp [AllFinite]
  | cons v rest ih => simp [AllFinite, ih]

theorem membersFinite_iff {members : Members} :
    MembersFinite members ↔ ∀ m ∈ members, m.2.IsFinite := by
  induction members with
  | nil => simp [MembersFinite]
  | cons m rest ih => simp [MembersFinite, ih]

/-- That a value can be held: objects have each key once, and numbers are finite. -/
structure Held (v : Json) : Prop where
  settled : v.IsSettled
  finite : v.IsFinite

theorem held_arr {items : List Json} : (arr items).Held ↔ ∀ v ∈ items, v.Held := by
  constructor
  · rintro ⟨settled, finite⟩ v hv
    exact ⟨allSettled_iff.mp settled v hv, allFinite_iff.mp finite v hv⟩
  · intro h
    exact ⟨allSettled_iff.mpr fun v hv => (h v hv).settled,
      allFinite_iff.mpr fun v hv => (h v hv).finite⟩

theorem held_obj {members : Members} :
    (obj members).Held ↔ (members.map (·.1)).Nodup ∧ ∀ m ∈ members, m.2.Held := by
  constructor
  · rintro ⟨⟨keys, settled⟩, finite⟩
    exact ⟨keys, fun m hm => ⟨membersSettled_iff.mp settled m hm, membersFinite_iff.mp finite m hm⟩⟩
  · rintro ⟨keys, h⟩
    exact ⟨⟨keys, membersSettled_iff.mpr fun m hm => (h m hm).settled⟩,
      membersFinite_iff.mpr fun m hm => (h m hm).finite⟩

theorem sameItems_refl {items : List Json} (h : ∀ v ∈ items, v.same v = true) :
    sameItems items items = true := by
  induction items with
  | nil => rfl
  | cons v rest ih =>
    obtain ⟨first, others⟩ := List.forall_mem_cons.mp h
    rw [sameItems, first, ih others, Bool.and_self]

theorem same_refl {v : Json} (h : v.Held) : v.same v = true := by
  induction v using parts_induction with
  | float x =>
    have finite : x.isFinite = true := h.finite
    rw [same, Binary64.same_iff]
    simp [Binary64.isNaN, finite]
  | arr items ih =>
    rw [held_arr] at h
    rw [same]
    exact sameItems_refl fun v hv => ih v hv (h v hv)
  | obj members ih =>
    rw [held_obj] at h
    rw [same, beq_self_eq_true, Bool.true_and, sameMembers_iff]
    exact fun m hm => ⟨m.2, lookup_of_mem h.1 hm, ih m hm (h.2 m hm)⟩
  | _ => simp [same]

end EntityFeed.Json
