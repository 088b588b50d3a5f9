import EntityFeed.Proofs.Json.Legibility
import EntityFeed.Proofs.Normalization.Repeats
import Mathlib.Data.List.Pairwise

/-! Dropping repeats of texts against dropping what is the same JSON. A text tells its value, so only
what is the same is dropped; but equal objects may have their members in different orders, and zeros
different signs, and then both are kept. -/
namespace EntityFeed.Json

section Held

variable {v : Json}

theorem Held.unrepeated (h : v.Held) (alike : Json → Json → Bool) : (v.unrepeated alike).Held := by
  induction v using parts_induction with
  | arr items ih =>
    rw [held_arr] at h
    rw [unrepeated_arr, held_arr]
    intro w hw
    obtain ⟨v, hv, rfl⟩ := List.mem_map.mp ((firsts_sublist alike _).subset hw)
    exact ih v hv (h v hv)
  | obj members ih =>
    rw [held_obj] at h
    rw [unrepeated_obj, held_obj]
    refine ⟨by simpa [Function.comp_def] using h.1, fun n hn => ?_⟩
    obtain ⟨m, hm, rfl⟩ := List.mem_map.mp hn
    exact ih m hm (h.2 m hm)
  | _ => simpa [Json.unrepeated] using h

theorem Held.of_mem_added (h : (v.normalize {}).Held) {w : Json} (hw : w ∈ v.added) : w.Held := by
  have spliced := (List.mem_filter.mp hw).1
  cases normalized : v.normalize {} <;> rw [normalized] at h spliced
  case arr items => exact held_arr.mp h w spliced
  all_goals exact List.mem_singleton.mp spliced ▸ h

theorem Held.normalize (h : v.Held) : (v.normalize {}).Held := by
  induction v using parts_induction with
  | arr items ih =>
    rw [held_arr] at h
    rw [normalize_arr, held_arr]
    intro w hw
    obtain ⟨v, hv, hw⟩ := List.mem_flatMap.mp hw
    exact (ih v hv (h v hv)).of_mem_added hw
  | obj members ih =>
    rw [held_obj] at h
    rw [Json.normalize, normalizeMembers_eq_map, held_obj]
    refine ⟨by simpa [Function.comp_def] using h.1, fun n hn => ?_⟩
    obtain ⟨m, hm, rfl⟩ := List.mem_map.mp hn
    exact ih m hm (h.2 m hm)
  | _ => exact h

theorem sameText_iff {w : Json} (hv : v.Held) (hw : w.Held) : sameText v w = true ↔ v = w := by
  rw [sameText, beq_iff_eq, text_inj hv.finite hw.finite]

end Held

mutual

/-- That entries of an array that are the same JSON are one value, repeats within them dropped. -/
def Uniform : Json → Prop
  | .arr items => (∀ v ∈ items, ∀ w ∈ items,
      (v.unrepeated same).same (w.unrepeated same) = true → v.unrepeated same = w.unrepeated same) ∧
      AllUniform items
  | .obj members => MembersUniform members
  | _ => True

def AllUniform : List Json → Prop
  | [] => True
  | v :: rest => Uniform v ∧ AllUniform rest

def MembersUniform : Members → Prop
  | [] => True
  | (_, v) :: rest => Uniform v ∧ MembersUniform rest

end

theorem allUniform_iff {items : List Json} : AllUniform items ↔ ∀ v ∈ items, v.Uniform := by
  induction items with
  | nil => simp [AllUniform]
  | cons v rest ih => simp [AllUniform, ih]

theorem uniform_arr {items : List Json} : (arr items).Uniform ↔
    (∀ v ∈ items, ∀ w ∈ items, (v.unrepeated same).same (w.unrepeated same) = true →
      v.unrepeated same = w.unrepeated same) ∧ ∀ v ∈ items, v.Uniform := by
  rw [Uniform, allUniform_iff]

theorem uniform_obj {members : Members} :
    (obj members).Uniform ↔ ∀ m ∈ members, m.2.Uniform := by
  rw [Uniform]
  induction members with
  | nil => simp [MembersUniform]
  | cons m rest ih => simp [MembersUniform, ih]

section Dropping

variable {v : Json}

/-- What is written alike is the same, so repeats of texts may be dropped first. -/
theorem unrepeated_sameText_unrepeated (h : v.Held) :
    (v.unrepeated sameText).unrepeated same = v.unrepeated same := by
  induction v using parts_induction with
  | arr items ih =>
    rw [held_arr] at h
    have inner : ((items.map (·.unrepeated sameText)).map (·.unrepeated same)) =
        items.map (·.unrepeated same) := by
      rw [List.map_map]
      exact List.map_congr_left fun v hv => ih v hv (h v hv)
    have held : ∀ w ∈ items.map (·.unrepeated sameText), w.Held := by
      intro w hw
      obtain ⟨v, hv, rfl⟩ := List.mem_map.mp hw
      exact (h v hv).unrepeated sameText
    rw [unrepeated_arr, unrepeated_arr, unrepeated_arr, firsts_map_firsts same_trans, inner]
    intro x hx y hy alike
    rw [(sameText_iff (held x hx) (held y hy)).mp alike]
    exact same_refl ((held y hy).unrepeated same)
  | obj members ih =>
    rw [held_obj] at h
    rw [unrepeated_obj, unrepeated_obj, unrepeated_obj, List.map_map]
    exact congrArg Json.obj (List.map_congr_left fun m hm => Prod.ext rfl (ih m hm (h.2 m hm)))
  | _ => simp [unrepeated]

/-- Of what has no two entries that are the same JSON, entries that are the same are one. -/
theorem eq_of_same_of_pairwise {items : List Json} (held : ∀ v ∈ items, v.Held)
    (apart : items.Pairwise fun v w => v.same w = false) :
    ∀ v ∈ items, ∀ w ∈ items, v.same w = true → v = w := by
  have forth : items.Pairwise fun v w => v.same w = true → v = w :=
    apart.imp fun off alike => absurd alike (Bool.eq_false_iff.mp off)
  have back : items.Pairwise fun v w => w.same v = true → w = v :=
    apart.imp_of_mem fun {v w} hv hw off alike => absurd
      (same_symm w v (held w hw).settled (held v hv).settled alike) (Bool.eq_false_iff.mp off)
  exact fun v hv w hw => forth.forall_of_forall_of_flip (fun _ _ _ => rfl) back hv hw

theorem unrepeated_sameText_eq_iff (h : v.Held) :
    v.unrepeated sameText = v.unrepeated same ↔ v.Uniform := by
  induction v using parts_induction with
  | arr items ih =>
    rw [held_arr] at h
    rw [uniform_arr, unrepeated_arr, unrepeated_arr, arr.injEq]
    constructor
    · intro equal
      -- Something written as the entry is kept, and what is written alike is one.
      have kept : ∀ v ∈ items,
          v.unrepeated sameText ∈ firsts same (items.map (·.unrepeated same)) := by
        intro v hv
        obtain ⟨x, hx, stands⟩ := exists_mem_firsts sameText_trans
          (List.mem_map_of_mem (f := (·.unrepeated sameText)) hv)
        obtain ⟨w, hw, rfl⟩ := List.mem_map.mp ((firsts_sublist sameText _).subset hx)
        rw [sameText_iff ((h w hw).unrepeated _) ((h v hv).unrepeated _), or_self] at stands
        rw [← equal, ← stands]
        exact hx
      -- So an entry without repeats of texts has no other repeats either, as those kept have none.
      have agree : ∀ v ∈ items, v.unrepeated sameText = v.unrepeated same := by
        intro v hv
        obtain ⟨w, -, whole⟩ := List.mem_map.mp ((firsts_sublist same _).subset (kept v hv))
        rw [← unrepeated_sameText_unrepeated (h v hv), ← whole,
          unrepeated_eq_self (repeatless_unrepeated w)]
      refine ⟨fun v hv w hw alike => ?_, fun v hv => (ih v hv (h v hv)).mp (agree v hv)⟩
      refine eq_of_same_of_pairwise ?_ (pairwise_firsts same (items.map (·.unrepeated same)))
        _ (agree v hv ▸ kept v hv) _ (agree w hw ▸ kept w hw) alike
      intro x hx
      obtain ⟨v, hv, rfl⟩ := List.mem_map.mp ((firsts_sublist same _).subset hx)
      exact (h v hv).unrepeated same
    · rintro ⟨uniform, parts⟩
      rw [List.map_congr_left fun v hv => (ih v hv (h v hv)).mpr (parts v hv)]
      refine firsts_congr fun x hx y hy => ?_
      obtain ⟨v, hv, rfl⟩ := List.mem_map.mp hx
      obtain ⟨w, hw, rfl⟩ := List.mem_map.mp hy
      have hv' := (h v hv).unrepeated same
      rw [Bool.eq_iff_iff, sameText_iff hv' ((h w hw).unrepeated same)]
      exact ⟨fun equal => equal ▸ same_refl hv', uniform v hv w hw⟩
  | obj members ih =>
    rw [held_obj] at h
    rw [uniform_obj, unrepeated_obj, unrepeated_obj, obj.injEq, List.map_inj_left]
    refine forall₂_congr fun m hm => ?_
    rw [Prod.mk.injEq, ← ih m hm (h.2 m hm)]
    exact and_iff_right rfl
  | _ => simp [unrepeated, Uniform]

/-- A value that drops what is written alike has no repeats left exactly if the rest is uniform. -/
theorem repeatless_unrepeated_sameText_iff (h : v.Held) :
    (v.unrepeated sameText).Repeatless same ↔ v.Uniform := by
  rw [← unrepeated_sameText_eq_iff h]
  constructor
  · intro repeatless
    rw [← unrepeated_sameText_unrepeated h, unrepeated_eq_self repeatless]
  · intro equal
    rw [equal]
    exact repeatless_unrepeated v

/-- Where entries are the same JSON without being one value, some of them are kept. -/
theorem kept_of_mixed (h : v.Held) (mixed : ¬(v.normalize {}).Uniform) :
    v.normalize ⟨true⟩ ≠ (v.normalize {}).unrepeated same ∧
      ¬(v.normalize ⟨true⟩).Repeatless same := by
  rw [normalize_dropping, Ne, unrepeated_sameText_eq_iff h.normalize,
    repeatless_unrepeated_sameText_iff h.normalize]
  exact ⟨mixed, mixed⟩

end Dropping

/-- Dropping repeats while arrays are flattened drops nothing but what is the same JSON as an earlier
entry. All of it is dropped, and no two entries that are the same are left, exactly if entries that are
the same are one value: objects with their members in one order, zeros with one sign. -/
theorem normalize_dropping_iff {v : Json} (h : v.Held) :
    (v.normalize ⟨true⟩).unrepeated same = (v.normalize {}).unrepeated same ∧
      (v.normalize ⟨true⟩ = (v.normalize {}).unrepeated same ↔ (v.normalize {}).Uniform) ∧
      ((v.normalize ⟨true⟩).Repeatless same ↔ (v.normalize {}).Uniform) := by
  rw [normalize_dropping]
  exact ⟨unrepeated_sameText_unrepeated h.normalize, unrepeated_sameText_eq_iff h.normalize,
    repeatless_unrepeated_sameText_iff h.normalize⟩

/-- An object twice, once of them in an array of its own, and a string twice. -/
def repeats : Json :=
  .arr [.obj [("a", .int 1)], .arr [.obj [("a", .int 1)], .str "b"], .str "b"]

theorem repeats_dropped : repeats.Held ∧
    repeats.normalize ⟨true⟩ = (repeats.normalize {}).unrepeated same := by
  have held : repeats.Held :=
    ⟨by simp [repeats, IsSettled, AllSettled, MembersSettled],
      by simp [repeats, IsFinite, AllFinite, MembersFinite]⟩
  have flat : repeats.normalize {} =
      .arr [.obj [("a", .int 1)], .obj [("a", .int 1)], .str "b", .str "b"] := rfl
  have uniform : (repeats.normalize {}).Uniform := by
    simp [flat, Uniform, AllUniform, MembersUniform, unrepeated, unrepeatedMembers, same]
  exact ⟨held, (normalize_dropping_iff held).2.1.mpr uniform⟩

/-- The two zeros of a float. -/
def zeros : Json := .arr [.float ⟨0⟩, .float ⟨0x8000000000000000⟩]

/-- Both are kept, although they are the same number. -/
theorem zeros_kept : zeros.normalize ⟨true⟩ ≠ (zeros.normalize {}).unrepeated same ∧
    ¬(zeros.normalize ⟨true⟩).Repeatless same := by
  have finite : Binary64.isFinite ⟨0⟩ ∧ Binary64.isFinite ⟨0x8000000000000000⟩ := by decide
  have held : zeros.Held :=
    ⟨by simp [zeros, IsSettled, AllSettled], by simpa [zeros, IsFinite, AllFinite] using finite⟩
  have flat : zeros.normalize {} = zeros := rfl
  have alike : Binary64.same ⟨0⟩ ⟨0x8000000000000000⟩ = true := by decide
  have mixed : ¬zeros.Uniform := by
    simp [zeros, Uniform, unrepeated, same, alike]
  exact kept_of_mixed held (flat ▸ mixed)

/-- One object with its members in two orders. -/
def orders : Json :=
  .arr [.obj [("a", .int 1), ("b", .int 2)], .obj [("b", .int 2), ("a", .int 1)]]

/-- Both are kept, although they are the same JSON. -/
theorem orders_kept : orders.normalize ⟨true⟩ ≠ (orders.normalize {}).unrepeated same ∧
    ¬(orders.normalize ⟨true⟩).Repeatless same := by
  have held : orders.Held :=
    ⟨by simp [orders, IsSettled, AllSettled, MembersSettled],
      by simp [orders, IsFinite, AllFinite, MembersFinite]⟩
  have flat : orders.normalize {} = orders := rfl
  have mixed : ¬orders.Uniform := by
    simp [orders, Uniform, unrepeated, unrepeatedMembers, same, sameMembers, List.lookup_cons]
  exact kept_of_mixed held (flat ▸ mixed)

end EntityFeed.Json
