import EntityFeed.Proofs.Normalization.Clean
import EntityFeed.Proofs.Json.Values

/-! Dropping repeats. A list without repeats has each of its entries that is not alike to an earlier
one; a value without repeats has been freed of them array by array, the innermost arrays first. The
normalizer drops repeats of texts while it flattens, which comes to the same as dropping them from the
flattened value. -/
namespace EntityFeed

section Firsts

variable {α β : Type} (alike : α → α → Bool)

/-- The entries of a list, without those that are alike to an earlier one. -/
def firsts : List α → List α
  | [] => []
  | x :: rest => x :: (firsts rest).filter (!alike x ·)

theorem firsts_sublist (l : List α) : (firsts alike l).Sublist l := by
  induction l with
  | nil => exact .slnil
  | cons x rest ih => exact (List.filter_sublist.trans ih).cons_cons x

theorem pairwise_firsts (l : List α) : (firsts alike l).Pairwise fun x y => alike x y = false := by
  induction l with
  | nil => exact .nil
  | cons x rest ih =>
    refine List.pairwise_cons.mpr ⟨fun y hy => ?_, ih.filter _⟩
    simpa using (List.mem_filter.mp hy).2

variable {alike}

theorem firsts_eq_self {l : List α} (h : l.Pairwise fun x y => alike x y = false) :
    firsts alike l = l := by
  induction l with
  | nil => rfl
  | cons x rest ih =>
    obtain ⟨apart, others⟩ := List.pairwise_cons.mp h
    rw [firsts, ih others, List.filter_eq_self.mpr]
    exact fun y hy => by rw [apart y hy, Bool.not_false]

theorem firsts_congr {other : α → α → Bool} {l : List α}
    (h : ∀ x ∈ l, ∀ y ∈ l, alike x y = other x y) : firsts alike l = firsts other l := by
  induction l with
  | nil => rfl
  | cons x rest ih =>
    have behind := ih fun y hy z hz => h y (.tail _ hy) z (.tail _ hz)
    rw [firsts, firsts, behind]
    congr 1
    refine List.filter_congr fun y hy => ?_
    rw [h x (.head _) y (.tail _ ((firsts_sublist other rest).subset hy))]

theorem firsts_append (l l' : List α) : firsts alike (l ++ l') =
    firsts alike l ++ (firsts alike l').filter fun y => !l.any (alike · y) := by
  induction l with
  | nil => simp [firsts]
  | cons x rest ih =>
    rw [List.cons_append, firsts, ih, firsts, List.filter_append, List.filter_filter, List.cons_append]
    simp only [List.any_cons, Bool.not_or]

/-- What an entry must meet so that entries alike to it meet it too can be asked before or after. -/
theorem filter_firsts {p : α → Bool} (h : ∀ x y, alike x y = true → p y = true → p x = true)
    (l : List α) : (firsts alike l).filter p = firsts alike (l.filter p) := by
  induction l with
  | nil => rfl
  | cons x rest ih =>
    rw [firsts, List.filter_cons, List.filter_cons, List.filter_comm]
    split
    · rw [firsts, ih]
    · rename_i other
      rw [← ih, List.filter_eq_self]
      intro y hy
      rw [Bool.not_eq_true']
      exact Bool.eq_false_iff.mpr fun same => other (h x y same (List.mem_filter.mp hy).2)

section Transitive

variable (trans : ∀ x y z, alike x y = true → alike y z = true → alike x z = true)

include trans

/-- An entry is kept, or one that it is alike to. -/
theorem exists_mem_firsts {l : List α} {y : α} (hy : y ∈ l) :
    ∃ x ∈ firsts alike l, x = y ∨ alike x y = true := by
  induction l with
  | nil => contradiction
  | cons x rest ih =>
    rcases List.mem_cons.mp hy with rfl | behind
    · exact ⟨y, .head _, .inl rfl⟩
    · obtain ⟨z, hz, stands⟩ := ih behind
      by_cases dropped : alike x z = true
      · refine ⟨x, .head _, .inr ?_⟩
        rcases stands with rfl | stands
        · exact dropped
        · exact trans x z y dropped stands
      · exact ⟨z, .tail _ (List.mem_filter.mpr ⟨hz, by simpa using dropped⟩), stands⟩

theorem any_firsts (l : List α) (y : α) : (firsts alike l).any (alike · y) = l.any (alike · y) := by
  rw [Bool.eq_iff_iff, List.any_eq_true, List.any_eq_true]
  constructor
  · rintro ⟨x, hx, h⟩
    exact ⟨x, (firsts_sublist alike l).subset hx, h⟩
  · rintro ⟨x, hx, h⟩
    obtain ⟨z, hz, rfl | stands⟩ := exists_mem_firsts trans hx
    · exact ⟨z, hz, h⟩
    · exact ⟨z, hz, trans z x y stands h⟩

/-- Repeats may be dropped from the parts of a list first. -/
theorem firsts_flatMap {γ : Type} (g : γ → List α) (parts : List γ) :
    firsts alike (parts.flatMap fun part => firsts alike (g part)) =
      firsts alike (parts.flatMap g) := by
  induction parts with
  | nil => rfl
  | cons part rest ih =>
    rw [List.flatMap_cons, List.flatMap_cons, firsts_append, firsts_append, ih,
      firsts_eq_self (pairwise_firsts alike (g part))]
    simp only [any_firsts trans]

end Transitive

/-- Repeats of a closer kind may be dropped before each entry is replaced and repeats are dropped. -/
theorem firsts_map_firsts {other : β → β → Bool} {f : α → β} {l : List α}
    (trans : ∀ x y z, other x y = true → other y z = true → other x z = true)
    (closer : ∀ x ∈ l, ∀ y ∈ l, alike x y = true → other (f x) (f y) = true) :
    firsts other ((firsts alike l).map f) = firsts other (l.map f) := by
  induction l with
  | nil => rfl
  | cons x rest ih =>
    have behind := ih fun y hy z hz => closer y (.tail _ hy) z (.tail _ hz)
    have carries (y z : β) (same : other y z = true) (apart : (!other (f x) z) = true) :
        (!other (f x) y) = true := by
      rw [Bool.not_eq_true'] at apart ⊢
      exact Bool.eq_false_iff.mpr fun first =>
        Bool.eq_false_iff.mp apart (trans (f x) y z first same)
    -- What is dropped by the closer kind would be dropped in the end.
    have closest : ((firsts alike rest).filter (!alike x ·)).filter (fun y => !other (f x) (f y)) =
        (firsts alike rest).filter fun y => !other (f x) (f y) := by
      rw [List.filter_filter]
      refine List.filter_congr fun y hy => ?_
      have within := (firsts_sublist alike rest).subset hy
      cases same : alike x y with
      | false => simp
      | true => simp [closer x (.head _) y (.tail _ within) same]
    rw [firsts, List.map_cons, List.map_cons, firsts, firsts, ← behind, filter_firsts carries,
      filter_firsts carries, List.filter_map, List.filter_map]
    simp only [Function.comp_def, closest]

end Firsts

namespace Json

section Unrepeated

variable (alike : Json → Json → Bool)

mutual

/-- The value without the entries of arrays that are alike to an earlier entry of theirs, once repeats
have been dropped within both. -/
def unrepeated : Json → Json
  | .arr items => .arr (firsts alike (unrepeatedItems items))
  | .obj members => .obj (unrepeatedMembers members)
  | v => v

def unrepeatedItems : List Json → List Json
  | [] => []
  | v :: rest => unrepeated v :: unrepeatedItems rest

def unrepeatedMembers : Members → Members
  | [] => []
  | (key, v) :: rest => (key, unrepeated v) :: unrepeatedMembers rest

end

mutual

/-- That no array in a value has two entries that are alike. -/
def Repeatless : Json → Prop
  | .arr items => items.Pairwise (fun v w => alike v w = false) ∧ AllRepeatless items
  | .obj members => MembersRepeatless members
  | _ => True

def AllRepeatless : List Json → Prop
  | [] => True
  | v :: rest => Repeatless v ∧ AllRepeatless rest

def MembersRepeatless : Members → Prop
  | [] => True
  | (_, v) :: rest => Repeatless v ∧ MembersRepeatless rest

end

variable {alike}

theorem unrepeated_arr (items : List Json) : (arr items).unrepeated alike =
    .arr (firsts alike (items.map (·.unrepeated alike))) := by
  rw [unrepeated]
  congr 2
  induction items with
  | nil => rfl
  | cons v rest ih => rw [unrepeatedItems, ih, List.map_cons]

theorem unrepeated_obj (members : Members) : (obj members).unrepeated alike =
    .obj (members.map fun m => (m.1, m.2.unrepeated alike)) := by
  rw [unrepeated]
  congr 1
  induction members with
  | nil => rfl
  | cons m rest ih => rw [unrepeatedMembers, ih, List.map_cons]

theorem unrepeated_of_scalar {v : Json} (h : v.isScalar = true) : v.unrepeated alike = v := by
  cases v <;> first | contradiction | simp [unrepeated]

theorem repeatless_arr {items : List Json} : (arr items).Repeatless alike ↔
    items.Pairwise (fun v w => alike v w = false) ∧ ∀ v ∈ items, v.Repeatless alike := by
  rw [Repeatless]
  refine and_congr_right fun _ => ?_
  induction items with
  | nil => simp [AllRepeatless]
  | cons v rest ih => simp_all [AllRepeatless]

theorem repeatless_obj {members : Members} :
    (obj members).Repeatless alike ↔ ∀ m ∈ members, m.2.Repeatless alike := by
  rw [Repeatless]
  induction members with
  | nil => simp [MembersRepeatless]
  | cons m rest ih => simp [MembersRepeatless, ih]

theorem repeatless_unrepeated (v : Json) : (v.unrepeated alike).Repeatless alike := by
  induction v using parts_induction with
  | arr items ih =>
    rw [unrepeated_arr, repeatless_arr]
    refine ⟨pairwise_firsts alike _, fun w hw => ?_⟩
    obtain ⟨v, hv, rfl⟩ := List.mem_map.mp ((firsts_sublist alike _).subset hw)
    exact ih v hv
  | obj members ih =>
    rw [unrepeated_obj, repeatless_obj]
    intro n hn
    obtain ⟨m, hm, rfl⟩ := List.mem_map.mp hn
    exact ih m hm
  | _ => simp [unrepeated, Repeatless]

theorem unrepeated_eq_self {v : Json} (h : v.Repeatless alike) : v.unrepeated alike = v := by
  induction v using parts_induction with
  | arr items ih =>
    rw [repeatless_arr] at h
    have same : items.map (·.unrepeated alike) = items :=
      (List.map_congr_left fun v hv => ih v hv (h.2 v hv)).trans (List.map_id items)
    rw [unrepeated_arr, same, firsts_eq_self h.1]
  | obj members ih =>
    rw [repeatless_obj] at h
    have same : members.map (fun m => (m.1, m.2.unrepeated alike)) = members := by
      conv_rhs => rw [← List.map_id members]
      exact List.map_congr_left fun m hm => Prod.ext rfl (ih m hm (h m hm))
    rw [unrepeated_obj, same]
  | _ => simp [unrepeated]

end Unrepeated

/-- Whether two values are written alike. -/
def sameText (v w : Json) : Bool := v.text == w.text

theorem sameText_trans (u v w : Json) (h : sameText u v = true) (h' : sameText v w = true) :
    sameText u w = true := by
  rw [sameText, beq_iff_eq] at *
  exact h.trans h'

theorem distinctBy_eq_firsts (seen : List String) (items : List Json) :
    distinctBy seen items = (firsts sameText items).filter fun v => decide (v.text ∉ seen) := by
  induction items generalizing seen with
  | nil => rfl
  | cons v rest ih =>
    rw [distinctBy, firsts, List.filter_cons, List.filter_filter]
    by_cases known : v.text ∈ seen
    · simp only [known, if_true, not_true, decide_false, Bool.false_eq_true, if_false, ih]
      refine List.filter_congr fun w _ => ?_
      by_cases same : v.text = w.text
      · simp [sameText, same, same ▸ known]
      · simp [sameText, same]
    · simp only [known, if_false, not_false_eq_true, decide_true, if_true, ih]
      congr 1
      refine List.filter_congr fun w _ => ?_
      by_cases same : v.text = w.text
      · simp [sameText, same]
      · simp [sameText, same, Ne.symm same]

section Normalization

theorem normalizeMembers_eq_map (options : NormalizeOptions) (members : Members) :
    normalizeMembers options members = members.map fun m => (m.1, m.2.normalize options) := by
  induction members with
  | nil => rfl
  | cons m rest ih => rw [normalizeMembers, ih, List.map_cons]

theorem isNull_unrepeated (alike : Json → Json → Bool) (v : Json) :
    (v.unrepeated alike).isNull = v.isNull := by
  cases v <;> simp [unrepeated, isNull]

/-- What a value adds to the array it is in, if repeats have been dropped from it. -/
theorem spliced_unrepeated {alike : Json → Json → Bool} {v : Json} (h : v.clean = true) :
    (v.unrepeated alike).spliced.filter (!·.isNull) =
      firsts alike ((v.spliced.filter (!·.isNull)).map (·.unrepeated alike)) := by
  cases v with
  | arr items =>
    rw [clean, cleanItems_iff] at h
    have kept : items.filter (!·.isNull) = items :=
      List.filter_eq_self.mpr fun v hv => by rw [(h v hv).1, Bool.not_false]
    rw [unrepeated_arr, spliced, spliced, kept, List.filter_eq_self]
    intro w hw
    obtain ⟨v, hv, rfl⟩ := List.mem_map.mp ((firsts_sublist alike _).subset hw)
    rw [isNull_unrepeated, (h v hv).1, Bool.not_false]
  | null => rfl
  | _ => simp [unrepeated, spliced, isNull, firsts]

/-- Dropping repeats of texts while arrays are flattened comes to the same as dropping them from the
flattened value. -/
theorem normalize_dropping (v : Json) : v.normalize ⟨true⟩ = (v.normalize {}).unrepeated sameText := by
  induction v using parts_induction with
  | arr items ih =>
    have parts : ∀ v ∈ items, ((v.normalize ⟨true⟩).spliced.filter (!·.isNull)) =
        firsts sameText (v.added.map (·.unrepeated sameText)) := fun v hv => by
      rw [ih v hv, spliced_unrepeated (clean_normalize {} v), added]
    rw [normalize_arr, unrepeated_arr, List.map_flatMap, ← firsts_flatMap sameText_trans,
      ← List.flatMap_congr parts, normalize, cleaned, if_pos rfl, distinctBy_eq_firsts,
      normalizeItems_eq_map, List.flatMap_map, List.filter_flatMap]
    simp
  | obj members ih =>
    rw [normalize, normalize, unrepeated_obj, normalizeMembers_eq_map, normalizeMembers_eq_map,
      List.map_map]
    exact congrArg Json.obj (List.map_congr_left fun m hm => Prod.ext rfl (ih m hm))
  | _ => simp [normalize, unrepeated]

end Normalization

end Json
end EntityFeed
