import EntityFeed.Json.Basic
import Mathlib.Data.List.Nodup
import Mathlib.Logic.Function.Basic

/-! Records that are read member by member into a draft. The order of the members does not matter, nor
do members that are no fields. -/
namespace EntityFeed

/-- That members are some fields in any order, with further members of other names. -/
def Members.Extends (members fields : Members) : Prop :=
  ∃ extra, members.Perm (fields ++ extra) ∧ ∀ m ∈ extra, m.1 ∉ fields.map (·.1)

@[refl] theorem Members.Extends.refl (fields : Members) : fields.Extends fields :=
  ⟨[], by simp, by simp⟩

section

variable {ε δ ρ : Type} [DecidableEq ρ] {step : δ → String × Json → Except ε δ}
  {part : String → Option ρ} {draft : (ρ → Bool) → δ} {members fields : Members}

/-- That a member is read as a part of a draft in which that part has not been seen. -/
def Sees (step : δ → String × Json → Except ε δ) (draft : (ρ → Bool) → δ) (m : String × Json)
    (p : ρ) : Prop :=
  ∀ seen, seen p = false → step (draft seen) m = .ok (draft fun q => seen q || q == p)

/-- Members of which no two are the same part leave a draft in which their parts have been seen. -/
theorem foldlM_draft (skips : ∀ d m, part m.1 = none → step d m = .ok d)
    (sees : ∀ m ∈ members, ∀ p, part m.1 = some p → Sees step draft m p)
    (nodup : (members.filterMap (part ·.1)).Nodup) (seen : ρ → Bool)
    (fresh : ∀ p ∈ members.filterMap (part ·.1), seen p = false) :
    members.foldlM step (draft seen) =
      .ok (draft fun p => seen p || decide (p ∈ members.filterMap (part ·.1))) := by
  induction members generalizing seen with
  | nil => simp [pure, Except.pure]
  | cons m rest ih =>
    obtain ⟨own, others⟩ := List.forall_mem_cons.mp sees
    rw [List.foldlM_cons]
    cases hp : part m.1 with
    | none =>
      have same : (m :: rest).filterMap (part ·.1) = rest.filterMap (part ·.1) := by simp [hp]
      rw [same] at nodup fresh
      rw [skips _ m hp, same]
      exact ih others nodup seen fresh
    | some p =>
      have more : (m :: rest).filterMap (part ·.1) = p :: rest.filterMap (part ·.1) := by simp [hp]
      rw [more] at nodup fresh
      obtain ⟨absent, nodup⟩ := List.nodup_cons.mp nodup
      rw [own p hp seen (fresh p List.mem_cons_self), more]
      refine (ih others nodup _ fun q hq => ?_).trans ?_
      · simp [fresh q (List.mem_cons_of_mem p hq), ne_of_mem_of_not_mem hq absent]
      · refine congrArg (fun seen => Except.ok (draft seen)) (funext fun q => ?_)
        simp [Bool.or_assoc]

/-- Members that extend some fields are read as those are. -/
theorem Members.Extends.foldlM (h : members.Extends fields) (step : δ → String × Json → Except ε δ)
    (part : String → Option ρ) (draft : (ρ → Bool) → δ)
    (skips : ∀ d m, part m.1 = none → step d m = .ok d)
    (known : ∀ name, name ∉ fields.map (·.1) → part name = none)
    (sees : ∀ m ∈ fields, ∀ p, part m.1 = some p → Sees step draft m p)
    (nodup : (fields.filterMap (part ·.1)).Nodup) :
    members.foldlM step (draft fun _ => false) =
      .ok (draft fun p => decide (p ∈ fields.filterMap (part ·.1))) := by
  obtain ⟨extra, perm, apart⟩ := h
  have passed : extra.filterMap (part ·.1) = [] :=
    List.filterMap_eq_nil_iff.mpr fun m hm => known m.1 (apart m hm)
  have parts : (members.filterMap (part ·.1)).Perm (fields.filterMap (part ·.1)) := by
    have all := perm.filterMap (part ·.1)
    rwa [List.filterMap_append, passed, List.append_nil] at all
  have all : ∀ m ∈ members, ∀ p, part m.1 = some p → Sees step draft m p := by
    intro m hm p hp
    rcases List.mem_append.mp (perm.mem_iff.mp hm) with field | extra
    · exact sees m field p hp
    · rw [known m.1 (apart m extra)] at hp
      cases hp
  rw [foldlM_draft skips all (parts.nodup_iff.mpr nodup) _ fun _ _ => rfl]
  refine congrArg (fun seen => Except.ok (draft seen)) (funext fun p => ?_)
  rw [Bool.false_or, decide_eq_decide]
  exact parts.mem_iff

end

end EntityFeed
