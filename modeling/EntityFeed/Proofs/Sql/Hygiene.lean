import EntityFeed.Proofs.Sql.Scoping

/-! Aliases where they are brought in and where they are used. A query brings in one for its source and
one for each join, those of nested queries included, and may use its own only: in a join those that
are there so far. -/
namespace EntityFeed.Sql

namespace Expr

mutual

/-- The columns that an expression is made of. -/
def refs : Expr → List ColumnRef
  | .column r => [r]
  | .record fields => fieldRefs fields
  | .arrayOrEmpty r => [r]

def fieldRefs : List (String × Expr) → List ColumnRef
  | [] => []
  | (_, e) :: rest => e.refs ++ fieldRefs rest

end

end Expr

def Selection.refs : Selection → List ColumnRef
  | value e => e.refs
  | gathered e => e.refs

mutual

/-- All aliases that a query brings in, in it and in the queries nested in it. -/
def Select.aliases : Select → List String
  | ⟨_, source, joins, _, _⟩ => source.qualifier :: Joined.aliasesOf joins

def Joined.aliasesOf : List Joined → List String
  | [] => []
  | .table _ t _ _ :: rest => t.qualifier :: Joined.aliasesOf rest
  | .nested _ q qualifier _ _ :: rest => q.aliases ++ qualifier :: Joined.aliasesOf rest

end

mutual

/-- Whether a query and those nested in it use the aliases of their own sources and joins only. -/
def Select.closed : Select → Bool
  | ⟨outputs, source, joins, condition, grouping⟩ =>
    let own := source.qualifier :: joins.map Joined.qualifier
    Joined.closedAll [source.qualifier] joins &&
      outputs.all (fun o => o.selection.refs.all fun r => own.contains r.qualifier) &&
      condition.all (fun m => own.contains m.column.qualifier) &&
      grouping.all (fun r => own.contains r.qualifier)

/-- Whether joins use the aliases that are there before them and their own. -/
def Joined.closedAll (known : List String) : List Joined → Bool
  | [] => true
  | .table _ t left right :: rest =>
    (known ++ [t.qualifier]).contains left.qualifier &&
      (known ++ [t.qualifier]).contains right.qualifier &&
      Joined.closedAll (known ++ [t.qualifier]) rest
  | .nested _ q qualifier left right :: rest =>
    q.closed && (known ++ [qualifier]).contains left.qualifier &&
      (known ++ [qualifier]).contains right.qualifier &&
      Joined.closedAll (known ++ [qualifier]) rest

end

namespace Joined

@[simp] theorem aliasesOf_append (js ks : List Joined) :
    aliasesOf (js ++ ks) = aliasesOf js ++ aliasesOf ks := by
  induction js with
  | nil => simp [aliasesOf]
  | cons j js ih => cases j <;> simp [aliasesOf, ih]

theorem closedAll_cons (known : List String) (j : Joined) (rest : List Joined) :
    closedAll known (j :: rest) =
      (closedAll known [j] && closedAll (known ++ [j.qualifier]) rest) := by
  cases j <;> simp [closedAll, qualifier]

theorem closedAll_append (known : List String) (js ks : List Joined) :
    closedAll known (js ++ ks) =
      (closedAll known js && closedAll (known ++ js.map qualifier) ks) := by
  induction js generalizing known with
  | nil => simp [closedAll]
  | cons j js ih =>
    rw [List.cons_append, closedAll_cons, ih, closedAll_cons known j js, Bool.and_assoc]
    simp

/-- More aliases do no harm. -/
theorem closedAll_mono {known more : List String} {js : List Joined} (h : known ⊆ more)
    (hj : closedAll known js = true) : closedAll more js = true := by
  induction js generalizing known more with
  | nil => rfl
  | cons j js ih =>
    have further : known ++ [j.qualifier] ⊆ more ++ [j.qualifier] :=
      List.append_subset.mpr
        ⟨List.subset_append_of_subset_left _ h, List.subset_append_right _ _⟩
    rw [closedAll_cons, Bool.and_eq_true] at hj ⊢
    refine ⟨?_, ih further hj.2⟩
    cases j with
    | table kind t left right =>
      simp only [closedAll, Bool.and_true, Bool.and_eq_true, List.contains_iff_mem] at hj ⊢
      exact ⟨further hj.1.1, further hj.1.2⟩
    | nested kind q outer left right =>
      simp only [closedAll, Bool.and_true, Bool.and_eq_true, List.contains_iff_mem] at hj ⊢
      exact ⟨⟨hj.1.1.1, further hj.1.1.2⟩, further hj.1.2⟩

end Joined

section Scoped

variable {h : Header}

theorem ColumnRef.mem_of_resolves {r : ColumnRef} (hr : r.resolves h = true) :
    r.qualifier ∈ h.map (·.1) := by
  by_contra hn
  have absent : h.lookup r.qualifier = none := by
    rw [List.lookup_eq_none_iff]
    intro entry he
    have hne : r.qualifier ≠ entry.1 := fun same => hn (same ▸ List.mem_map_of_mem he)
    simpa using hne
  simp [resolves, absent] at hr

namespace Expr

mutual

theorem mem_of_resolves {e : Expr} (he : e.resolves h = true) :
    ∀ r ∈ e.refs, r.qualifier ∈ h.map (·.1) := by
  match e with
  | .column r | .arrayOrEmpty r =>
    intro r' hr
    rw [List.mem_singleton.mp hr]
    exact ColumnRef.mem_of_resolves he
  | .record fields => exact mem_of_fieldsResolve he

theorem mem_of_fieldsResolve {fields : List (String × Expr)} (hf : fieldsResolve h fields = true) :
    ∀ r ∈ fieldRefs fields, r.qualifier ∈ h.map (·.1) := by
  match fields with
  | [] => simp [fieldRefs]
  | (name, e) :: rest =>
    rw [fieldsResolve, Bool.and_eq_true] at hf
    intro r hr
    rcases List.mem_append.mp hr with hr | hr
    · exact mem_of_resolves hf.1 r hr
    · exact mem_of_fieldsResolve hf.2 r hr

end

end Expr

theorem Selection.mem_of_resolves {g : Option ColumnRef} {x : Selection}
    (hx : x.resolves h g = true) : ∀ r ∈ x.refs, r.qualifier ∈ h.map (·.1) := by
  have inside : ∃ e : Expr, x.refs = e.refs ∧ e.resolves h = true := by
    cases x with
    | gathered e => exact ⟨e, rfl, (Bool.and_eq_true_iff.mp hx).1⟩
    | value e => cases e <;> exact ⟨_, rfl, (Bool.and_eq_true_iff.mp hx).1⟩
  obtain ⟨e, refs, he⟩ := inside
  rw [refs]
  exact Expr.mem_of_resolves he

theorem Joined.mem_of_fits {j : Joined} (hj : j.fits h = true) :
    j.left.qualifier ∈ h.map (·.1) ++ [j.qualifier] ∧
      j.right.qualifier ∈ h.map (·.1) ++ [j.qualifier] := by
  have aliases : (h ++ [j.entry]).map (·.1) = h.map (·.1) ++ [j.qualifier] := by
    rw [List.map_append, List.map_singleton, j.entry_fst]
  rw [fits, Bool.and_eq_true, Bool.and_eq_true] at hj
  rw [← aliases]
  exact ⟨ColumnRef.mem_of_resolves hj.1.2, ColumnRef.mem_of_resolves hj.2⟩

mutual

/-- A query that is accepted uses its own aliases. -/
theorem Select.closed_of_scoped {q : Select} (hq : q.scoped = true) : q.closed = true := by
  match q with
  | ⟨outputs, source, joins, condition, grouping⟩ =>
    have own : ((source.qualifier, none) :: joins.map Joined.entry : Header).map (·.1) =
        source.qualifier :: joins.map Joined.qualifier := by
      simp [Joined.entry_fst, Function.comp_def]
    simp only [Select.scoped, Bool.and_eq_true, List.all_eq_true, Option.all_eq_true] at hq
    obtain ⟨⟨⟨hj, ho⟩, hc⟩, hg⟩ := hq
    simp only [Select.closed, Bool.and_eq_true, List.all_eq_true, Option.all_eq_true,
      List.contains_iff_mem]
    rw [← own]
    exact ⟨⟨⟨Joined.closedAll_of_scopedAll hj, fun o h => Selection.mem_of_resolves (ho o h)⟩,
      fun m h => ColumnRef.mem_of_resolves (hc m h)⟩, fun r h => ColumnRef.mem_of_resolves (hg r h)⟩

theorem Joined.closedAll_of_scopedAll {h : Header} {js : List Joined}
    (hj : Joined.scopedAll h js = true) : Joined.closedAll (h.map (·.1)) js = true := by
  match js with
  | [] => rfl
  | .table kind t left right :: rest =>
    rw [Joined.scopedAll, Bool.and_eq_true] at hj
    have own := Joined.mem_of_fits hj.1
    have later := Joined.closedAll_of_scopedAll hj.2
    rw [List.map_append] at later
    simp only [Joined.closedAll, Bool.and_eq_true, List.contains_iff_mem]
    exact ⟨own, later⟩
  | .nested kind q outer left right :: rest =>
    rw [Joined.scopedAll, Bool.and_eq_true, Bool.and_eq_true] at hj
    have own := Joined.mem_of_fits hj.1.2
    have later := Joined.closedAll_of_scopedAll hj.2
    rw [List.map_append] at later
    simp only [Joined.closedAll, Bool.and_eq_true, List.contains_iff_mem]
    exact ⟨⟨⟨Select.closed_of_scoped hj.1.1, own.1⟩, own.2⟩, later⟩

end

end Scoped
end EntityFeed.Sql
