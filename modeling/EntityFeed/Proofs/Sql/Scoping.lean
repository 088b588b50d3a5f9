import EntityFeed.Proofs.Sql.Meaning

/-! Columns in scope. What is joined later goes behind what is there, so that a column that has been
found stays what it is, and a new alias is found wherever it has not been used before. -/
namespace EntityFeed.Sql

theorem lookup_append_of_eq_some {β : Type} {l : List (String × β)} {q : String} {v : β}
    (h : l.lookup q = some v) (later : List (String × β)) : (l ++ later).lookup q = some v := by
  rw [List.lookup_append, h]
  rfl

theorem lookup_append_of_notMem {β : Type} {l : List (String × β)} {q : String}
    (h : q ∉ l.map (·.1)) (v : β) (later : List (String × β)) :
    (l ++ (q, v) :: later).lookup q = some v := by
  have hn : l.lookup q = none := by
    rw [List.lookup_eq_none_iff]
    intro p hp
    have hne : q ≠ p.1 := fun he => h (he ▸ List.mem_map_of_mem hp)
    simpa using hne
  rw [List.lookup_append, hn, List.lookup_cons_self]
  rfl

section Header

variable {h : Header}

theorem ColumnRef.resolves_of_table {r : ColumnRef} (hr : h.lookup r.qualifier = some none)
    (later : Header) : r.resolves (h ++ later) = true := by
  rw [resolves, lookup_append_of_eq_some hr]

theorem ColumnRef.resolves_of_nested {q column : String} {columns : List String}
    (hq : q ∉ h.map (·.1)) (hc : columns.count column = 1) (later : Header) :
    ColumnRef.resolves (h ++ (q, some columns) :: later) ⟨q, column⟩ = true := by
  rw [resolves, lookup_append_of_notMem hq]
  simpa using hc

/-- Outside of groups a selection can be made of whatever is found. -/
theorem Selection.resolves_value (e : Expr) : (value e).resolves h none = e.resolves h := by
  cases e <;> simp [resolves, Expr.resolves]

theorem Joined.entry_fst (j : Joined) : j.entry.1 = j.qualifier := by
  cases j <;> rfl

theorem Joined.scopedAll_cons (h : Header) (j : Joined) (rest : List Joined) :
    scopedAll h (j :: rest) =
      (scopedAll h [j] && scopedAll (h ++ [j.entry]) rest) := by
  cases j <;> simp [scopedAll]

theorem Joined.scopedAll_append (h : Header) (js ks : List Joined) :
    scopedAll h (js ++ ks) = (scopedAll h js && scopedAll (h ++ js.map entry) ks) := by
  induction js generalizing h with
  | nil => simp [scopedAll]
  | cons j js ih =>
    rw [List.cons_append, scopedAll_cons, ih, scopedAll_cons h j js, Bool.and_assoc]
    simp

end Header

section Scope

variable {s : Scope}

theorem Scope.value_of_lookup {r : ColumnRef} {row : Row} (hr : s.lookup r.qualifier = some row)
    (later : Scope) : (s ++ later).value r = row.value r.column := by
  rw [value, lookup_append_of_eq_some hr]

theorem Scope.value_eq_of_lookup {r : ColumnRef} {row : Row} (hr : s.lookup r.qualifier = some row) :
    s.value r = row.value r.column := by
  rw [value, hr]

theorem Scope.value_of_notMem {q : String} (hq : q ∉ s.map (·.1)) (row : Row) (column : String)
    (later : Scope) : (s ++ (q, row) :: later).value ⟨q, column⟩ = row.value column := by
  rw [value, lookup_append_of_notMem hq]

@[simp] theorem value_cons_self (column : String) (v : Json) (rest : Row) :
    Row.value ((column, v) :: rest) column = v := by
  simp [Row.value, Members.get?]

theorem value_cons_of_ne {column other : String} (h : column ≠ other) (v : Json) (rest : Row) :
    Row.value ((other, v) :: rest) column = rest.value column := by
  have hb : (column == other) = false := by simpa using h
  simp [Row.value, Members.get?, List.lookup_cons, hb]

end Scope

section Joins

variable (c : Comparison) (ω : Arrangement) (db : Database)

/-- The rows of what is joined. -/
def Joined.far : Joined → List Row
  | .table _ t _ _ => db t.table
  | .nested _ q _ _ _ => q.rows c ω db

def Joined.kind : Joined → JoinKind
  | .table kind _ _ _ => kind
  | .nested kind _ _ _ _ => kind

def Joined.extend (j : Joined) (s : Scope) : List Scope :=
  j.kind.extend c j.qualifier j.left j.right (j.far c ω db) s

theorem Joined.extendAll_cons (j : Joined) (rest : List Joined) (scopes : List Scope) :
    extendAll c ω db (j :: rest) scopes =
      extendAll c ω db rest (scopes.flatMap (j.extend c ω db)) := by
  cases j <;> rw [extendAll] <;> rfl

theorem Joined.extendAll_append (js ks : List Joined) (scopes : List Scope) :
    extendAll c ω db (js ++ ks) scopes = extendAll c ω db ks (extendAll c ω db js scopes) := by
  induction js generalizing scopes with
  | nil => rw [List.nil_append, extendAll]
  | cons j js ih => rw [List.cons_append, extendAll_cons, extendAll_cons, ih]

/-- Every row is joined for itself. -/
theorem Joined.extendAll_eq_flatMap (js : List Joined) (scopes : List Scope) :
    extendAll c ω db js scopes = scopes.flatMap fun s => extendAll c ω db js [s] := by
  induction js generalizing scopes with
  | nil => simp [extendAll]
  | cons j js ih =>
    rw [extendAll_cons, ih, List.flatMap_assoc]
    congr 1
    funext s
    rw [extendAll_cons, ← ih]
    simp

theorem Joined.mem_extend_inner {t : TableRef} {left right : ColumnRef} {s s' : Scope} :
    s' ∈ (Joined.table .inner t left right).extend c ω db s ↔
      ∃ row ∈ db t.table, s' = s ++ [(t.qualifier, row)] ∧
        c.equal (s'.value left) (s'.value right) = true := by
  simp only [extend, kind, qualifier, Joined.left, Joined.right, far, JoinKind.extend,
    List.mem_filter, List.mem_map]
  constructor
  · rintro ⟨⟨row, hr, rfl⟩, he⟩
    exact ⟨row, hr, rfl, he⟩
  · rintro ⟨row, hr, rfl, he⟩
    exact ⟨⟨row, hr, rfl⟩, he⟩

/-- A join adds one row, whichever join it is. -/
theorem Joined.exists_of_mem_extend {j : Joined} {s s' : Scope} (h : s' ∈ j.extend c ω db s) :
    ∃ row, s' = s ++ [(j.qualifier, row)] := by
  unfold extend JoinKind.extend at h
  have hf : ∀ s', s' ∈ ((j.far c ω db).map fun row => s ++ [(j.qualifier, row)]).filter
      (fun t => c.equal (t.value j.left) (t.value j.right)) → ∃ row, s' = s ++ [(j.qualifier, row)] := by
    intro s' hs
    obtain ⟨row, -, rfl⟩ := List.mem_map.mp (List.mem_filter.mp hs).1
    exact ⟨row, rfl⟩
  cases hk : j.kind with
  | inner =>
    rw [hk] at h
    exact hf s' h
  | left =>
    rw [hk] at h
    dsimp only at h
    split at h
    · exact ⟨[], List.mem_singleton.mp h⟩
    · exact hf s' h

/-- What is joined stands behind what was there, under the aliases of the joins. -/
theorem Joined.exists_of_mem_extendAll {js : List Joined} {scopes : List Scope} {s' : Scope}
    (h : s' ∈ extendAll c ω db js scopes) :
    ∃ s ∈ scopes, ∃ extra, s' = s ++ extra ∧ extra.map (·.1) = js.map (·.qualifier) := by
  induction js generalizing scopes with
  | nil =>
    rw [extendAll] at h
    exact ⟨s', h, [], by simp, rfl⟩
  | cons j js ih =>
    rw [extendAll_cons] at h
    obtain ⟨t, ht, extra, rfl, he⟩ := ih h
    obtain ⟨s, hs, hts⟩ := List.mem_flatMap.mp ht
    obtain ⟨row, rfl⟩ := exists_of_mem_extend c ω db hts
    exact ⟨s, hs, (j.qualifier, row) :: extra, by simp, by simp [he]⟩

end Joins

end EntityFeed.Sql
