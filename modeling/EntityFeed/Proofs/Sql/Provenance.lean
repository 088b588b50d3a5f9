import EntityFeed.Proofs.Sql.Hygiene

/-! Where the columns of a query come from. An alias stands for a table or for the rows of a nested
query, and it does so only in the query that brings it in. -/
namespace EntityFeed.Sql

/-- What an alias stands for. -/
inductive Origin where
  | table (name : String)
  /-- The rows of a nested query, whose columns have these names. -/
  | nested (columns : List String)
  deriving DecidableEq, Repr

/-- The use of a column, with what its alias stands for where it is used. -/
structure Use where
  origin : Option Origin
  column : String
  deriving DecidableEq, Repr

/-- Whether one column is meant and no other. Tables are taken to have the columns they are asked
for, each once. -/
def Use.clear (u : Use) : Bool :=
  match u.origin with
  | none => false
  | some (.table _) => true
  | some (.nested columns) => columns.count u.column == 1

abbrev Bindings := List (String × Origin)

def ColumnRef.use (h : Bindings) (r : ColumnRef) : Use := ⟨h.lookup r.qualifier, r.column⟩

namespace Joined

def origin : Joined → Origin
  | table _ t _ _ => .table t.table
  | nested _ q _ _ _ => .nested (q.outputs.map (·.name))

def binding (j : Joined) : String × Origin := (j.qualifier, j.origin)

def refs (j : Joined) : List ColumnRef := [j.left, j.right]

end Joined

/-- The columns of a condition, which is just false if it has no values. -/
def Membership.refs (m : Membership) : List ColumnRef :=
  if m.values.isEmpty then [] else [m.column]

namespace Select

/-- The columns that a query uses itself. -/
def refs : Select → List ColumnRef
  | ⟨outputs, _, joins, condition, grouping⟩ =>
    outputs.flatMap (fun o => o.selection.refs) ++ joins.flatMap Joined.refs ++
      condition.toList.flatMap Membership.refs ++ grouping.toList

/-- The aliases that a query may use, with what they stand for. -/
def bindings : Select → Bindings
  | ⟨_, source, joins, _, _⟩ =>
    (source.qualifier, .table source.table) :: joins.map Joined.binding

end Select

mutual

/-- All uses of columns in a query and in those nested in it. -/
def Select.uses : Select → List Use
  | ⟨outputs, source, joins, condition, grouping⟩ =>
    let q : Select := ⟨outputs, source, joins, condition, grouping⟩
    q.refs.map (ColumnRef.use q.bindings) ++ Joined.usesOfAll joins

def Joined.usesOfAll : List Joined → List Use
  | [] => []
  | .table _ _ _ _ :: rest => Joined.usesOfAll rest
  | .nested _ q _ _ _ :: rest => q.uses ++ Joined.usesOfAll rest

end

@[simp] theorem Joined.usesOfAll_append (js ks : List Joined) :
    usesOfAll (js ++ ks) = usesOfAll js ++ usesOfAll ks := by
  induction js with
  | nil => simp [usesOfAll]
  | cons j js ih => cases j <;> simp [usesOfAll, ih]

/-- The aliases of the joins of a query are among those that it brings in. -/
theorem Joined.qualifiers_sublist (js : List Joined) :
    (js.map qualifier).Sublist (aliasesOf js) := by
  induction js with
  | nil => exact .slnil
  | cons j js ih =>
    cases j with
    | table kind t left right => exact ih.cons_cons _
    | nested kind q outer left right =>
      exact (ih.cons_cons _).trans (List.sublist_append_right _ _)

theorem lookup_of_mem_nodup {β : Type} {l : List (String × β)} (h : (l.map (·.1)).Nodup)
    {entry : String × β} (he : entry ∈ l) : l.lookup entry.1 = some entry.2 := by
  obtain ⟨before, after, rfl⟩ := List.append_of_mem he
  rw [List.map_append, List.map_cons, List.nodup_middle, List.nodup_cons, List.mem_append] at h
  exact lookup_append_of_notMem (fun hm => h.1 (.inl hm)) entry.2 after

/-- In a query that brings in every alias once, the alias of a join stands for what is joined. -/
theorem Joined.lookup_binding (source : TableRef) {js : List Joined}
    (h : (source.qualifier :: aliasesOf js).Nodup) {j : Joined} (hj : j ∈ js) :
    List.lookup j.qualifier ((source.qualifier, Origin.table source.table) :: js.map binding) =
      some j.origin := by
  have own : (((source.qualifier, Origin.table source.table) :: js.map binding).map (·.1)).Nodup := by
    have names : (js.map binding).map (·.1) = js.map qualifier := by
      rw [List.map_map]
      rfl
    rw [List.map_cons, names]
    exact h.sublist ((qualifiers_sublist js).cons_cons _)
  exact lookup_of_mem_nodup own (List.mem_cons_of_mem _ (List.mem_map_of_mem hj))

end EntityFeed.Sql
