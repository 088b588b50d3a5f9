import EntityFeed.Proofs.Sql.Template
import Mathlib.Data.List.Forall2

/-! How builders come about. Every call puts a text into a builder that the same call on a statement
keeps as a fragment, so the texts of a builder are the clauses of a statement, written with the names
of nested statements and the tokens of values. -/
namespace EntityFeed.Sql

/-- That a fragment embeds only the first `n` attached statements. -/
def Fragment.Embeds (n : Nat) (f : Fragment) : Prop := ∀ i, .attached i ∈ f → i < n

theorem Fragment.embeds_ofText (n : Nat) (s : String) : (Fragment.ofText s).Embeds n := by
  simp [Embeds, ofText]

theorem Fragment.Embeds.written_append {f : Fragment} {subs : List String}
    (embeds : f.Embeds subs.length) (more : List String) :
    f.written (subs ++ more) = f.written subs := by
  unfold written
  congr 1
  apply List.map_congr_left
  rintro (s | i) mem
  · rfl
  · exact List.getD_append _ _ _ _ (embeds i mem)

theorem Clauses.written_whereIn (c : Clauses) (d : Condition) {labels : List (List String)}
    {own subs : List String} (aligned : labels.length = c.conditions.length) :
    Clauses.written (labels ++ [own]) subs { c with conditions := c.conditions ++ [d] } =
      { c.written labels subs with
        conditions := (c.written labels subs).conditions ++
          [Builder.predicate (d.column.written subs) own] } := by
  simp [written, List.zipWith_append aligned.symm]

namespace Builder

/-- The names that stand for the nested statements, in the order in which these were taken in. -/
def names (b : Builder) : List String := b.nested.map (·.1.text)

/-- The builders that calls lead to, each beside the statement that the same calls put together
without tokens. A fragment is any text with the names of statements taken in before. -/
inductive Made : Builder → Statement → Prop
  | empty : Made .empty .empty
  | source {b : Builder} {s : Statement} (f : Fragment) (made : Made b s)
    (embeds : f.Embeds b.names.length) : Made (b.source (f.written b.names)) (s.source f)
  | select {b : Builder} {s : Statement} (f : Fragment) (made : Made b s)
    (embeds : f.Embeds b.names.length) : Made (b.select (f.written b.names)) (s.select f)
  | groupBy {b : Builder} {s : Statement} (f : Fragment) (made : Made b s)
    (embeds : f.Embeds b.names.length) : Made (b.groupBy (f.written b.names)) (s.groupBy f)
  | join {b : Builder} {s : Statement} (j : Join) (made : Made b s)
    (table : j.table.Embeds b.names.length) (left : j.left.Embeds b.names.length)
    (right : j.right.Embeds b.names.length) :
    Made (b.join j.kind (j.table.written b.names) (j.left.written b.names) (j.right.written b.names))
      (s.join j)
  | whereIn {b : Builder} {s : Statement} (f : Fragment) (values : List String)
    (draw : Nat → Token) (made : Made b s) (embeds : f.Embeds b.names.length) :
    Made (b.whereIn (f.written b.names) values draw) (s.whereIn f values)
  | subQuery {b q : Builder} {s r : Statement} (t : Token) (made : Made b s) (inner : Made q r) :
    Made (b.subQuery t q).2 (s.attach r).2
  | union {b q : Builder} {s r : Statement} (t : Token) (made : Made b s) (inner : Made q r) :
    Made (b.union [(t, q)]) (s.union [r])

/-- How a builder mirrors a statement. Statements taken in later change nothing of it. -/
structure Mirrors (b : Builder) (s : Statement) : Prop where
  values : b.bindings.map (·.2) = s.clauses.values
  nested : List.Forall₂ (fun p r => Made p.2 r) b.nested s.attached
  texts : ∀ {label : Nat → String} {start : Nat} (more : List String),
    Labels label start (b.bindings.map (·.1.text)) →
    b.texts = s.clauses.written ((numberFrom start s.clauses.conditions).map (·.map label))
      (b.names ++ more)

namespace Mirrors

variable {b q : Builder} {s r : Statement}

theorem withTexts (m : Mirrors b s) {f : Texts → Texts} {g : Clauses → Clauses}
    (same : (g s.clauses).conditions = s.clauses.conditions)
    (texts : ∀ labels more, f (s.clauses.written labels (b.names ++ more)) =
      (g s.clauses).written labels (b.names ++ more)) :
    Mirrors (b.withTexts f) (s.withClauses g) := by
  obtain ⟨c, bindings, nested⟩ := b
  obtain ⟨cl, subs⟩ := s
  refine ⟨?_, m.nested, fun {label start} more labels => ?_⟩
  · have values := m.values
    simp only [Statement.clauses, Statement.withClauses, Clauses.values] at same values ⊢
    rw [same]
    exact values
  · have written := (congrArg f (m.texts more labels)).trans (texts _ more)
    simp only [Statement.clauses, Statement.withClauses] at same written ⊢
    rw [same]
    exact written

theorem length_bindings (m : Mirrors b s) : b.bindings.length = s.clauses.values.length := by
  rw [← m.values, List.length_map]

theorem whereIn (m : Mirrors b s) {f : Fragment} {values : List String} {draw : Nat → Token}
    (embeds : f.Embeds b.names.length) :
    Mirrors (b.whereIn (f.written b.names) values draw) (s.whereIn f values) := by
  obtain ⟨c, bindings, nested⟩ := b
  obtain ⟨cl, subs⟩ := s
  refine ⟨?_, m.nested, fun {label start} more labels => ?_⟩
  · have values := m.values
    simp only [Builder.whereIn, Builder.bindings, Statement.whereIn, Statement.withClauses,
      Statement.clauses, Clauses.values, List.map_append, List.flatMap_append] at values ⊢
    rw [values]
    congr 1
    simpa using List.ext_getElem (by simp) (by simp)
  · have count : bindings.length = (cl.conditions.flatMap (·.values)).length := m.length_bindings
    simp only [Builder.whereIn, Builder.bindings, List.map_append, Labels.append_iff,
      List.length_map] at labels
    obtain ⟨before, new⟩ := labels
    have texts : c = cl.written ((numberFrom start cl.conditions).map (·.map label))
        (nested.map (·.1.text) ++ more) := m.texts more before
    have own : (List.range' (start + bindings.length) (distinct values).length).map label =
        ((distinct values).mapIdx fun i value => (draw i, value)).map (·.1.text) := by
      simpa [Labels] using new
    have written : f.written (nested.map (·.1.text) ++ more) = f.written (nested.map (·.1.text)) :=
      embeds.written_append more
    change { c with conditions := c.conditions ++ [predicate (f.written (nested.map (·.1.text)))
        (((distinct values).mapIdx fun i value => (draw i, value)).map (·.1.text))] } =
      Clauses.written ((numberFrom start (cl.conditions ++ [⟨f, distinct values⟩])).map (·.map label))
        (nested.map (·.1.text) ++ more) { cl with conditions := cl.conditions ++ [_] }
    rw [numberFrom_append, ← count, List.map_append, numberFrom, List.map_cons, own,
      numberFrom, List.map_nil, Clauses.written_whereIn _ _ (by simp [length_numberFrom]), written,
      ← texts]

theorem subQuery (m : Mirrors b s) (t : Token) (inner : Made q r) :
    Mirrors (b.subQuery t q).2 (s.attach r).2 := by
  obtain ⟨c, bindings, nested⟩ := b
  obtain ⟨cl, subs⟩ := s
  refine ⟨m.values, List.rel_append m.nested (.cons inner .nil), fun more labels => ?_⟩
  have texts := m.texts (t.text :: more) labels
  simp only [names, Builder.subQuery, Builder.nested, List.map_append, List.append_assoc] at texts ⊢
  exact texts

theorem union (m : Mirrors b s) (t : Token) (inner : Made q r) :
    Mirrors (b.union [(t, q)]) (s.union [r]) := by
  have place : (b.subQuery t q).2.names = b.names ++ [t.text] := by
    simp [names, Builder.subQuery, Builder.nested]
  have count : s.attached.length = b.names.length := by
    simp [names, m.nested.length_eq]
  refine (m.subQuery t inner).withTexts (f := fun c => { c with unions := c.unions ++ [t.text] })
    (g := fun c => { c with unions := c.unions ++ [s.attached.length] }) rfl fun labels more => ?_
  simp [Clauses.written, place, count]

end Mirrors

theorem Made.mirrors {b : Builder} {s : Statement} (made : Made b s) : Mirrors b s := by
  induction made with
  | empty => exact ⟨rfl, .nil, fun _ _ => rfl⟩
  | source _ _ embeds ih =>
    exact ih.withTexts rfl fun _ more => by simp [Clauses.written, embeds.written_append more]
  | select _ _ embeds ih =>
    exact ih.withTexts rfl fun _ more => by simp [Clauses.written, embeds.written_append more]
  | groupBy _ _ embeds ih =>
    exact ih.withTexts rfl fun _ more => by simp [Clauses.written, embeds.written_append more]
  | join _ _ table left right ih =>
    exact ih.withTexts rfl fun _ more => by
      simp [Clauses.written, table.written_append more, left.written_append more,
        right.written_append more]
  | whereIn _ _ _ _ embeds ih => exact ih.whereIn embeds
  | subQuery t _ inner ih => exact ih.subQuery t inner
  | union t _ inner ih => exact ih.union t inner

end Builder
end EntityFeed.Sql
