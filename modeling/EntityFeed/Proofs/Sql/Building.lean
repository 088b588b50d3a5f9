import EntityFeed.Proofs.Sql.Made
import EntityFeed.Sql.Select

/-! Every query can be put together by calls. -/
namespace EntityFeed.Sql

namespace Builder

variable {b : Builder} {s : Statement}

theorem Made.length_names (made : Made b s) : b.names.length = s.attached.length := by
  rw [names, List.length_map]
  exact made.mirrors.nested.length_eq

theorem Made.exists_select (made : Made b s) (texts : List String) :
    ∃ b', Made b' (s.withClauses fun c => { c with
      selected := c.selected ++ texts.map Fragment.ofText }) := by
  induction texts generalizing b s with
  | nil =>
    cases s
    exact ⟨b, by simpa [Statement.withClauses] using made⟩
  | cons text rest ih =>
    obtain ⟨b', made'⟩ := ih (made.select text (Fragment.embeds_ofText _ _))
    cases s
    exact ⟨b', by simpa [Statement.select, Statement.withClauses] using made'⟩

theorem Made.exists_whereIn (made : Made b s) (conditions : List (String × List String)) :
    ∃ b', Made b' (s.withClauses fun c => { c with
      conditions := c.conditions ++
        conditions.map fun (column, values) => ⟨column, distinct values⟩ }) := by
  induction conditions generalizing b s with
  | nil =>
    cases s
    exact ⟨b, by simpa [Statement.withClauses] using made⟩
  | cons d rest ih =>
    obtain ⟨b', made'⟩ := ih (made.whereIn d.1 d.2 default (Fragment.embeds_ofText _ _))
    cases s
    exact ⟨b', by simpa [Statement.whereIn, Statement.withClauses] using made'⟩

theorem Made.exists_groupBy (made : Made b s) (texts : List String) :
    ∃ b', Made b' (s.withClauses fun c => { c with
      grouping := c.grouping ++ texts.map Fragment.ofText }) := by
  induction texts generalizing b s with
  | nil =>
    cases s
    exact ⟨b, by simpa [Statement.withClauses] using made⟩
  | cons text rest ih =>
    obtain ⟨b', made'⟩ := ih (made.groupBy text (Fragment.embeds_ofText _ _))
    cases s
    exact ⟨b', by simpa [Statement.groupBy, Statement.withClauses] using made'⟩

theorem Made.exists_union (made : Made b s) (rs : List Statement)
    (all : ∀ r ∈ rs, ∃ q, Made q r) : ∃ b', Made b' (s.union rs) := by
  induction rs generalizing b s with
  | nil => exact ⟨b, made⟩
  | cons r rest ih =>
    obtain ⟨⟨q, inner⟩, others⟩ := List.forall_mem_cons.mp all
    exact ih (made.union default inner) others

end Builder

open Builder

mutual

theorem Select.exists_made (q : Select) : ∃ b, Made b q.statement := by
  match q with
  | ⟨outputs, source, joins, condition, grouping⟩ =>
    have opened := Made.empty.source source.text (Fragment.embeds_ofText _ _)
    obtain ⟨_, joined⟩ := Joined.exists_made joins opened
    obtain ⟨_, selected⟩ := joined.exists_select (outputs.map (·.text))
    obtain ⟨_, restricted⟩ := selected.exists_whereIn
      (condition.toList.map fun m => (m.column.text, m.values))
    obtain ⟨b, grouped⟩ := restricted.exists_groupBy (grouping.toList.map (·.text))
    refine ⟨b, ?_⟩
    rw [Select.statement]
    simpa [Statement.withClauses, Statement.source, Statement.empty, Statement.clauses,
      Statement.attached, Function.comp_def] using grouped

theorem Joined.exists_made (joins : List Joined) {b : Builder} {s : Statement}
    (made : Made b s) :
    ∃ b', Made b' ⟨{ s.clauses with
      joins := s.clauses.joins ++ Joined.clauses s.attached.length joins },
      s.attached ++ Joined.statements joins⟩ := by
  match joins with
  | [] =>
    cases s
    exact ⟨b, by simpa [Joined.clauses, Joined.statements, Statement.clauses, Statement.attached]
      using made⟩
  | .table kind t left right :: rest =>
    obtain ⟨b', made'⟩ := Joined.exists_made rest
      (made.join ⟨kind, t.text, left.text, right.text⟩ (Fragment.embeds_ofText _ _)
        (Fragment.embeds_ofText _ _) (Fragment.embeds_ofText _ _))
    cases s
    exact ⟨b', by simpa [Joined.clauses, Joined.statements, Statement.clauses, Statement.attached,
      Statement.join, Statement.withClauses] using made'⟩
  | .nested kind q qualifier left right :: rest =>
    obtain ⟨inner, madeInner⟩ := q.exists_made
    have taken := made.subQuery default madeInner
    have embeds : Fragment.Embeds (b.subQuery default inner).2.names.length
        [.text "(", .attached s.attached.length, .text (") AS " ++ quoteIdent qualifier)] := by
      rw [taken.length_names]
      simp [Fragment.Embeds, Statement.attach, Statement.attached]
    obtain ⟨b', made'⟩ := Joined.exists_made rest
      (taken.join ⟨kind, _, left.text, right.text⟩ embeds (Fragment.embeds_ofText _ _)
        (Fragment.embeds_ofText _ _))
    cases s
    exact ⟨b', by simpa [Joined.clauses, Joined.statements, Statement.clauses, Statement.attached,
      Statement.join, Statement.withClauses, Statement.attach] using made'⟩

end

end EntityFeed.Sql
