import EntityFeed.Proofs.Sql.Builder
import EntityFeed.Proofs.Sql.Spelling

/-! Tokens that are in nothing quoted. Whatever a query is written with begins and ends with characters
that are in no token, what is quoted with its quotes. So such tokens are nowhere in its text. -/
namespace EntityFeed.Sql

theorem prefix_of_prefix_doubled {mark : Char} {p s : List Char} (other : mark ∉ p)
    (h : p <+: doubled mark s) : p <+: s := by
  induction s generalizing p with
  | nil => exact h
  | cons c rest ih =>
    cases p with
    | nil => exact List.nil_prefix
    | cons d p =>
      rw [List.mem_cons, not_or] at other
      by_cases hc : c = mark
      · rw [doubled, if_pos hc, List.cons_prefix_cons] at h
        exact absurd h.1.symm other.1
      · rw [doubled, if_neg hc, List.cons_prefix_cons] at h
        exact List.cons_prefix_cons.mpr ⟨h.1, ih other.2 h.2⟩

theorem infix_of_infix_doubled {mark : Char} {p s : List Char} (other : mark ∉ p)
    (h : p <:+: doubled mark s) : p <:+: s := by
  induction s with
  | nil => exact h
  | cons c rest ih =>
    obtain here | behind : p <+: doubled mark (c :: rest) ∨ p <:+: doubled mark rest := by
      by_cases hc : c = mark
      · rw [doubled, if_pos hc] at h ⊢
        obtain here | second := List.infix_cons_iff.mp h
        · exact .inl here
        · refine (List.infix_cons_iff.mp second).imp_left fun here => ?_
          exact (prefix_of_notMem other (y := []) here).trans List.nil_prefix
      · rw [doubled, if_neg hc] at h ⊢
        exact List.infix_cons_iff.mp h
    · exact (prefix_of_prefix_doubled other here).isInfix
    · exact List.infix_cons (ih behind)

/-- What has no delimiter in it is in a delimited text only if it is in what is delimited. -/
theorem infix_of_infix_delimited {mark : Char} {p : List Char} {s : String} (other : mark ∉ p)
    (h : p <:+: (delimited mark s).toList) : p <:+: s.toList := by
  have nothing (empty : p <+: []) : p <:+: s.toList := empty.isInfix.trans List.nil_infix
  rw [delimited, String.toList_ofList, List.cons_append] at h
  obtain here | behind := List.infix_cons_iff.mp h
  · exact nothing (prefix_of_notMem other (y := []) here)
  · obtain last | inside := List.infix_concat_iff.mp behind
    · obtain rfl | ⟨r, rfl, -⟩ := List.suffix_concat_iff.mp last
      · exact nothing List.nil_prefix
      · simp at other
    · exact infix_of_infix_doubled other inside

section Barred

variable {t : Token}

theorem Token.barred_delimited {mark : Char} {s : String} (foreign : Token.isForeign mark = true)
    (absent : ¬ t.text.toList <:+: s.toList) : t.Barred (delimited mark s) := by
  obtain ⟨plain, other⟩ := Token.foreign foreign
  have none : mark ∉ t.text.toList := t.notMem_text plain other
  have front : (delimited mark s).toList = mark :: (doubled mark s.toList ++ [mark]) := by
    simp [delimited]
  exact barred_of_ends front (w := mark :: doubled mark s.toList) front plain other none
    fun h => absent (infix_of_infix_delimited none h)

namespace Lexeme

/-- What is quoted: the name of an identifier, or the value of a literal. -/
def quoted? : Lexeme → Option String
  | ident name => some name
  | literal value => some value
  | _ => none

/-- That a token is not in what is quoted. -/
def Lacks (x : Lexeme) (t : Token) : Prop := ∀ s ∈ x.quoted?, ¬ t.text.toList <:+: s.toList

theorem Lacks.barred {x : Lexeme} (lacks : x.Lacks t) (valid : x.valid = true) :
    t.Barred (x.write fun _ => "$") := by
  cases x with
  | blank => exact Token.barred_of_all (by decide) (by decide) (by decide)
  | word w =>
    have words : ∀ w ∈ keywords, w.toList.head?.any Token.isForeign = true ∧
        w.toList.getLast?.any Token.isForeign = true ∧ w.toList.all Token.isOther = true := by
      decide +kernel
    obtain ⟨front, back, all⟩ := words w (List.contains_iff_mem.mp valid)
    exact Token.barred_of_all front back all
  | ident name => exact Token.barred_delimited (by decide) (lacks name rfl)
  | literal value => exact Token.barred_delimited (by decide) (lacks value rfl)
  | placeholder n => exact Token.barred_of_all (x := "$") (by decide) (by decide) (by decide)
  | mark c =>
    have foreign : marks.all Token.isForeign = true := by decide
    have ends := List.all_eq_true.mp foreign c (List.contains_iff_mem.mp valid)
    have other : Token.isOther c = true := (Bool.and_eq_true_iff.mp ends).1
    exact Token.barred_of_all (by simpa [write] using ends) (by simpa [write] using ends)
      (by simpa [write] using other)
  | cast => exact Token.barred_of_all (by decide) (by decide) (by decide)

/-- A token that is in nothing quoted is barred from what some lexemes spell. -/
theorem barred_writeAll {xs : List Lexeme} (some_ : xs ≠ []) (valid : ∀ x ∈ xs, x.valid = true)
    (lacks : ∀ x ∈ xs, x.Lacks t) : t.Barred (writeAll (fun _ => "$") xs) := by
  induction xs with
  | nil => contradiction
  | cons x xs ih =>
    obtain ⟨here, later⟩ := List.forall_mem_cons.mp valid
    obtain ⟨lacksHere, lacksLater⟩ := List.forall_mem_cons.mp lacks
    rw [writeAll_cons]
    by_cases last : xs = []
    · simpa [last] using lacksHere.barred here
    · exact (lacksHere.barred here).append (ih last later lacksLater)

end Lexeme

open Lexeme

theorem Fragment.barred_ofText {s : String} (h : t.Barred s) (x : String)
    (mem : .text x ∈ Fragment.ofText s) : t.Barred x := by
  obtain rfl : x = s := by simpa [Fragment.ofText] using mem
  exact h

theorem ColumnRef.barred (r : ColumnRef) (lacks : ∀ x ∈ r.lexemes, x.Lacks t) : t.Barred r.text :=
  r.writeAll_lexemes _ ▸ barred_writeAll (by simp [lexemes]) r.readable.valid lacks

theorem TableRef.barred (r : TableRef) (lacks : ∀ x ∈ r.lexemes, x.Lacks t) : t.Barred r.text :=
  r.writeAll_lexemes _ ▸ barred_writeAll (by simp [lexemes]) r.readable.valid lacks

theorem Output.barred (o : Output) (lacks : ∀ x ∈ o.lexemes, x.Lacks t) : t.Barred o.text :=
  o.writeAll_lexemes _ ▸ barred_writeAll (by simp [lexemes]) o.readable.valid lacks

theorem ColumnRef.mem_among (r : ColumnRef) {labels : List Lexeme} (some_ : labels ≠ []) {x : Lexeme}
    (hx : x ∈ r.lexemes) : x ∈ r.among labels := by
  match labels with
  | [] => contradiction
  | [label] => exact List.mem_append_left _ hx
  | v :: w :: rest => exact List.mem_append_left _ hx

/-- The text that closes a nested query. -/
theorem barred_closing (qualifier : String) (lacks : (Lexeme.ident qualifier).Lacks t) :
    t.Barred (") AS " ++ quoteIdent qualifier) := by
  have front : t.Barred ") AS " := Token.barred_of_all (by decide) (by decide) (by decide)
  exact front.append (lacks.barred rfl)

/-- A token is barred from what is joined by, if it is from the table. -/
theorem JoinKind.barred {kind : JoinKind} {table : List Lexeme} {left right : ColumnRef}
    (lacks : ∀ x ∈ kind.joinLexemes table left right, x.Lacks t) {f : Fragment}
    (hf : ∀ x, .text x ∈ f → t.Barred x) :
    ∀ g ∈ [f, .ofText left.text, .ofText right.text], ∀ x, .text x ∈ g → t.Barred x := by
  have hl := left.barred fun x hx => lacks x (by simp [joinLexemes, hx])
  have hr := right.barred fun x hx => lacks x (by simp [joinLexemes, hx])
  simp only [List.forall_mem_cons, List.not_mem_nil, false_implies, implies_true, and_true]
  exact ⟨hf, Fragment.barred_ofText hl, Fragment.barred_ofText hr⟩

mutual

/-- A token that is in nothing quoted in a query is barred from the clauses of the query and of all that
are nested in it. -/
theorem Select.barred (q : Select) (start : Nat) (lacks : ∀ x ∈ q.lexemes start, x.Lacks t) :
    ∀ u ∈ q.statement.withAttached, u.clauses.Barred t := by
  match q with
  | ⟨outputs, source, joins, condition, grouping⟩ =>
    have joined := Joined.barred joins 0 (start + (Membership.bound condition).length) fun x hx =>
      lacks x (by simp [Select.lexemes, hx])
    rw [Select.statement, Statement.withAttached]
    refine List.forall_mem_cons.mpr ⟨fun f hf => ?_, joined.2⟩
    simp only [Statement.clauses, Clauses.fragments, List.mem_append] at hf
    obtain (((selected | from_) | js) | conditions) | groups := hf
    · obtain ⟨o, ho, rfl⟩ := List.mem_map.mp selected
      refine Fragment.barred_ofText (o.barred fun x hx => lacks x ?_)
      have listed : x ∈ Output.listLexemes outputs := by
        rw [Output.listLexemes, if_neg (by simpa using List.ne_nil_of_mem ho)]
        exact Text.mem_intercalate_of_mem (List.mem_map_of_mem ho) hx
      simp [Select.lexemes, listed]
    · obtain rfl : f = Fragment.ofText source.text := by simpa using from_
      exact Fragment.barred_ofText (source.barred fun x hx => lacks x (by simp [Select.lexemes, hx]))
    · exact joined.1 f js
    · obtain ⟨d, hd, rfl⟩ := List.mem_map.mp conditions
      obtain ⟨hd, some_⟩ := List.mem_filter.mp hd
      obtain ⟨m, hm, rfl⟩ := List.mem_map.mp hd
      obtain rfl : condition = some m := by simpa using hm
      have shown (x : Lexeme) (hx : x ∈ m.column.lexemes) :
          x ∈ m.column.among (placeholders start (distinct m.values)) :=
        m.column.mem_among (by simpa [placeholders] using some_) hx
      refine Fragment.barred_ofText (m.column.barred fun x hx => lacks x ?_)
      simp [Select.lexemes, Membership.clauseLexemes, shown x hx]
    · obtain ⟨r, hr, rfl⟩ := List.mem_map.mp groups
      refine Fragment.barred_ofText (r.barred fun x hx => lacks x ?_)
      obtain rfl : grouping = some r := by simpa using hr
      simp [Select.lexemes, ColumnRef.groupLexemes, hx]

theorem Joined.barred (joins : List Joined) (i start : Nat)
    (lacks : ∀ x ∈ Joined.lexemes start joins, x.Lacks t) :
    (∀ f ∈ (Joined.clauses i joins).flatMap fun j => [j.table, j.left, j.right],
      ∀ x, .text x ∈ f → t.Barred x) ∧
    ∀ u ∈ withAttachedOfAll (Joined.statements joins), u.clauses.Barred t := by
  match joins with
  | [] => simp [Joined.clauses, Joined.statements, withAttachedOfAll]
  | .table kind ref left right :: rest =>
    have later := Joined.barred rest i start fun x hx => lacks x (List.mem_append_right _ hx)
    have here (x : Lexeme) (hx : x ∈ kind.joinLexemes ref.lexemes left right) : x.Lacks t :=
      lacks x (List.mem_append_left _ hx)
    have table := ref.barred fun x hx => here x (by simp [JoinKind.joinLexemes, hx])
    refine ⟨?_, later.2⟩
    rw [Joined.clauses, List.flatMap_cons]
    exact List.forall_mem_append.mpr ⟨JoinKind.barred here (Fragment.barred_ofText table), later.1⟩
  | .nested kind q qualifier left right :: rest =>
    have later := Joined.barred rest (i + 1) _ fun x hx => lacks x (List.mem_append_right _ hx)
    have here (x : Lexeme) (hx : x ∈ kind.joinLexemes ([.mark '('] ++ (q.lexemes start ++
        ([.mark ')'] ++ (asName ++ [.ident qualifier])))) left right) : x.Lacks t :=
      lacks x (List.mem_append_left _ hx)
    have inner := q.barred start fun x hx => here x (by simp [JoinKind.joinLexemes, hx])
    refine ⟨?_, List.forall_mem_append.mpr ⟨inner, later.2⟩⟩
    rw [Joined.clauses, List.flatMap_cons]
    refine List.forall_mem_append.mpr ⟨JoinKind.barred here fun x hx => ?_, later.1⟩
    obtain rfl | rfl : x = "(" ∨ x = ") AS " ++ quoteIdent qualifier := by simpa using hx
    · exact Token.barred_of_all (by decide) (by decide) (by decide)
    · exact barred_closing qualifier (here _ (by simp [JoinKind.joinLexemes]))

end

theorem Select.barred_all (qs : List Select) (start : Nat)
    (lacks : ∀ item ∈ lexemesOfAll start qs, ∀ x ∈ item, x.Lacks t) :
    ∀ u ∈ withAttachedOfAll (qs.map (·.statement)), u.clauses.Barred t := by
  induction qs generalizing start with
  | nil => simp [withAttachedOfAll]
  | cons q rest ih =>
    obtain ⟨here, later⟩ := List.forall_mem_cons.mp lacks
    exact List.forall_mem_append.mpr ⟨q.barred start here, ih _ later⟩

theorem Query.barred (q : Query) {c : Clauses} (first : q.first.statement = ⟨c, []⟩)
    (lacks : ∀ x ∈ q.lexemes, x.Lacks t) : ∀ u ∈ q.statement.withAttached, u.clauses.Barred t := by
  have all := Select.barred_all (t := t) q.selects 1 fun item hi x hx =>
    lacks x (Text.mem_intercalate_of_mem hi hx)
  rw [Query.selects, List.map_cons, withAttachedOfAll, List.forall_mem_append, first] at all
  rw [Query.statement, first, Statement.union_eq]
  have own : c.Barred t := all.1 _ (Statement.self_mem_withAttached _)
  exact List.forall_mem_cons.mpr ⟨own, all.2⟩

end Barred

open Lexeme

namespace Builder

/-- That the tokens of a builder differ from each other and are in nothing quoted. -/
structure Drawn (b : Builder) (xs : List Lexeme) : Prop where
  distinct : b.tokens.Nodup
  lacks : ∀ t ∈ b.tokens, ∀ x ∈ xs, x.Lacks t

theorem Drawn.of_inPlace {b : Builder} {xs : List Lexeme} {values : List String}
    (h : b.Drawn (xs.map (inPlace values))) : b.Drawn xs := by
  refine ⟨h.distinct, fun t ht x hx => ?_⟩
  have lacks := h.lacks t ht (x.inPlace values) (List.mem_map_of_mem hx)
  cases x with
  | placeholder n => exact nofun
  | _ => exact lacks

variable {b : Builder} {s : Statement} {xs : List Lexeme}

theorem Drawn.apart (drawn : b.Drawn xs)
    (barred : ∀ t : Token, (∀ x ∈ xs, x.Lacks t) → ∀ u ∈ s.withAttached, u.clauses.Barred t) :
    b.Apart s :=
  ⟨drawn.distinct, fun t ht => .inr (barred t (drawn.lacks t ht))⟩

/-- The values are among what is quoted in the literal text. -/
theorem Drawn.settled (drawn : b.Drawn (xs.map (inPlace s.values))) (spelled : s.Spelled xs)
    {t : Token} (ht : t ∈ b.tokens) {k : Nat} (mem : .value k ∈ s.numbered 1) :
    t.Leaves (quoteLiteral (s.values.getD (k - 1) "")) := by
  have bounds := s.numbered_bounds mem
  have number : k ∈ numbers xs :=
    spelled.numbers.mem_iff.mpr (List.mem_range'_1.mpr bounds)
  obtain ⟨x, hx, here⟩ := List.mem_filterMap.mp number
  obtain rfl : x = .placeholder k := by
    cases x with
    | placeholder n => exact congrArg _ (Option.some.inj here)
    | _ => contradiction
  have lacks := drawn.lacks t ht _ (List.mem_map_of_mem hx)
  have none : '\'' ∉ t.text.toList := t.notMem_text (by decide) (by decide)
  exact Token.leaves_quoteLiteral fun h => lacks _ rfl (infix_of_infix_delimited none h)

end Builder

end EntityFeed.Sql
