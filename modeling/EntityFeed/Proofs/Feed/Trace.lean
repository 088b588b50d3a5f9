import EntityFeed.Proofs.Feed.World

/-! How far a work has come: the calls that it has made, with the answers, and the work that is left.
Work behind other work, and a rebuild in the midst of a work, have their calls in one piece. -/
namespace EntityFeed

/-- A call with its answer. -/
structure Exchange where
  call : Call
  answer : call.Answer

namespace Work

variable {α β : Type}

/-- That a work comes to another one by these calls. -/
inductive Goes : Work α → List Exchange → Work α → Prop
  | refl (w : Work α) : Goes w [] w
  | call {c : Call} {next : c.Answer → Work α} {answer : c.Answer} {xs : List Exchange} {u : Work α}
    (rest : Goes (next answer) xs u) : Goes (.call c next) (⟨c, answer⟩ :: xs) u

namespace Goes

variable {w u v : Work α} {xs ys : List Exchange}

theorem trans (h : w.Goes xs u) (h' : u.Goes ys v) : w.Goes (xs ++ ys) v := by
  induction h with
  | refl => exact h'
  | call _ ih => exact .call (ih h')

theorem exists_split (h : w.Goes (xs ++ ys) v) : ∃ u, w.Goes xs u ∧ u.Goes ys v := by
  induction xs generalizing w with
  | nil => exact ⟨w, .refl w, h⟩
  | cons x xs ih =>
    cases h with
    | call rest =>
      obtain ⟨u, front, back⟩ := ih rest
      exact ⟨u, .call front, back⟩

/-- The answers decide how a work goes on. -/
theorem unique (h : w.Goes xs u) (h' : w.Goes xs v) : u = v := by
  induction h with
  | refl =>
    cases h'
    rfl
  | call _ ih =>
    cases h' with
    | call rest => exact ih rest

theorem of_done {a : α} (h : (Work.done a).Goes xs u) : xs = [] ∧ u = .done a := by
  cases h
  exact ⟨rfl, rfl⟩

/-- Work that begins with some is still in it, or has come to its end and gone on behind it. -/
theorem of_bind {w : Work α} {f : α → Work β} {u : Work β} (h : (w.bind f).Goes xs u) :
    (∃ v, w.Goes xs v ∧ u = v.bind f) ∨
      ∃ front back a, xs = front ++ back ∧ w.Goes front (.done a) ∧ (f a).Goes back u := by
  induction w generalizing xs with
  | done a => exact .inr ⟨[], xs, a, rfl, .refl _, h⟩
  | call c next ih =>
    cases h with
    | refl => exact .inl ⟨_, .refl _, rfl⟩
    | call rest =>
      obtain ⟨v, goes, rfl⟩ | ⟨front, back, a, rfl, goes, behind⟩ := ih _ rest
      · exact .inl ⟨v, .call goes, rfl⟩
      · exact .inr ⟨_, back, a, rfl, .call goes, behind⟩

theorem of_forget {u : Work Unit} (h : w.forget.Goes xs u) :
    ∃ v, w.Goes xs v ∧ u = v.forget := by
  obtain ⟨v, goes, rfl⟩ | ⟨front, back, a, rfl, goes, behind⟩ := of_bind h
  · exact ⟨v, goes, rfl⟩
  · obtain ⟨rfl, rfl⟩ := behind.of_done
    exact ⟨.done a, by simpa using goes, rfl⟩

end Goes

/-- That a work asks for a rebuild only where it has nothing else left to do. -/
def AsksLast : Work α → Prop
  | .done _ => True
  | .call .schedule next => ∀ answer, ∃ a, next answer = .done a
  | .call _ next => ∀ answer, (next answer).AsksLast

theorem AsksLast.goes {w v : Work α} {xs : List Exchange} (last : w.AsksLast) (h : w.Goes xs v) :
    v.AsksLast := by
  induction h with
  | refl => exact last
  | @call c next answer xs u _ ih =>
    cases c with
    | schedule =>
      obtain ⟨a, ha⟩ := last answer
      exact ih (ha ▸ trivial)
    | _ => exact ih (last answer)

section Inline

variable {ρ : Type} {rebuild : Work (Except Failure ρ)} {w : Work α} {xs : List Exchange}

/-- Work that runs rebuilds at once is where it would be without them, or has come to where it asks for
one and goes on from there. -/
theorem Goes.of_inline {u : Work α} (h : (inline rebuild w).Goes xs u) :
    (∃ v, w.Goes xs v ∧ u = inline rebuild v) ∨
      ∃ front back next, xs = front ++ back ∧ w.Goes front (.call .schedule next) ∧
        (inline rebuild (.call .schedule next)).Goes back u := by
  induction w generalizing xs with
  | done a =>
    obtain ⟨rfl, rfl⟩ := h.of_done
    exact .inl ⟨_, .refl _, rfl⟩
  | call c next ih =>
    cases c with
    | schedule => exact .inr ⟨[], xs, next, rfl, .refl _, h⟩
    | _ =>
      cases h with
      | refl => exact .inl ⟨_, .refl _, rfl⟩
      | call rest =>
        obtain ⟨v, goes, rfl⟩ | ⟨front, back, later, rfl, goes, behind⟩ := ih _ rest
        · exact .inl ⟨v, .call goes, rfl⟩
        · exact .inr ⟨_, back, later, rfl, .call goes, behind⟩

theorem Goes.inline (last : w.AsksLast) {next : Call.schedule.Answer → Work α}
    (h : w.Goes xs (.call .schedule next)) :
    (inline rebuild w).Goes xs (inline rebuild (.call .schedule next)) := by
  generalize ends : Work.call .schedule next = v at h
  induction h with
  | refl => exact .refl _
  | @call c next' answer xs u rest ih =>
    cases c with
    | schedule =>
      obtain ⟨a, ha⟩ := last answer
      rw [ha] at rest
      obtain ⟨-, rfl⟩ := rest.of_done
      cases ends
    | _ => exact .call (ih (last answer) ends)

/-- A rebuild that is run at once has the calls behind the place where it is asked for. -/
theorem Goes.of_inline_schedule (last : w.AsksLast) {front back : List Exchange}
    {next : Call.schedule.Answer → Work α} {u : Work α} (h : (Work.inline rebuild w).Goes (front ++ back) u)
    (asks : w.Goes front (.call .schedule next)) :
    ∃ v f, rebuild.Goes back v ∧ u = v.bind f ∧ ∀ r, ∃ a, f r = .done a := by
  have ends : ∀ r : Except Failure ρ,
      ∃ a, Work.inline rebuild (next (r.map fun _ => ())) = .done a := by
    intro r
    obtain ⟨a, ha⟩ := last.goes asks (r.map fun _ => ())
    exact ⟨a, by rw [ha]; rfl⟩
  obtain ⟨v, front, h⟩ := h.exists_split
  obtain rfl := (asks.inline last).unique front
  obtain ⟨v, goes, rfl⟩ | ⟨calls, none, r, rfl, goes, behind⟩ := h.of_bind
  · exact ⟨v, _, goes, rfl, ends⟩
  · obtain ⟨a, ha⟩ := ends r
    rw [ha] at behind
    obtain ⟨rfl, rfl⟩ := behind.of_done
    exact ⟨.done r, fun r => .done a, by simpa using goes, rfl, fun _ => ⟨a, rfl⟩⟩

end Inline

end Work
end EntityFeed
