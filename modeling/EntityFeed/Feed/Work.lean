import EntityFeed.Failure
import EntityFeed.Feed.Changes
import EntityFeed.Sql.Statement

/-! The work of a feed as a sequence of calls on its collaborators, each of which is one step. What
comes after a call depends on its answer. So works that run at the same time take turns between
calls, and any call can fail. -/
namespace EntityFeed

/-- A call on a collaborator: the database, the store of pending ids, the receiver of changes, or
whoever decides when a rebuild runs. -/
inductive Call where
  | query (q : Sql.Compiled)
  | add (ids : List String)
  | remove (ids : List String)
  /-- All pending ids, in batches. -/
  | snapshot
  | deliver (changes : Changes)
  | schedule

@[reducible] def Call.Answer : Call → Type
  | .query _ => Except Causes (List Row)
  | .add _ => Except Causes Unit
  | .remove _ => Except Causes Unit
  | .snapshot => Except Causes (List (List String))
  | .deliver _ => Except Causes Unit
  | .schedule => Except Failure Unit

inductive Work (α : Type) where
  | done (a : α)
  | call (c : Call) (next : c.Answer → Work α)

namespace Work

variable {α β : Type}

/-- Goes on with more work behind the end of one. -/
def bind : Work α → (α → Work β) → Work β
  | .done a, f => f a
  | .call c next, f => .call c fun answer => (next answer).bind f

instance : Monad Work where
  pure := .done
  bind := bind

/-- Runs work to its end, each call answered by `answer`. -/
def run {m : Type → Type} [Monad m] (answer : (c : Call) → m c.Answer) : Work α → m α
  | .done a => pure a
  | .call c next => do run answer (next (← answer c))

/-- The work in which a rebuild runs at once wherever one is asked for. -/
def inline {ρ : Type} (rebuild : Work (Except Failure ρ)) : Work α → Work α
  | .done a => .done a
  | .call .schedule next =>
    rebuild.bind fun result => inline rebuild (next (result.map fun _ => ()))
  | .call c next => .call c fun answer => inline rebuild (next answer)

@[simp] theorem done_bind (a : α) (f : α → Work β) : (Work.done a).bind f = f a := rfl

@[simp] theorem bind_done (t : Work α) : t.bind .done = t := by
  induction t with
  | done => rfl
  | call c next ih => simp [bind, ih]

end Work
end EntityFeed
