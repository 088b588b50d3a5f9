import EntityFeed.Proofs.Feed.Rebuilding
import EntityFeed.Proofs.Pending.Sharing

/-! A work that has a store to itself. Those that it calls on answer as they will, by all that has been
called before; the store alone says what is pending, and a call that fails does not change it. -/
namespace EntityFeed
open Pending

namespace Pending.Store

variable {s : Store} {d : Disk}

/-- An operation leaves a store in order, and what is pending changes as an ordered set does. -/
theorem Exact.after (h : s.Exact d) (op : Operation) :
    (s.after d op).1.Exact (s.after d op).2 ∧
      (s.after d op).1.snapshot (s.after d op).2 = Ordered.after (s.snapshot d) op := by
  suffices inside : (s.after d op).1.Exact (s.after d op).2 ∧
      (s.after d op).1.ids (s.after d op).2 = Ordered.after (s.ids d) op by
    rw [inside.1.snapshot_eq, h.snapshot_eq]
    exact inside
  cases s with
  | memory m =>
    obtain ⟨m', after, exact', order⟩ := after_memory h d op
    rw [after]
    exact ⟨exact', order⟩
  | database hd =>
    obtain ⟨u, d', after, changes, ids, tables⟩ := after_database h op
    have own : tableOf d' hd.file = u := by rw [tables, if_pos rfl]
    rw [after]
    refine ⟨?_, ?_⟩
    · change (tableOf d' hd.file).Sound
      exact own ▸ changes.sound
    · change (tableOf d' hd.file).ids hd.key = _
      exact own ▸ ids

theorem Exact.nodup (h : s.Exact d) : (s.snapshot d).Nodup := by
  rw [h.snapshot_eq]
  cases s with
  | memory m => exact h.nodup
  | database hd => exact Table.Sound.nodup_ids h hd.key

end Pending.Store

/-- A store with the calls that a work has made so far. -/
structure Desk where
  store : Store
  disk : Disk
  calls : List Exchange := []

/-- Those that a work calls on: what each replies to a call, after the calls that there have been. A
store that does not reply with an error does what it is asked for. -/
structure Company where
  batchSize : Nat
  reply : List Exchange → (c : Call) → c.Answer

namespace Desk

def pending (D : Desk) : List String := D.store.snapshot D.disk

/-- That the store is in order, as a store is that has been opened and used by its own operations. -/
def Exact (D : Desk) : Prop := D.store.Exact D.disk

def storeAfter (D : Desk) : (c : Call) → c.Answer → Store × Disk
  | .add ids, .ok () => D.store.add D.disk ids
  | .remove ids, .ok () => D.store.remove D.disk ids
  | _, _ => (D.store, D.disk)

/-- The desk after one more call. -/
def after (D : Desk) (c : Call) (answer : c.Answer) : Desk where
  store := (D.storeAfter c answer).1
  disk := (D.storeAfter c answer).2
  calls := D.calls ++ [⟨c, answer⟩]

end Desk

namespace Company

def answer (K : Company) (D : Desk) : (c : Call) → c.Answer
  | .snapshot => (K.reply D.calls .snapshot).map fun _ => batches K.batchSize D.pending
  | c => K.reply D.calls c

def serve (K : Company) (c : Call) : StateM Desk c.Answer := fun D =>
  (K.answer D c, D.after c (K.answer D c))

/-- That nobody fails. -/
def Willing (K : Company) : Prop := ∀ calls c, ¬ Exchange.Fails ⟨c, K.reply calls c⟩

end Company

/-- What a work comes to that nobody else interferes with, and how it leaves the store. -/
def Work.alone {α : Type} (K : Company) (w : Work α) (D : Desk) : α × Desk := (w.run K.serve) D

namespace Desk

variable {D : Desk}

@[simp] theorem calls_after (D : Desk) (c : Call) (answer : c.Answer) :
    (D.after c answer).calls = D.calls ++ [⟨c, answer⟩] := rfl

theorem pending_add (h : D.Exact) (ids : List String) :
    (D.after (.add ids) (.ok ())).Exact ∧
      (D.after (.add ids) (.ok ())).pending = Ordered.add D.pending ids :=
  Store.Exact.after h (.add ids)

theorem pending_remove (h : D.Exact) (ids : List String) :
    (D.after (.remove ids) (.ok ())).Exact ∧
      (D.after (.remove ids) (.ok ())).pending = Ordered.remove D.pending ids :=
  Store.Exact.after h (.remove ids)

end Desk

namespace Work

variable {α β : Type} {K : Company}

@[simp] theorem alone_done (a : α) (D : Desk) : (Work.done a).alone K D = (a, D) := rfl

theorem alone_call (c : Call) (next : c.Answer → Work α) (D : Desk) :
    (Work.call c next).alone K D =
      (next (K.answer D c)).alone K (D.after c (K.answer D c)) := rfl

theorem alone_bind (w : Work α) (f : α → Work β) (D : Desk) :
    (w.bind f).alone K D = (f (w.alone K D).1).alone K (w.alone K D).2 := by
  induction w generalizing D with
  | done a => rfl
  | call c next ih => exact ih _ _

end Work
end EntityFeed
