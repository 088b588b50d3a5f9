import EntityFeed.Pending.Batches
import EntityFeed.Proofs.Feed.Orderly
import EntityFeed.Proofs.Pending.Store

/-! Works that take turns on one store. Each of their calls is one step, and any call can fail; a
failed call changes nothing. -/
namespace EntityFeed
open Pending

/-- A work with its end left out. -/
def Work.forget {α : Type} (w : Work α) : Work Unit := w.bind fun _ => .done ()

theorem Work.Orderly.forget {α : Type} {w : Work α} {held : List String} (h : w.Orderly held) :
    w.forget.Orderly held :=
  h.bind fun _ _ => trivial

/-- The works that share a store: events that are taken in, with the rebuild left to others or run at
once, rebuilds, and ids that are added directly. -/
inductive Begun : Work Unit → Prop
  | receive (f : Feed) (e : ChangeEvent) : Begun (f.receive e).forget
  | receiveInline (f : Feed) (e : ChangeEvent) : Begun (Work.inline f.rebuild (f.receive e)).forget
  | rebuild (f : Feed) : Begun f.rebuild.forget
  | add (ids : List String) : Begun (.call (.add ids) fun _ => .done ())

theorem Begun.orderly {w : Work Unit} (h : Begun w) : w.Orderly [] := by
  cases h with
  | receive f e => exact ((f.removeless_receive e).orderly []).forget
  | receiveInline f e => exact ((f.removeless_receive e).orderly_inline f.orderly_rebuild []).forget
  | rebuild f => exact (f.orderly_rebuild []).forget
  | add ids => exact ⟨trivial, fun _ => trivial⟩

/-- A work in the midst of its calls. -/
structure Task where
  work : Work Unit
  /-- When it last queried. -/
  asked : Option Nat
  /-- The ids that it has had accepted since then. -/
  accepted : List String

/-- A call that a task has made, with the answer. -/
structure Happening where
  call : Call
  answer : call.Answer
  /-- When the task last queried before. -/
  asked : Option Nat

structure World where
  store : Store
  disk : Disk
  batchSize : Nat
  /-- How many calls there have been. -/
  now : Nat
  tasks : List Task

namespace World

def pending (W : World) : List String := W.store.snapshot W.disk

def storeAfter (W : World) : (c : Call) → c.Answer → Store × Disk
  | .add ids, .ok () => W.store.add W.disk ids
  | .remove ids, .ok () => W.store.remove W.disk ids
  | _, _ => (W.store, W.disk)

/-- Whether a call can be answered so. The store tells what is pending; others answer as they will. -/
def Answers (W : World) : (c : Call) → c.Answer → Prop
  | .snapshot, .ok found => found = batches W.batchSize W.pending
  | _, _ => True

def taskAfter (W : World) (c : Call) (next : c.Answer → Work Unit) (asked : Option Nat)
    (accepted : List String) (answer : c.Answer) : Task :=
  ⟨next answer, match c with | .query _ => some W.now | _ => asked, c.accepted answer accepted⟩

inductive Begins : World → World → Prop
  | intro (W : World) {w : Work Unit} (h : Begun w) :
    Begins W { W with tasks := W.tasks ++ [⟨w, none, []⟩] }

inductive Calls : World → Happening → World → Prop
  | intro (W : World) (front back : List Task) (c : Call) (next : c.Answer → Work Unit)
    (asked : Option Nat) (accepted : List String) (answer : c.Answer)
    (ht : W.tasks = front ++ ⟨.call c next, asked, accepted⟩ :: back) (ha : W.Answers c answer) :
    Calls W ⟨c, answer, asked⟩
      { W with
        store := (W.storeAfter c answer).1
        disk := (W.storeAfter c answer).2
        now := W.now + 1
        tasks := front ++ W.taskAfter c next asked accepted answer :: back }

end World

/-- Some steps from one world to another, with the calls that were made. -/
inductive Run : World → List Happening → World → Prop
  | refl (W : World) : Run W [] W
  | begin {W V V' : World} {hs : List Happening} (h : Run W hs V) (hb : V.Begins V') : Run W hs V'
  | call {W V V' : World} {hs : List Happening} {h : Happening} (hr : Run W hs V)
    (hc : V.Calls h V') : Run W (hs ++ [h]) V'

/-- That a world has come about by the works that share its store. -/
def World.Reachable (W : World) : Prop :=
  ∃ start hs, start.tasks = [] ∧ start.store.Sound ∧ Run start hs W

namespace World

/-- What holds throughout. -/
structure Sound (W : World) : Prop where
  store : W.store.Sound
  orderly : ∀ t ∈ W.tasks, t.work.Orderly t.accepted
  asked : ∀ t ∈ W.tasks, ∀ q, t.asked = some q → q < W.now

variable {W V : World} {h : Happening}

theorem Sound.begins (hw : W.Sound) (hb : W.Begins V) : V.Sound := by
  cases hb with
  | intro hbegun =>
    refine ⟨hw.store, ?_, ?_⟩
    · intro t ht
      rcases List.mem_append.mp ht with ht | ht
      · exact hw.orderly t ht
      · rw [List.mem_singleton.mp ht]
        exact hbegun.orderly
    · intro t ht q hq
      rcases List.mem_append.mp ht with ht | ht
      · exact hw.asked t ht q hq
      · rw [List.mem_singleton.mp ht] at hq
        contradiction

theorem Sound.storeAfter (hw : W.Sound) (c : Call) (answer : c.Answer) :
    (W.storeAfter c answer).1.Sound := by
  unfold World.storeAfter
  split
  · exact hw.store.add _ _
  · exact hw.store.remove _ _
  · exact hw.store

/-- Each task after a call was there before or is the one that made the call. -/
theorem mem_tasks_replaced {front back : List Task} {t t' u : Task}
    (hu : u ∈ front ++ t' :: back) : u ∈ front ++ t :: back ∨ u = t' := by
  rcases List.mem_append.mp hu with hu | hu
  · exact .inl (List.mem_append_left _ hu)
  · rcases List.mem_cons.mp hu with rfl | hu
    · exact .inr rfl
    · exact .inl (List.mem_append_right _ (List.mem_cons_of_mem _ hu))

theorem Sound.calls (hw : W.Sound) (hc : W.Calls h V) : V.Sound := by
  cases hc with
  | intro front back c next asked accepted answer ht ha =>
    have hmem : (⟨.call c next, asked, accepted⟩ : Task) ∈ W.tasks :=
      ht ▸ List.mem_append_right _ List.mem_cons_self
    refine ⟨hw.storeAfter c answer, ?_, ?_⟩
    · intro t hm
      rcases mem_tasks_replaced hm with hm | rfl
      · exact hw.orderly t (ht ▸ hm)
      · exact (hw.orderly _ hmem).2 answer
    · intro t hm q hq
      rcases mem_tasks_replaced hm with hm | rfl
      · exact Nat.lt_succ_of_lt (hw.asked t (ht ▸ hm) q hq)
      · have hold := hw.asked _ hmem q
        cases c with
        | query c =>
          cases hq
          exact Nat.lt_succ_self _
        | _ => exact Nat.lt_succ_of_lt (hold hq)

theorem Sound.run {hs : List Happening} (hw : W.Sound) (hr : Run W hs V) : V.Sound := by
  induction hr with
  | refl => exact hw
  | begin _ hb ih => exact ih.begins hb
  | call _ hc ih => exact ih.calls hc

theorem Reachable.sound (hw : W.Reachable) : W.Sound := by
  obtain ⟨start, hs, ht, hstore, hr⟩ := hw
  have hstart : start.Sound := by
    refine ⟨hstore, ?_, ?_⟩ <;> rw [ht] <;> nofun
  exact hstart.run hr

end World
end EntityFeed
