import EntityFeed.Proofs.Feed.Rebuilding
import EntityFeed.Proofs.Feed.Survival

/-! Nothing is lost when a call fails. The history of jobs that share a store tells for each of them
the calls that it has made; an id leaves the pending ones only after a rebuild has had it accepted. -/
namespace EntityFeed

/-- The jobs that share a store. -/
inductive Job where
  | receive (f : Feed) (e : ChangeEvent)
  | receiveInline (f : Feed) (e : ChangeEvent)
  | rebuild (f : Feed)
  | add (ids : List String)

namespace Job

def work : Job → Work Unit
  | receive f e => (f.receive e).forget
  | receiveInline f e => (Work.inline f.rebuild (f.receive e)).forget
  | rebuild f => f.rebuild.forget
  | add ids => .call (.add ids) fun _ => .done ()

theorem begun : (j : Job) → Begun j.work
  | receive f e => .receive f e
  | receiveInline f e => .receiveInline f e
  | rebuild f => .rebuild f
  | add ids => .add ids

/-- That a job with some calls has come to a rebuild, and the calls that it has made for it. -/
inductive Rebuilds : Job → List Exchange → Feed → List Exchange → Prop
  | alone {f : Feed} {xs : List Exchange} : Rebuilds (rebuild f) xs f xs
  | inline {f : Feed} {e : ChangeEvent} {front xs : List Exchange}
    {next : Except Failure Unit → Work (Except Failure (List String))}
    (asks : (f.receive e).Goes front (.call .schedule next)) :
    Rebuilds (receiveInline f e) (front ++ xs) f xs

end Job

/-- Work that is about to call is still in its first part if what is behind that makes no calls. -/
theorem Work.of_bind_call {α β : Type} {v : Work α} {f : α → Work β} {c : Call}
    {next : c.Answer → Work β} (dones : ∀ a, ∃ b, f a = .done b) (h : v.bind f = .call c next) :
    ∃ later, v = .call c later := by
  cases v with
  | done a =>
    obtain ⟨b, hb⟩ := dones a
    rw [Work.done_bind, hb] at h
    cases h
  | call c later =>
    cases h
    exact ⟨later, rfl⟩

theorem Work.Removeless.goes {α : Type} {w v : Work α} {xs : List Exchange} (h : w.Removeless)
    (hg : w.Goes xs v) : v.Removeless := by
  induction hg with
  | refl => exact h
  | call _ ih => exact ih (h.2 _)

theorem Work.Removeless.not_remove {α : Type} {ids : List String} {x : String} (hx : x ∈ ids)
    {next : Except Causes Unit → Work α} : ¬(Work.call (.remove ids) next).Removeless :=
  fun h => List.not_mem_nil (h.1 [] x hx)

namespace Feed

theorem asksLast_enqueue (ids : List String) : (enqueue ids).AsksLast := by
  have hr : ∀ ids, (request ids).AsksLast := by
    rintro ids (e | _)
    · exact ⟨.error e, rfl⟩
    · exact ⟨.ok ids, rfl⟩
  unfold enqueue
  dsimp only
  split
  · exact hr _
  · rintro (_ | _)
    · trivial
    · exact hr _

theorem asksLast_receive (f : Feed) (e : ChangeEvent) : (f.receive e).AsksLast := by
  unfold receive
  dsimp only
  split
  · exact asksLast_enqueue _
  · rintro (_ | _)
    · trivial
    · exact asksLast_enqueue _

end Feed

namespace Job

variable {j : Job} {f : Feed} {calls xs : List Exchange} {w : Work Unit}

theorem Rebuilds.goes (h : j.Rebuilds calls f xs) (hg : j.work.Goes calls w) :
    ∃ v, f.rebuild.Goes xs v := by
  cases h with
  | alone =>
    obtain ⟨v, goes, -⟩ := hg.of_forget
    exact ⟨v, goes⟩
  | @inline _ e front _ next asks =>
    obtain ⟨u, goes, -⟩ := hg.of_forget
    obtain ⟨v, g, goes, -⟩ := goes.of_inline_schedule (f.asksLast_receive e) asks
    exact ⟨v, goes⟩

/-- Only a rebuild comes to a removal. -/
theorem exists_rebuilds {ids : List String} {x : String} (hx : x ∈ ids)
    {next : Except Causes Unit → Work Unit} (hg : j.work.Goes calls (.call (.remove ids) next)) :
    ∃ f xs next, j.Rebuilds calls f xs ∧ f.rebuild.Goes xs (.call (.remove ids) next) := by
  cases j with
  | receive f e =>
    obtain ⟨v, goes, ends⟩ := hg.of_forget
    obtain ⟨next, rfl⟩ := Work.of_bind_call (fun _ => ⟨(), rfl⟩) ends.symm
    exact absurd ((f.removeless_receive e).goes goes) (Work.Removeless.not_remove hx)
  | receiveInline f e =>
    obtain ⟨u, goes, ends⟩ := hg.of_forget
    obtain ⟨next, rfl⟩ := Work.of_bind_call (fun _ => ⟨(), rfl⟩) ends.symm
    obtain ⟨front, back, later, rfl, asks⟩ : ∃ front back later, calls = front ++ back ∧
        (f.receive e).Goes front (.call .schedule later) := by
      obtain ⟨v, on, ends⟩ | ⟨front, back, later, rfl, asks, -⟩ := goes.of_inline
      · cases v with
        | done => cases ends
        | call c later =>
          cases c with
          | schedule => exact ⟨calls, [], later, (List.append_nil calls).symm, on⟩
          | remove =>
            cases ends
            exact absurd ((f.removeless_receive e).goes on) (Work.Removeless.not_remove hx)
          | _ => cases ends
      · exact ⟨front, back, later, rfl, asks⟩
    obtain ⟨v, g, goes, ends, dones⟩ := goes.of_inline_schedule (f.asksLast_receive e) asks
    obtain ⟨next, rfl⟩ := Work.of_bind_call dones ends.symm
    exact ⟨f, back, next, .inline asks, goes⟩
  | rebuild f =>
    obtain ⟨v, goes, ends⟩ := hg.of_forget
    obtain ⟨next, rfl⟩ := Work.of_bind_call (fun _ => ⟨(), rfl⟩) ends.symm
    exact ⟨f, calls, next, .alone, goes⟩
  | add ids =>
    cases hg with
    | call rest =>
      obtain ⟨-, ends⟩ := rest.of_done
      cases ends

end Job

/-- What happens among jobs: one begins, or the one with this number makes a call. -/
inductive Entry where
  | begins (j : Job)
  | calls (i : Nat) (x : Exchange)

namespace Entry

def job? : Entry → Option Job
  | begins j => some j
  | calls _ _ => none

def callOf? (i : Nat) : Entry → Option Exchange
  | begins _ => none
  | calls k x => if k = i then some x else none

end Entry

/-- The jobs of a history, each of which is numbered by its place. -/
def jobs (H : List Entry) : List Job := H.filterMap (·.job?)

/-- The calls of one job. -/
def callsOf (i : Nat) (H : List Entry) : List Exchange := H.filterMap (·.callOf? i)

section

variable (H : List Entry) (i : Nat) (j : Job) (x : Exchange)

@[simp] theorem jobs_begins : jobs (H ++ [.begins j]) = jobs H ++ [j] := List.filterMap_append

@[simp] theorem jobs_calls : jobs (H ++ [.calls i x]) = jobs H := by
  simp [jobs, Entry.job?]

@[simp] theorem callsOf_begins : callsOf i (H ++ [.begins j]) = callsOf i H := by
  simp [callsOf, Entry.callOf?]

@[simp] theorem callsOf_calls_self : callsOf i (H ++ [.calls i x]) = callsOf i H ++ [x] := by
  simp [callsOf, Entry.callOf?]

theorem callsOf_calls_of_ne {k : Nat} (h : k ≠ i) :
    callsOf i (H ++ [.calls k x]) = callsOf i H := by
  simp [callsOf, Entry.callOf?, h]

end

/-- That one of the jobs rebuilds for this feed, with the calls that it has made for it. -/
def Rebuilds (H : List Entry) (i : Nat) (f : Feed) (xs : List Exchange) : Prop :=
  ∃ j, (jobs H)[i]? = some j ∧ j.Rebuilds (callsOf i H) f xs

namespace World

inductive Steps : World → Entry → World → Prop
  | begins (W : World) (j : Job) :
    Steps W (.begins j) { W with tasks := W.tasks ++ [⟨j.work, none, []⟩] }
  | calls (W : World) (front back : List Task) (c : Call) (next : c.Answer → Work Unit)
    (asked : Option Nat) (accepted : List String) (answer : c.Answer)
    (ht : W.tasks = front ++ ⟨.call c next, asked, accepted⟩ :: back) (ha : W.Answers c answer) :
    Steps W (.calls front.length ⟨c, answer⟩)
      { W with
        store := (W.storeAfter c answer).1
        disk := (W.storeAfter c answer).2
        now := W.now + 1
        tasks := front ++ W.taskAfter c next asked accepted answer :: back }

end World

/-- The histories of jobs that share a store, with where they lead. -/
inductive Course : List Entry → World → Prop
  | start {W : World} (none : W.tasks = []) (sound : W.store.Sound) : Course [] W
  | step {H : List Entry} {W V : World} {E : Entry} (h : Course H W) (hs : W.Steps E V) :
    Course (H ++ [E]) V

/-- That a history accounts for the tasks of a world. -/
structure Accounts (H : List Entry) (W : World) : Prop where
  sound : W.Sound
  length : (jobs H).length = W.tasks.length
  none_before : ∀ i, W.tasks.length ≤ i → callsOf i H = []
  goes : ∀ (i : Nat) (j : Job) (t : Task), (jobs H)[i]? = some j → W.tasks[i]? = some t →
    j.work.Goes (callsOf i H) t.work

variable {H : List Entry} {W V : World} {E : Entry}

theorem World.Steps.sound (hw : W.Sound) (hs : W.Steps E V) : V.Sound := by
  cases hs with
  | begins j => exact hw.begins (.intro W j.begun)
  | calls front back c next asked accepted answer ht ha =>
    exact hw.calls (.intro W front back c next asked accepted answer ht ha)

theorem getElem?_replaced {front back : List Task} {t t' : Task} {i : Nat} (h : i ≠ front.length) :
    (front ++ t' :: back)[i]? = (front ++ t :: back)[i]? := by
  rcases Nat.lt_or_gt_of_ne h with hi | hi
  · rw [List.getElem?_append_left hi, List.getElem?_append_left hi]
  · obtain ⟨k, hk⟩ : ∃ k, i - front.length = k + 1 := ⟨i - front.length - 1, by omega⟩
    rw [List.getElem?_append_right (by omega), List.getElem?_append_right (by omega), hk,
      List.getElem?_cons_succ, List.getElem?_cons_succ]

theorem Accounts.step (h : Accounts H W) (hs : W.Steps E V) : Accounts (H ++ [E]) V := by
  have sound := hs.sound h.sound
  have length := h.length
  cases hs with
  | begins new =>
    refine ⟨sound, by simp [length], ?_, ?_⟩
    · intro i hi
      rw [List.length_append] at hi
      rw [callsOf_begins]
      exact h.none_before i (by omega)
    · intro i j t hj ht
      rw [jobs_begins] at hj
      rw [callsOf_begins]
      rcases Nat.lt_trichotomy i W.tasks.length with hi | rfl | hi
      · rw [List.getElem?_append_left hi] at ht
        rw [List.getElem?_append_left (length ▸ hi)] at hj
        exact h.goes i j t hj ht
      · rw [List.getElem?_concat_length, Option.some.injEq] at ht
        rw [← length, List.getElem?_concat_length, Option.some.injEq] at hj
        subst hj ht
        rw [h.none_before _ (Nat.le_refl _)]
        exact .refl _
      · have inside := (List.getElem?_eq_some_iff.mp ht).1
        rw [List.length_append, List.length_singleton] at inside
        omega
  | calls front back c next asked accepted answer ht ha =>
    refine ⟨sound, by simp [length, ht], ?_, ?_⟩
    · intro i hi
      rw [List.length_append, List.length_cons] at hi
      rw [callsOf_calls_of_ne _ _ _ (by omega)]
      refine h.none_before i ?_
      rw [ht, List.length_append, List.length_cons]
      exact hi
    · intro i j t hj hti
      rw [jobs_calls] at hj
      by_cases hi : i = front.length
      · subst hi
        have hwas : W.tasks[front.length]? = some ⟨.call c next, asked, accepted⟩ := by simp [ht]
        obtain rfl : W.taskAfter c next asked accepted answer = t := by simpa using hti
        rw [callsOf_calls_self]
        exact (h.goes _ j _ hj hwas).trans (.call (.refl _))
      · rw [getElem?_replaced hi, ← ht] at hti
        rw [callsOf_calls_of_ne _ _ _ (Ne.symm hi)]
        exact h.goes i j t hj hti

theorem Course.accounts (h : Course H W) : Accounts H W := by
  induction h with
  | start none sound =>
    refine ⟨⟨sound, ?_, ?_⟩, ?_, ?_, ?_⟩ <;> simp [none, jobs, callsOf]
  | step _ hs ih => exact ih.step hs

/-- A failed call changes nothing. -/
theorem World.Steps.pending_of_fails {i : Nat} {x : Exchange} (hx : x.Fails)
    (hs : W.Steps (.calls i x) V) : V.pending = W.pending := by
  cases hs with
  | calls front back c next asked accepted answer ht ha =>
    cases c with
    | add | remove =>
      cases answer with
      | error => rfl
      | ok => cases hx
    | _ => rfl

/-- An id leaves the pending ones only where a rebuild removes a batch that it has had accepted. -/
theorem Accounts.removed {x : String} (h : Accounts H W) (hs : W.Steps E V) (hx : x ∈ W.pending)
    (hv : x ∉ V.pending) :
    ∃ i f ids batches calls changes, E = .calls i ⟨.remove ids, .ok ()⟩ ∧ x ∈ ids ∧
      Rebuilds H i f (⟨.snapshot, .ok batches⟩ :: calls) ∧ ids ∈ batches ∧
      changes ∈ accepted calls ∧ x ∈ changes.ids := by
  cases hs with
  | begins => exact absurd hx hv
  | calls front back c next asked accepted answer ht ha =>
    obtain hp | ⟨ids, asked', happens, hi, -⟩ :=
      World.Calls.mem_pending h.sound (.intro W front back c next asked accepted answer ht ha) hx
    · exact absurd hp hv
    · cases happens
      have hwas : W.tasks[front.length]? = some ⟨.call (.remove ids) next, asked, accepted⟩ := by
        simp [ht]
      obtain ⟨j, hj⟩ : ∃ j, (jobs H)[front.length]? = some j := by
        have inside := (List.getElem?_eq_some_iff.mp hwas).1
        exact ⟨_, List.getElem?_eq_getElem (h.length ▸ inside)⟩
      obtain ⟨f, xs, next', rebuilds, goes⟩ := Job.exists_rebuilds hi (h.goes _ j _ hj hwas)
      obtain ⟨batches, calls, changes, rfl, hb, hc, perm⟩ := Feed.goes_rebuild_remove goes
      exact ⟨front.length, f, ids, batches, calls, changes, rfl, hi, ⟨j, hj, rebuilds⟩, hb, hc,
        perm.mem_iff.mpr hi⟩

/-- What is pending gets delivered at least once, whatever fails. An id leaves the pending ones only
where a rebuild removes a batch of its snapshot that it has had accepted; a failed call takes nothing
away; and a rebuild fails as soon as one of its calls does, and has then delivered and removed the
batches in front of the one that it was at, else all of them. -/
theorem Course.delivers_before_removing (h : Course H W) :
    (∀ E V x, W.Steps E V → x ∈ W.pending → x ∉ V.pending →
      ∃ i f ids batches calls changes, E = .calls i ⟨.remove ids, .ok ()⟩ ∧ x ∈ ids ∧
        Rebuilds H i f (⟨.snapshot, .ok batches⟩ :: calls) ∧ ids ∈ batches ∧
        changes ∈ accepted calls ∧ x ∈ changes.ids) ∧
      (∀ i x V, x.Fails → W.Steps (.calls i x) V → V.pending = W.pending) ∧
      ∀ i f xs, Rebuilds H i f xs →
        ∃ w, f.rebuild.Goes xs w ∧ ((∃ x ∈ xs, x.Fails) → ∃ e, w = .done (.error e)) ∧
          (∀ e, w = .done (.error e) → f.Stops xs e) ∧
          ∀ r, w = .done (.ok r) → ∃ batches calls, xs = ⟨.snapshot, .ok batches⟩ :: calls ∧
            Decides (accepted calls) batches ∧ removed calls = batches := by
  refine ⟨fun E V x hs hx hv => h.accounts.removed hs hx hv,
    fun i x V hx hs => hs.pending_of_fails hx, ?_⟩
  rintro i f xs ⟨j, hj, rebuilds⟩
  obtain ⟨t, ht⟩ : ∃ t, W.tasks[i]? = some t := by
    have inside := (List.getElem?_eq_some_iff.mp hj).1
    exact ⟨_, List.getElem?_eq_getElem (h.accounts.length ▸ inside)⟩
  obtain ⟨w, goes⟩ := rebuilds.goes (h.accounts.goes i j t hj ht)
  refine ⟨w, goes, fun ⟨x, hx, fails⟩ => Feed.error_of_goes_rebuild goes hx fails, ?_, ?_⟩
  · rintro e rfl
    exact Feed.stops_of_goes_rebuild goes
  · rintro r rfl
    exact Feed.complete_of_goes_rebuild goes

/-- A rebuild of the names of users that has had an id accepted removes it. -/
theorem exists_course_removing :
    ∃ H W V, Course H W ∧ "a" ∈ W.pending ∧ W.Steps (.calls 1 ⟨.remove ["a"], .ok ()⟩) V ∧
      "a" ∉ V.pending := by
  have added : (World.idle.storeAfter (.add ["a"]) (.ok ())).1.snapshot World.idle.disk = ["a"] := by
    simp [World.storeAfter, World.idle, Pending.Store.empty, Pending.Store.add,
      Pending.Store.snapshot, Pending.MemorySet.add, Pending.MemorySet.insert,
      Pending.MemorySet.snapshot]
  have found : [["a"]] = Pending.batches World.idle.batchSize
      ((World.idle.storeAfter (.add ["a"]) (.ok ())).1.snapshot World.idle.disk) := by
    simp [added, Pending.batches]
  have start : Course [] World.idle := .start rfl Pending.Store.sound_empty
  have begun := (start.step (.begins _ (.add ["a"]))).step (.begins _ (.rebuild userNames))
  have adds := begun.step (.calls _ [] _ (.add ["a"]) _ none [] (.ok ()) rfl trivial)
  have sees := adds.step (.calls _ [_] _ .snapshot _ none [] (.ok [["a"]]) rfl found)
  have asks := sees.step (.calls _ [_] _ (.query _) _ none []
    (.ok [[("id", .str "a"), ("object", .str "Ann")]]) rfl trivial)
  have delivers := asks.step (.calls _ [_] _ (.deliver ⟨[⟨"a", .str "Ann"⟩], []⟩) _ (some 2) []
    (.ok ()) rfl trivial)
  refine ⟨_, _, _, delivers, List.mem_of_mem_head? (congrArg List.head? added),
    .calls _ [_] _ (.remove ["a"]) _ (some 2) _ (.ok ()) rfl trivial, ?_⟩
  intro still
  exact (delivers.accounts.sound.store.mem_snapshot_remove.mp still).2 List.mem_cons_self

/-- It has had it accepted in changes for a batch of its snapshot. -/
theorem userNames_delivers_before_removing :
    ∃ H W V, Course H W ∧ "a" ∈ W.pending ∧ W.Steps (.calls 1 ⟨.remove ["a"], .ok ()⟩) V ∧
      "a" ∉ V.pending ∧ ∃ f batches calls changes,
        Rebuilds H 1 f (⟨.snapshot, .ok batches⟩ :: calls) ∧ ["a"] ∈ batches ∧
          changes ∈ accepted calls ∧ "a" ∈ changes.ids := by
  obtain ⟨H, W, V, course, before, removes, after⟩ := exists_course_removing
  obtain ⟨i, f, ids, batches, calls, changes, at_, -, rebuilds, hb, hc, hx⟩ :=
    course.delivers_before_removing.1 _ V "a" removes before after
  cases at_
  exact ⟨H, W, V, course, before, removes, after, f, batches, calls, changes, rebuilds, hb, hc, hx⟩

end EntityFeed
