import EntityFeed.Feed.Background
import EntityFeed.Proofs.Feed.Delivery

/-! Rebuilds in the background miss no request. Events are taken in side by side, and each asks for a
rebuild behind its addition; a worker takes rebuilds out of a queue and runs them one at a time. A
request that finds one waiting is covered by it, since that one has not yet asked for the pending ids.
-/
namespace EntityFeed

/-- What happens where a worker rebuilds in the background. -/
inductive Deed where
  | job (E : Entry)
  /-- The worker takes a rebuild out of the queue. It becomes the job with this number. -/
  | starts (k : Nat) (f : Feed)
  | ends (k : Nat)
  /-- A shutdown has begun: requests are no longer accepted. -/
  | closes
  /-- A shutdown takes the handle of the worker. -/
  | takes
  /-- The shutdown that has taken the handle has awaited the end of the worker and returns. -/
  | stops
  /-- A shutdown that has found no handle returns. -/
  | returns

def Deed.ofJobs? : Deed → Option Entry
  | job E => some E
  | starts _ f => some (.begins (.rebuild f))
  | _ => none

/-- What happens among the jobs, those of the worker included. -/
def entries (H : List Deed) : List Entry := H.filterMap (·.ofJobs?)

structure Workshop where
  world : World
  scheduler : Background
  /-- The rebuilds that wait for the worker. -/
  queue : List Feed
  /-- The rebuilds that the worker has started and that have not ended. -/
  running : List Nat

/-- Whether a job comes from outside: an event that is taken in, or ids that are added directly. -/
def Job.comes : Job → Bool
  | receive _ _ | add _ => true
  | _ => false

namespace Workshop

/-- What can happen next after a history. No rebuild breaks off. -/
inductive Moves (H : List Deed) : Workshop → Deed → Workshop → Prop
  | begins {S : Workshop} {j : Job} {V : World} (hj : j.comes = true)
    (hs : S.world.Steps (.begins j) V) : Moves H S (.job (.begins j)) { S with world := V }
  | calls {S : Workshop} {i : Nat} {x : Exchange} {V : World} (other : x.call ≠ .schedule)
    (hs : S.world.Steps (.calls i x) V) : Moves H S (.job (.calls i x)) { S with world := V }
  /-- A request is accepted. Its rebuild is queued, unless one waits already. -/
  | queues {S : Workshop} {i : Nat} {f : Feed} {e : ChangeEvent} {b : Background} {V : World}
    (asks : (jobs (entries H))[i]? = some (.receive f e)) (accepted : S.scheduler.request = .ok b)
    (hs : S.world.Steps (.calls i ⟨.schedule, .ok ()⟩) V) :
    Moves H S (.job (.calls i ⟨.schedule, .ok ()⟩))
      ⟨V, b, if S.scheduler.waiting then S.queue else S.queue ++ [f], S.running⟩
  | refuses {S : Workshop} {i : Nat} {fault : SchedulerFault} {V : World}
    (refused : S.scheduler.request = .error fault)
    (hs : S.world.Steps (.calls i ⟨.schedule, .error (.scheduler fault.causes)⟩) V) :
    Moves H S (.job (.calls i ⟨.schedule, .error (.scheduler fault.causes)⟩))
      { S with world := V }
  | starts {S : Workshop} {f : Feed} {rest : List Feed} {b : Background} {V : World}
    (hb : S.scheduler.start? = some b) (hq : S.queue = f :: rest)
    (hs : S.world.Steps (.begins (.rebuild f)) V) :
    Moves H S (.starts S.world.tasks.length f)
      ⟨V, b, rest, S.running ++ [S.world.tasks.length]⟩
  | ends {S : Workshop} {k : Nat} {t : Task} (hk : k ∈ S.running)
    (ht : S.world.tasks[k]? = some t) (done : t.work = .done ()) :
    Moves H S (.ends k) { S with scheduler := S.scheduler.finish, running := S.running.erase k }
  | closes {S : Workshop} : Moves H S .closes { S with scheduler := S.scheduler.close }
  | takes {S : Workshop} {b : Background} (closed : S.scheduler.accepting = false)
    (taken : S.scheduler.take? = some b) : Moves H S .takes { S with scheduler := b }
  | stops {S : Workshop} {b : Background} (taken : S.scheduler.take? = none)
    (first : S.scheduler.worker ≠ .awaited) (ended : S.scheduler.ended = true)
    (awaited : S.scheduler.await = (.ok (), b)) : Moves H S .stops { S with scheduler := b }
  /-- Another shutdown has the handle, or had it and was given up, so that there is nothing to await. -/
  | returns {S : Workshop} (closed : S.scheduler.accepting = false)
    (taken : S.scheduler.take? = none) : Moves H S .returns S

end Workshop

/-- The histories of a worker and the jobs beside it, with where they lead. -/
inductive Shift : List Deed → Workshop → Prop
  | start {W : World} (none : W.tasks = []) (sound : W.store.Sound) : Shift [] ⟨W, {}, [], []⟩
  | next {H : List Deed} {S T : Workshop} {D : Deed} (h : Shift H S) (move : S.Moves H D T) :
    Shift (H ++ [D]) T

/-- What holds behind a deed of a history if it holds right behind it and every move keeps it. -/
theorem Shift.since {P : List Deed → Workshop → Prop} {H H₁ H₂ : List Deed} {D : Deed} {S : Workshop}
    (h : Shift H S) (hH : H = H₁ ++ D :: H₂)
    (first : ∀ S T, Shift H₁ S → S.Moves H₁ D T → P [] T)
    (next : ∀ H₂ S E T, Shift (H₁ ++ D :: H₂) S → S.Moves (H₁ ++ D :: H₂) E T → P H₂ S →
      P (H₂ ++ [E]) T) : P H₂ S := by
  induction h generalizing H₂ with
  | start => simp at hH
  | @next H S T E h move ih =>
    rcases List.eq_nil_or_concat H₂ with rfl | ⟨H₃, D', rfl⟩
    · obtain ⟨rfl, he⟩ := List.append_inj' hH rfl
      obtain rfl := List.head_eq_of_cons_eq he
      exact first S T h move
    · have he : H ++ [E] = (H₁ ++ D :: H₃) ++ [D'] := by simpa using hH
      obtain ⟨rfl, hd⟩ := List.append_inj' he rfl
      obtain rfl := List.head_eq_of_cons_eq hd
      rw [List.concat_eq_append]
      exact next H₃ S E T h move (ih rfl)

section Entries

variable (H : List Deed)

@[simp] theorem entries_job (E : Entry) : entries (H ++ [.job E]) = entries H ++ [E] :=
  List.filterMap_append

@[simp] theorem entries_starts (k : Nat) (f : Feed) :
    entries (H ++ [.starts k f]) = entries H ++ [.begins (.rebuild f)] := List.filterMap_append

@[simp] theorem entries_ends (k : Nat) : entries (H ++ [.ends k]) = entries H := by
  simp [entries, Deed.ofJobs?]

@[simp] theorem entries_closes : entries (H ++ [.closes]) = entries H := by
  simp [entries, Deed.ofJobs?]

@[simp] theorem entries_takes : entries (H ++ [.takes]) = entries H := by
  simp [entries, Deed.ofJobs?]

@[simp] theorem entries_stops : entries (H ++ [.stops]) = entries H := by
  simp [entries, Deed.ofJobs?]

@[simp] theorem entries_returns : entries (H ++ [.returns]) = entries H := by
  simp [entries, Deed.ofJobs?]

theorem getElem?_append_of_eq_some {α : Type} {l : List α} {k : Nat} {a : α} (h : l[k]? = some a)
    (more : List α) : (l ++ more)[k]? = some a := by
  rw [List.getElem?_append_left (List.getElem?_eq_some_iff.mp h).1, h]

theorem eq_some_of_concat {α : Type} {l : List α} {k : Nat} {a b : α}
    (h : (l ++ [a])[k]? = some b) : l[k]? = some b ∨ k = l.length ∧ b = a := by
  have inside := (List.getElem?_eq_some_iff.mp h).1
  rw [List.length_append, List.length_singleton] at inside
  rcases Nat.lt_or_eq_of_le (Nat.le_of_lt_succ inside) with hk | rfl
  · rw [List.getElem?_append_left hk] at h
    exact .inl h
  · rw [List.getElem?_concat_length, Option.some.injEq] at h
    exact .inr ⟨rfl, h.symm⟩

end Entries

namespace Background

variable {b b' : Background}

theorem of_request_ok (h : b.request = .ok b') :
    b.accepting = true ∧ b' = { b with waiting := true } := by
  unfold request at h
  split at h
  · cases h
  · rename_i open_
    split at h
    · cases h
    · cases h
      exact ⟨by simpa using open_, rfl⟩

theorem of_request_error {fault : SchedulerFault} (h : b.request = .error fault)
    (whole : b.worker ≠ .crashed) : b.accepting = false ∧ fault = .shutDown := by
  cases open_ : b.accepting with
  | true => simp [request, open_, whole] at h
  | false =>
    simp only [request, open_, Bool.not_false, if_true, Except.error.injEq] at h
    exact ⟨rfl, h.symm⟩

theorem of_start?_some (h : b.start? = some b') :
    b.worker = .idle ∧ b.waiting = true ∧ b' = { b with waiting := false, worker := .running } := by
  unfold start? at h
  split at h
  · rename_i ready
    cases h
    exact ⟨ready.1, ready.2, rfl⟩
  · cases h

theorem finish_of_running (h : b.worker = .running) : b.finish = { b with worker := .idle } :=
  if_pos h

theorem accepting_finish (b : Background) : b.finish.accepting = b.accepting := by
  unfold finish
  split <;> rfl

theorem waiting_finish (b : Background) : b.finish.waiting = b.waiting := by
  unfold finish
  split <;> rfl

theorem of_take?_some (h : b.take? = some b') : b' = { b with handle := false } := by
  unfold take? at h
  split at h <;> cases h
  rfl

theorem of_take?_none (h : b.take? = none) : b.handle = false := by
  simpa [take?] using h

theorem of_ended (h : b.ended = true) :
    b.accepting = false ∧ b.waiting = false ∧ b.worker ≠ .running := by
  simpa [ended, and_assoc] using h

theorem of_await_ok (h : b.await = (.ok (), b')) : b' = { b with worker := .awaited } :=
  (Prod.mk.inj h).2.symm

end Background

namespace Work

theorem AsksLast.forget {α : Type} {w : Work α} (h : w.AsksLast) : w.forget.AsksLast := by
  induction w with
  | done a => trivial
  | call c next ih =>
    cases c with
    | schedule =>
      intro answer
      obtain ⟨a, ha⟩ := h answer
      refine ⟨(), ?_⟩
      change (next answer).bind _ = _
      rw [ha]
      rfl
    | _ => exact fun answer => ih answer (h answer)

/-- Behind the request for a rebuild there are no calls. -/
theorem AsksLast.eq_nil {α : Type} {w v : Work α} {front back : List Exchange}
    {answer : Call.schedule.Answer} (last : w.AsksLast)
    (h : w.Goes (front ++ ⟨.schedule, answer⟩ :: back) v) : back = [] := by
  obtain ⟨u, first, h⟩ := h.exists_split
  cases h with
  | call rest =>
    obtain ⟨a, ha⟩ := last.goes first answer
    rw [ha] at rest
    exact rest.of_done.1

end Work

namespace Feed

theorem asksLast_rebuildBatches (f : Feed) (r : Report) (batches : List (List String)) :
    (f.rebuildBatches r batches).AsksLast := by
  induction batches generalizing r with
  | nil => trivial
  | cons ids rest ih =>
    rintro (_ | rows)
    · trivial
    rintro (_ | _)
    · trivial
    rintro (_ | _)
    · trivial
    · exact ih _

theorem asksLast_rebuild (f : Feed) : f.rebuild.AsksLast := by
  rintro (_ | batches)
  · trivial
  · exact f.asksLast_rebuildBatches {} batches

/-- A rebuild first asks for the pending ids. -/
theorem exists_snapshot {f : Feed} {x : Exchange} {xs : List Exchange} {w : Work Unit}
    (h : f.rebuild.forget.Goes (x :: xs) w) : ∃ r, x = ⟨.snapshot, r⟩ := by
  cases h with
  | call rest => exact ⟨_, rfl⟩

end Feed

theorem Job.asksLast_of_kind {j : Job} (h : j.comes = true ∨ ∃ f, j = .rebuild f) :
    j.work.AsksLast := by
  cases j with
  | receive f e => exact (f.asksLast_receive e).forget
  | add ids => exact fun _ => trivial
  | rebuild f => exact f.asksLast_rebuild.forget
  | receiveInline f e => simp [comes] at h

/-- A task before a call was the same, or was the one that made the call. -/
theorem World.Steps.exists_task {W V : World} {i k : Nat} {x : Exchange} {t : Task}
    (hs : W.Steps (.calls i x) V) (ht : V.tasks[k]? = some t) :
    ∃ u, W.tasks[k]? = some u ∧ (u = t ∨ k = i ∧ u.work ≠ .done ()) := by
  cases hs with
  | calls front back c next asked accepted answer tasks ha =>
    by_cases hk : k = front.length
    · exact ⟨⟨.call c next, asked, accepted⟩, by simp [tasks, hk], .inr ⟨hk, nofun⟩⟩
    · rw [getElem?_replaced hk, ← tasks] at ht
      exact ⟨t, ht, .inl rfl⟩

/-- What holds of a workshop after a history. -/
structure Workshop.Sound (H : List Deed) (S : Workshop) : Prop where
  accounts : Accounts (entries H) S.world
  waits : S.queue.length = if S.scheduler.waiting then 1 else 0
  runs : S.running.length = if S.scheduler.worker = .running then 1 else 0
  whole : S.scheduler.worker ≠ .crashed
  rebuilds : ∀ k ∈ S.running, ∃ f, (jobs (entries H))[k]? = some (.rebuild f)
  finished : ∀ (k : Nat) (f : Feed) (t : Task), (jobs (entries H))[k]? = some (.rebuild f) →
    S.world.tasks[k]? = some t → k ∈ S.running ∨ t.work = .done ()
  kinds : ∀ j ∈ jobs (entries H), j.comes = true ∨ ∃ f, j = .rebuild f

namespace Workshop

variable {H : List Deed} {S : Workshop} {V : World}

/-- The job that begins is the last one, and the others are as they were. -/
theorem Sound.finished_begins (h : S.Sound H) {j : Job} (hs : S.world.Steps (.begins j) V) {k : Nat}
    {f : Feed} {t : Task} (hj : (jobs (entries H) ++ [j])[k]? = some (.rebuild f))
    (ht : V.tasks[k]? = some t) :
    k ∈ S.running ∨ t.work = .done () ∨ k = S.world.tasks.length ∧ j = .rebuild f := by
  cases hs with
  | begins =>
    rcases eq_some_of_concat hj with hj | ⟨hk, rfl⟩
    · rcases eq_some_of_concat ht with ht | ⟨rfl, -⟩
      · exact (h.finished k f t hj ht).imp_right .inl
      · have inside := (List.getElem?_eq_some_iff.mp hj).1
        rw [h.accounts.length] at inside
        exact absurd inside (Nat.lt_irrefl _)
    · exact .inr (.inr ⟨hk.trans h.accounts.length, rfl⟩)

theorem Sound.begins (h : S.Sound H) {j : Job} (hj : j.comes = true)
    (hs : S.world.Steps (.begins j) V) : Sound (H ++ [.job (.begins j)]) { S with world := V } := by
  have accounts := h.accounts.step hs
  rw [← entries_job] at accounts
  have more : jobs (entries (H ++ [.job (.begins j)])) = jobs (entries H) ++ [j] := by simp
  refine ⟨accounts, h.waits, h.runs, h.whole, ?_, ?_, ?_⟩ <;> rw [more]
  · intro k hk
    obtain ⟨f, hf⟩ := h.rebuilds k hk
    exact ⟨f, getElem?_append_of_eq_some hf _⟩
  · intro k f t hf ht
    obtain running | done | ⟨-, rfl⟩ := h.finished_begins hs hf ht
    · exact .inl running
    · exact .inr done
    · cases hj
  · exact List.forall_mem_append.mpr
      ⟨h.kinds, List.forall_mem_singleton.mpr (.inl hj)⟩

theorem Sound.starts (h : S.Sound H) {f : Feed} {rest : List Feed} {b : Background}
    (hb : S.scheduler.start? = some b) (hq : S.queue = f :: rest)
    (hs : S.world.Steps (.begins (.rebuild f)) V) :
    Sound (H ++ [.starts S.world.tasks.length f])
      ⟨V, b, rest, S.running ++ [S.world.tasks.length]⟩ := by
  have accounts := h.accounts.step hs
  rw [← entries_starts H S.world.tasks.length] at accounts
  have more : jobs (entries (H ++ [.starts S.world.tasks.length f])) =
      jobs (entries H) ++ [.rebuild f] := by simp
  obtain ⟨idle, waiting, rfl⟩ := Background.of_start?_some hb
  have waits := h.waits
  have runs := h.runs
  rw [if_pos waiting, hq, List.length_cons] at waits
  rw [if_neg (by rw [idle]; nofun)] at runs
  refine ⟨accounts, Nat.succ.inj waits, by simp [runs], nofun, ?_, ?_, ?_⟩ <;> rw [more]
  · intro k hk
    rcases List.mem_append.mp hk with hk | hk
    · obtain ⟨g, hg⟩ := h.rebuilds k hk
      exact ⟨g, getElem?_append_of_eq_some hg _⟩
    · rw [List.mem_singleton.mp hk, ← h.accounts.length]
      exact ⟨f, List.getElem?_concat_length⟩
  · intro k g t hg ht
    obtain running | done | ⟨rfl, -⟩ := h.finished_begins hs hg ht
    · exact .inl (List.mem_append_left _ running)
    · exact .inr done
    · exact .inl List.mem_concat_self
  · exact List.forall_mem_append.mpr
      ⟨h.kinds, List.forall_mem_singleton.mpr (.inr ⟨f, rfl⟩)⟩

theorem Sound.ends (h : S.Sound H) {k : Nat} {t : Task} (hk : k ∈ S.running)
    (ht : S.world.tasks[k]? = some t) (done : t.work = .done ()) :
    Sound (H ++ [.ends k])
      { S with scheduler := S.scheduler.finish, running := S.running.erase k } := by
  have runs := h.runs
  have busy : S.scheduler.worker = .running := by
    by_contra idle
    rw [if_neg idle, List.length_eq_zero_iff] at runs
    rw [runs] at hk
    cases hk
  rw [if_pos busy] at runs
  rw [Background.finish_of_running busy]
  have fewer : (S.running.erase k).length = 0 := by rw [List.length_erase_of_mem hk, runs]
  refine ⟨?_, h.waits, fewer, nofun, ?_, ?_, ?_⟩ <;> rw [entries_ends]
  · exact h.accounts
  · exact fun l hl => h.rebuilds l (List.mem_of_mem_erase hl)
  · intro l f u hf hu
    by_cases hl : l = k
    · rw [hl, ht, Option.some.injEq] at hu
      exact .inr (hu ▸ done)
    · exact (h.finished l f u hf hu).imp_left (List.mem_erase_of_ne hl).mpr
  · exact h.kinds

theorem Sound.calls (h : S.Sound H) {i : Nat} {x : Exchange} (hs : S.world.Steps (.calls i x) V) :
    Sound (H ++ [.job (.calls i x)]) { S with world := V } := by
  have accounts := h.accounts.step hs
  rw [← entries_job] at accounts
  have same : jobs (entries (H ++ [.job (.calls i x)])) = jobs (entries H) := by simp
  refine ⟨accounts, h.waits, h.runs, h.whole, ?_, ?_, ?_⟩
  · rw [same]
    exact h.rebuilds
  · intro k f t hj ht
    rw [same] at hj
    obtain ⟨u, hu, rfl | ⟨rfl, busy⟩⟩ := hs.exists_task ht
    · exact h.finished k f u hj hu
    · exact .inl ((h.finished k f u hj hu).resolve_right busy)
  · rw [same]
    exact h.kinds

/-- The scheduler may come to another state with as much waiting and running. -/
theorem Sound.with_scheduler (h : S.Sound H) {H' : List Deed} {b : Background} {queue : List Feed}
    (same : entries H' = entries H) (waits : queue.length = if b.waiting then 1 else 0)
    (runs : b.worker = .running ↔ S.scheduler.worker = .running) (whole : b.worker ≠ .crashed) :
    Sound H' ⟨S.world, b, queue, S.running⟩ := by
  refine ⟨?_, waits, ?_, whole, ?_, ?_, ?_⟩
  · rw [same]
    exact h.accounts
  · simp only [runs]
    exact h.runs
  · rw [same]
    exact h.rebuilds
  · rw [same]
    exact h.finished
  · rw [same]
    exact h.kinds

end Workshop

theorem Workshop.Sound.goes {H : List Deed} {S : Workshop} (h : S.Sound H) {k : Nat}
    (hk : k ∈ S.running) :
    ∃ (f : Feed) (t : Task), S.world.tasks[k]? = some t ∧ f.rebuild.forget.Goes (callsOf k (entries H)) t.work := by
  obtain ⟨f, hf⟩ := h.rebuilds k hk
  have inside := (List.getElem?_eq_some_iff.mp hf).1
  rw [h.accounts.length] at inside
  exact ⟨f, _, List.getElem?_eq_getElem inside,
    h.accounts.goes k _ _ hf (List.getElem?_eq_getElem inside)⟩

/-- Only a rebuild that is running removes ids. -/
theorem Workshop.Sound.mem_running {H : List Deed} {S : Workshop} {V : World} (h : S.Sound H) {k : Nat}
    {gone : List String} {a : Except Causes Unit} {x : String}
    (hs : S.world.Steps (.calls k ⟨.remove gone, a⟩) V) (hx : x ∈ gone) : k ∈ S.running := by
  cases hs with
  | calls front back c next asked accepted answer tasks ha =>
    have hwas : S.world.tasks[front.length]? = some ⟨.call (.remove gone) next, asked, accepted⟩ := by
      simp [tasks]
    obtain ⟨j, hj⟩ : ∃ j, (jobs (entries H))[front.length]? = some j := by
      have inside := (List.getElem?_eq_some_iff.mp hwas).1
      exact ⟨_, List.getElem?_eq_getElem (h.accounts.length ▸ inside)⟩
    obtain ⟨f, xs, later, rebuilds, -⟩ :=
      Job.exists_rebuilds hx (h.accounts.goes front.length j _ hj hwas)
    generalize callsOf front.length (entries H) = calls at rebuilds
    cases rebuilds with
    | alone => exact (h.finished _ f _ hj hwas).resolve_right nofun
    | inline =>
      rcases h.kinds _ (List.mem_of_getElem? hj) with comes | ⟨f, same⟩
      · cases comes
      · cases same

theorem Workshop.Sound.next {H : List Deed} {S T : Workshop} {D : Deed} (h : S.Sound H)
    (move : S.Moves H D T) : T.Sound (H ++ [D]) := by
  cases move with
  | begins hj hs => exact h.begins hj hs
  | calls _ hs => exact h.calls hs
  | queues _ accepted hs =>
    obtain ⟨-, rfl⟩ := Background.of_request_ok accepted
    refine (h.calls hs).with_scheduler rfl ?_ Iff.rfl h.whole
    have waits := h.waits
    split
    · rename_i waiting
      rwa [if_pos waiting] at waits
    · rename_i free
      rw [if_neg free] at waits
      simp [waits]
  | refuses _ hs => exact h.calls hs
  | starts hb hq hs => exact h.starts hb hq hs
  | ends hk ht done => exact h.ends hk ht done
  | closes => exact h.with_scheduler (entries_closes _) h.waits Iff.rfl h.whole
  | takes _ taken =>
    obtain rfl := Background.of_take?_some taken
    exact h.with_scheduler (entries_takes _) h.waits Iff.rfl h.whole
  | stops _ _ ended awaited =>
    obtain rfl := Background.of_await_ok awaited
    have idle := (Background.of_ended ended).2.2
    exact h.with_scheduler (entries_stops _) h.waits ⟨nofun, fun busy => absurd busy idle⟩ nofun
  | returns => exact h.with_scheduler (entries_returns _) h.waits Iff.rfl h.whole

theorem Shift.sound {H : List Deed} {S : Workshop} (h : Shift H S) : S.Sound H := by
  induction h with
  | @start W none sound =>
    have accounts : Accounts [] W := (Course.start none sound).accounts
    exact ⟨accounts, rfl, rfl, nofun, nofun, by simp [entries, jobs], by simp [entries, jobs]⟩
  | next _ move ih => exact ih.next move

end EntityFeed
