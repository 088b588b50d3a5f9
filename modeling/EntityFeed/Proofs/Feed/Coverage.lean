import EntityFeed.Proofs.Feed.Scheduling

/-! What a worker in the background guarantees. A request that is accepted is covered by a rebuild that
waits, or by one that has started since: it asks for the pending ids after the request. -/
namespace EntityFeed

/-- That a rebuild starts, asks for the pending ids and ends, one after the other. -/
def Builds (H : List Deed) : Prop :=
  ∃ k f r, [.starts k f, .job (.calls k ⟨.snapshot, r⟩), .ends k].Sublist H

/-- That a running rebuild has started in the last part of a history, and if it has made calls, has
asked for the pending ids there. -/
def UnderWay (H H₂ : List Deed) (k : Nat) : Prop :=
  ∃ f, .starts k f ∈ H₂ ∧ (callsOf k (entries H) = [] ∨
    ∃ r, [.starts k f, .job (.calls k ⟨.snapshot, r⟩)].Sublist H₂)

theorem UnderWay.later {H H₂ : List Deed} {D : Deed} {k : Nat} (h : UnderWay H H₂ k)
    (none : callsOf k (entries (H ++ [D])) = callsOf k (entries H)) :
    UnderWay (H ++ [D]) (H₂ ++ [D]) k := by
  obtain ⟨f, started, calls⟩ := h
  refine ⟨f, List.mem_append_left _ started, ?_⟩
  rw [none]
  exact calls.imp_right fun ⟨r, asked⟩ => ⟨r, asked.trans (List.sublist_append_left _ _)⟩

namespace Workshop

variable {H H₂ : List Deed} {S T : Workshop} {V : World}

/-- That a rebuild is to come, under way or over in the last part of a history. -/
def Covers (S : Workshop) (H H₂ : List Deed) : Prop :=
  S.scheduler.waiting = true ∨ (∃ k ∈ S.running, UnderWay H H₂ k) ∨ Builds H₂

theorem Covers.later {D : Deed} (h : S.Covers H H₂)
    (waiting : S.scheduler.waiting = true → T.Covers (H ++ [D]) (H₂ ++ [D]))
    (running : ∀ k ∈ S.running, UnderWay H H₂ k → T.Covers (H ++ [D]) (H₂ ++ [D])) :
    T.Covers (H ++ [D]) (H₂ ++ [D]) := by
  rcases h with now | ⟨k, hk, on⟩ | ⟨k, f, r, ended⟩
  · exact waiting now
  · exact running k hk on
  · exact .inr (.inr ⟨k, f, r, ended.trans (List.sublist_append_left _ _)⟩)

theorem Covers.calls (h : S.Covers H H₂) (sound : S.Sound H) {i : Nat} {x : Exchange}
    (hs : S.world.Steps (.calls i x) V) (waiting : S.scheduler.waiting = true → T.scheduler.waiting = true)
    (running : T.running = S.running) :
    T.Covers (H ++ [.job (.calls i x)]) (H₂ ++ [.job (.calls i x)]) := by
  refine h.later (fun now => .inl (waiting now)) fun k hk on => .inr (.inl ⟨k, running ▸ hk, ?_⟩)
  by_cases hi : i = k
  · subst hi
    obtain ⟨f, started, calls | ⟨r, asked⟩⟩ := on
    · obtain ⟨g, t, -, goes⟩ := (sound.calls hs).goes hk
      rw [entries_job, callsOf_calls_self, calls] at goes
      obtain ⟨r, rfl⟩ := Feed.exists_snapshot goes
      exact ⟨f, List.mem_append_left _ started,
        .inr ⟨r, (List.singleton_sublist.mpr started).append (.refl _)⟩⟩
    · exact ⟨f, List.mem_append_left _ started,
        .inr ⟨r, asked.trans (List.sublist_append_left _ _)⟩⟩
  · refine on.later ?_
    rw [entries_job, callsOf_calls_of_ne _ _ _ hi]

theorem Covers.starts (h : S.Covers H H₂) (sound : S.Sound H) {f : Feed}
    (hT : T.running = S.running ++ [S.world.tasks.length]) (idle : S.running = []) :
    T.Covers (H ++ [.starts S.world.tasks.length f]) (H₂ ++ [.starts S.world.tasks.length f]) := by
  refine h.later (fun _ => .inr (.inl ⟨S.world.tasks.length, ?_, f, List.mem_concat_self, .inl ?_⟩)) ?_
  · rw [hT]
    exact List.mem_concat_self
  · rw [entries_starts, callsOf_begins]
    exact sound.accounts.none_before _ (Nat.le_refl _)
  · rw [idle]
    nofun

theorem Covers.ends (h : S.Covers H H₂) (sound : S.Sound H) {k : Nat} {t : Task} (hk : k ∈ S.running)
    (ht : S.world.tasks[k]? = some t) (done : t.work = .done ())
    (waiting : S.scheduler.waiting = true → T.scheduler.waiting = true)
    (running : T.running = S.running.erase k) :
    T.Covers (H ++ [.ends k]) (H₂ ++ [.ends k]) := by
  refine h.later (fun now => .inl (waiting now)) fun l hl on => ?_
  by_cases same : l = k
  · subst same
    obtain ⟨f, started, calls | ⟨r, asked⟩⟩ := on
    · obtain ⟨g, u, hu, goes⟩ := sound.goes hl
      rw [ht, Option.some.injEq] at hu
      rw [calls, ← hu, done] at goes
      cases goes
    · exact .inr (.inr ⟨l, f, r, asked.append (.refl [Deed.ends l])⟩)
  · refine .inr (.inl ⟨l, running ▸ (List.mem_erase_of_ne same).mpr hl, on.later ?_⟩)
    rw [entries_ends]

/-- Where only the scheduler comes to another state, with as much waiting, everything stays covered. -/
theorem Covers.with_scheduler {D : Deed} (h : S.Covers H H₂) (same : entries (H ++ [D]) = entries H)
    (waiting : S.scheduler.waiting = true → T.scheduler.waiting = true)
    (running : T.running = S.running) : T.Covers (H ++ [D]) (H₂ ++ [D]) := by
  refine h.later (fun now => .inl (waiting now)) fun k hk on =>
    .inr (.inl ⟨k, running ▸ hk, on.later ?_⟩)
  rw [same]

theorem Covers.next {D : Deed} (h : S.Covers H H₂) (sound : S.Sound H) (move : S.Moves H D T) :
    T.Covers (H ++ [D]) (H₂ ++ [D]) := by
  cases move with
  | begins hj hs =>
    refine h.later .inl fun k hk on => .inr (.inl ⟨k, hk, on.later ?_⟩)
    rw [entries_job, callsOf_begins]
  | calls _ hs => exact h.calls sound hs id rfl
  | queues _ accepted hs =>
    obtain ⟨-, rfl⟩ := Background.of_request_ok accepted
    exact .inl rfl
  | refuses _ hs => exact h.calls sound hs id rfl
  | starts hb hq hs =>
    have runs := sound.runs
    rw [(Background.of_start?_some hb).1] at runs
    exact h.starts sound rfl (List.length_eq_zero_iff.mp runs)
  | ends hk ht done =>
    exact h.ends sound hk ht done (fun now => now ▸ S.scheduler.waiting_finish) rfl
  | closes => exact h.with_scheduler (entries_closes _) id rfl
  | takes _ taken =>
    obtain rfl := Background.of_take?_some taken
    exact h.with_scheduler (entries_takes _) id rfl
  | stops _ _ ended awaited =>
    obtain rfl := Background.of_await_ok awaited
    exact h.with_scheduler (entries_stops _) id rfl
  | returns => exact h.with_scheduler (entries_returns _) id rfl

end Workshop

/-- A request that is accepted is covered from then on. -/
theorem Shift.covers {H : List Deed} {S : Workshop} (h : Shift H S) {H₁ H₂ : List Deed} {i : Nat}
    (hH : H = H₁ ++ .job (.calls i ⟨.schedule, .ok ()⟩) :: H₂) : S.Covers H H₂ := by
  have later : S.Covers (H₁ ++ .job (.calls i ⟨.schedule, .ok ()⟩) :: H₂) H₂ := by
    refine h.since (P := fun H₂ S => S.Covers (H₁ ++ .job (.calls i ⟨.schedule, .ok ()⟩) :: H₂) H₂)
      hH ?_ ?_
    · intro S T h move
      generalize hD : Deed.job (.calls i ⟨.schedule, .ok ()⟩) = D at move
      cases move with
      | calls other =>
        cases hD
        exact absurd rfl other
      | queues _ accepted =>
        obtain ⟨-, rfl⟩ := Background.of_request_ok accepted
        exact .inl rfl
      | _ => cases hD
    · intro H₂ S E T h move covers
      rw [← List.cons_append, ← List.append_assoc]
      exact covers.next h.sound move
  exact hH ▸ later

/-- That behind every request that has been accepted there is a whole rebuild, and no further call of
the event that has asked. -/
def Covered (H : List Deed) : Prop :=
  ∀ H₁ i H₂, H = H₁ ++ .job (.calls i ⟨.schedule, .ok ()⟩) :: H₂ →
    callsOf i (entries H₂) = [] ∧ Builds H₂

/-- An event that has asked for a rebuild makes no further call. -/
theorem Shift.last_call {H : List Deed} {S : Workshop} (h : Shift H S) {H₁ H₂ : List Deed} {i : Nat}
    {a : Except Failure Unit} (hH : H = H₁ ++ .job (.calls i ⟨.schedule, a⟩) :: H₂) :
    callsOf i (entries H₂) = [] := by
  have accounts := h.sound.accounts
  have calls : callsOf i (entries H) =
      callsOf i (entries H₁) ++ ⟨.schedule, a⟩ :: callsOf i (entries H₂) := by
    simp [hH, entries, callsOf, Deed.ofJobs?, Entry.callOf?]
  have inside : i < S.world.tasks.length := by
    by_contra outside
    rw [accounts.none_before i (Nat.le_of_not_lt outside)] at calls
    simp at calls
  have hj := List.getElem?_eq_getElem (accounts.length ▸ inside)
  have goes := accounts.goes i _ _ hj (List.getElem?_eq_getElem inside)
  rw [calls] at goes
  exact (Job.asksLast_of_kind (h.sound.kinds _ (List.mem_of_getElem? hj))).eq_nil goes

/-- With nothing running or waiting every request is covered by a rebuild that is over. -/
theorem Shift.covered {H : List Deed} {S : Workshop} (h : Shift H S)
    (idle : S.scheduler.worker ≠ .running) (empty : S.scheduler.waiting = false) : Covered H := by
  intro H₁ i H₂ hH
  refine ⟨h.last_call hH, ?_⟩
  have runs := h.sound.runs
  rw [if_neg idle, List.length_eq_zero_iff] at runs
  rcases h.covers hH with waiting | ⟨k, hk, -⟩ | ended
  · rw [empty] at waiting
    cases waiting
  · rw [runs] at hk
    cases hk
  · exact ended

/-- So it is when the shutdown that awaits the worker returns. -/
theorem Shift.covered_of_stops {H : List Deed} {S : Workshop} (h : Shift H S) {H₁ H₂ : List Deed}
    (hH : H = H₁ ++ .stops :: H₂) : Covered H₁ := by
  refine h.since (P := fun _ _ => Covered H₁) hH ?_ fun _ _ _ _ _ _ covered => covered
  intro S T h move
  cases move with
  | stops _ _ ended awaited =>
    obtain ⟨-, empty, idle⟩ := Background.of_ended ended
    exact h.covered idle empty

/-- Once a shutdown has begun, requests are refused. -/
theorem Shift.closed {H : List Deed} {S : Workshop} (h : Shift H S) {H₁ H₂ : List Deed}
    (hH : H = H₁ ++ .closes :: H₂) :
    S.scheduler.accepting = false ∧ ∀ i a, .job (.calls i ⟨.schedule, a⟩) ∈ H₂ →
      a = .error (.scheduler SchedulerFault.shutDown.causes) := by
  refine h.since (P := fun H₂ S => S.scheduler.accepting = false ∧
    ∀ i a, .job (.calls i ⟨.schedule, a⟩) ∈ H₂ →
      a = .error (.scheduler SchedulerFault.shutDown.causes)) hH ?_ ?_
  · intro S T h move
    cases move with
    | closes => exact ⟨rfl, nofun⟩
  · rintro H₂ S E T h move ⟨closed, before⟩
    refine ⟨?_, ?_⟩
    · cases move with
      | queues _ accepted =>
        obtain ⟨-, rfl⟩ := Background.of_request_ok accepted
        exact closed
      | starts hb =>
        obtain ⟨-, -, rfl⟩ := Background.of_start?_some hb
        exact closed
      | ends => exact S.scheduler.accepting_finish.trans closed
      | closes => rfl
      | takes _ taken =>
        obtain rfl := Background.of_take?_some taken
        exact closed
      | stops _ _ _ awaited =>
        obtain rfl := Background.of_await_ok awaited
        exact closed
      | _ => exact closed
    · intro i a ha
      rcases List.mem_append.mp ha with ha | ha
      · exact before i a ha
      · obtain rfl := List.mem_singleton.mp ha
        cases move with
        | calls other => exact absurd rfl other
        | queues _ accepted =>
          have open_ := (Background.of_request_ok accepted).1
          rw [closed] at open_
          cases open_
        | refuses refused =>
          obtain ⟨-, rfl⟩ := Background.of_request_error refused h.sound.whole
          rfl

/-- Once the end of the worker has been awaited, the scheduler rests. -/
theorem Shift.at_rest {H : List Deed} {S : Workshop} (h : Shift H S) {H₁ H₂ : List Deed}
    (hH : H = H₁ ++ .stops :: H₂) : S.scheduler = ⟨false, false, .awaited, false⟩ := by
  refine h.since (P := fun _ S => S.scheduler = ⟨false, false, .awaited, false⟩) hH ?_ ?_
  · intro S T h move
    cases move with
    | stops taken _ ended awaited =>
      obtain rfl := Background.of_await_ok awaited
      obtain ⟨closed, empty, -⟩ := Background.of_ended ended
      rw [closed, empty, Background.of_take?_none taken]
  · intro H₂ S E T h move rests
    cases move with
    | queues _ accepted =>
      have open_ := (Background.of_request_ok accepted).1
      rw [rests] at open_
      cases open_
    | starts hb =>
      have idle := (Background.of_start?_some hb).1
      rw [rests] at idle
      cases idle
    | ends | closes =>
      dsimp only
      rw [rests]
      rfl
    | takes _ taken =>
      obtain rfl := Background.of_take?_some taken
      rw [rests]
    | stops _ first => exact absurd (congrArg (·.worker) rests) first
    | _ => exact rests

/-- That a rebuild removes an id in the last part of a history, and before the shutdown that awaits the
worker returns. -/
def TakenAway (H₁ H₂ : List Deed) (x : String) : Prop :=
  ∃ A k gone B, H₂ = A ++ .job (.calls k ⟨.remove gone, .ok ()⟩) :: B ∧ x ∈ gone ∧
    .stops ∉ H₁ ∧ .stops ∉ A

theorem TakenAway.later {H₁ H₂ : List Deed} {x : String} (h : TakenAway H₁ H₂ x) (D : Deed) :
    TakenAway H₁ (H₂ ++ [D]) x := by
  obtain ⟨A, k, gone, B, rfl, hx, before, between⟩ := h
  exact ⟨A, k, gone, B ++ [D], by simp, hx, before, between⟩

theorem World.Steps.mem_pending {W V : World} {E : Entry} {x : String} (hw : W.Sound)
    (hs : W.Steps E V) (hx : x ∈ W.pending) :
    x ∈ V.pending ∨ ∃ k gone, E = .calls k ⟨.remove gone, .ok ()⟩ ∧ x ∈ gone := by
  cases hs with
  | begins => exact .inl hx
  | calls front back c next asked accepted answer ht ha =>
    obtain still | ⟨gone, asked', happens, hg, -⟩ :=
      World.Calls.mem_pending hw (.intro W front back c next asked accepted answer ht ha) hx
    · exact .inl still
    · cases happens
      exact .inr ⟨front.length, gone, rfl, hg⟩

theorem World.Steps.mem_pending_of_add {W V : World} {i : Nat} {ids : List String} {x : String}
    (hw : W.Sound) (hs : W.Steps (.calls i ⟨.add ids, .ok ()⟩) V) (hx : x ∈ ids) : x ∈ V.pending := by
  cases hs with
  | calls front back c next asked accepted answer ht ha =>
    exact hw.store.mem_snapshot_add.mpr (.inr hx)

/-- A removal is one of a rebuild that is running, and once the worker has been awaited none is. -/
theorem Shift.not_mem_stops {H : List Deed} {S : Workshop} {V : World} {k : Nat} {gone : List String}
    {a : Except Causes Unit} {x : String} (h : Shift H S)
    (hs : S.world.Steps (.calls k ⟨.remove gone, a⟩) V) (hx : x ∈ gone) : .stops ∉ H := by
  intro stopped
  obtain ⟨H₁, H₂, hH⟩ := List.append_of_mem stopped
  have running := h.sound.mem_running hs hx
  have runs := h.sound.runs
  rw [h.at_rest hH, if_neg nofun, List.length_eq_zero_iff] at runs
  rw [runs] at running
  cases running

/-- Ids that have been added leave only where a rebuild removes them, before the shutdown that awaits the
worker returns. -/
theorem Shift.kept {H : List Deed} {S : Workshop} (h : Shift H S) {H₁ H₂ : List Deed} {i : Nat}
    {ids : List String} {x : String} (hH : H = H₁ ++ .job (.calls i ⟨.add ids, .ok ()⟩) :: H₂)
    (hx : x ∈ ids) : x ∈ S.world.pending ∨ TakenAway H₁ H₂ x := by
  refine h.since (P := fun H₂ S => x ∈ S.world.pending ∨ TakenAway H₁ H₂ x) hH ?_ ?_
  · intro S T h move
    cases move with
    | calls _ hs => exact .inl (hs.mem_pending_of_add h.sound.accounts.sound hx)
  · intro H₂ S D T h move was
    rcases was with was | taken
    · have step {E : Entry} {V : World} (hs : S.world.Steps E V) (hD : D = .job E) :
          x ∈ V.pending ∨ TakenAway H₁ (H₂ ++ [D]) x := by
        obtain still | ⟨k, gone, rfl, hg⟩ := hs.mem_pending h.sound.accounts.sound was
        · exact .inl still
        · have open_ := h.not_mem_stops hs hg
          simp only [List.mem_append, List.mem_cons, not_or] at open_
          exact .inr ⟨H₂, k, gone, [], by rw [hD], hg, open_.1, open_.2.2⟩
      cases move with
      | begins _ hs | calls _ hs | queues _ _ hs | refuses _ hs => exact step hs rfl
      | starts _ _ hs =>
        cases hs
        exact .inl was
      | ends | closes | takes | stops | returns => exact .inl was
    · exact .inr (taken.later D)

/-- What a worker in the background guarantees after a history. -/
structure Dependable (H : List Deed) (S : Workshop) : Prop where
  /-- At most one rebuild runs, and others are over. -/
  one_runs : S.running.length ≤ 1 ∧ ∀ (k : Nat) (f : Feed) (t : Task),
    (jobs (entries H))[k]? = some (.rebuild f) → S.world.tasks[k]? = some t →
      k ∈ S.running ∨ t.work = .done ()
  one_waits : S.queue.length ≤ 1
  /-- While nothing runs or waits, every request that was accepted is covered. -/
  idle : S.running = [] → S.queue = [] → Covered H
  /-- So it is when the shutdown that awaits the worker returns. -/
  stopped : ∀ H₁ H₂, H = H₁ ++ .stops :: H₂ → Covered H₁
  /-- Since a shutdown has begun, requests fail. -/
  refused : ∀ H₁ H₂ i a, H = H₁ ++ .closes :: H₂ → .job (.calls i ⟨.schedule, a⟩) ∈ H₂ →
    a = .error (.scheduler ["scheduler has been shut down"])
  /-- Ids that have been added are pending unless a rebuild has removed them before the worker was
  awaited. -/
  kept : ∀ H₁ i ids H₂ x, H = H₁ ++ .job (.calls i ⟨.add ids, .ok ()⟩) :: H₂ → x ∈ ids →
    x ∈ S.world.pending ∨ TakenAway H₁ H₂ x

/-- However requests, the worker and shutdowns come in between each other, no request that has been
accepted is missed. Only a shutdown that does not await the worker may return before its rebuild is over. -/
theorem Shift.dependable {H : List Deed} {S : Workshop} (h : Shift H S) : Dependable H S := by
  have sound := h.sound
  refine ⟨⟨?_, sound.finished⟩, ?_, ?_, fun H₁ H₂ hH => h.covered_of_stops hH,
    fun H₁ H₂ i a hH ha => (h.closed hH).2 i a ha, fun H₁ i ids H₂ x hH hx => h.kept hH hx⟩
  · rw [sound.runs]
    split <;> omega
  · rw [sound.waits]
    split <;> omega
  · intro none empty
    have runs := sound.runs
    have waits := sound.waits
    refine h.covered ?_ ?_
    · intro busy
      rw [none, if_pos busy] at runs
      cases runs
    · by_contra waiting
      rw [empty, if_pos (by simpa using waiting)] at waits
      cases waits

/-- A new user. -/
def newUser : ChangeEvent := .insertion "user" [("id", .str "a")]

/-- Its id is added, and then a rebuild is asked for. -/
theorem exists_work_newUser :
    ∃ next later, (Job.receive userNames newUser).work = .call (.add ["a"]) next ∧
      next (.ok ()) = .call .schedule later := by
  have ids : (userNames.schema.impact newUser).ids = ["a"] := by decide +kernel
  have query : (userNames.schema.impact newUser).query = none := by decide +kernel
  have receive : userNames.receive newUser = Feed.enqueue ["a"] := by
    rw [Feed.receive, query, ids]
  exact ⟨_, _, congrArg Work.forget receive, rfl⟩

/-- What happens until the id of the new user is added. -/
def newUserAdded : List Deed :=
  [.job (.begins (.receive userNames newUser)), .job (.calls 0 ⟨.add ["a"], .ok ()⟩)]

/-- Then a rebuild is queued. -/
theorem exists_shift_newUserAdded :
    ∃ V t, V.tasks = [t] ∧ Shift (newUserAdded ++ [.job (.calls 0 ⟨.schedule, .ok ()⟩)])
      ⟨V, { waiting := true }, [userNames], []⟩ := by
  obtain ⟨next, later, work, asks⟩ := exists_work_newUser
  have start : Shift [] ⟨World.idle, {}, [], []⟩ := .start rfl Pending.Store.sound_empty
  have begun := start.next (.begins (j := .receive userNames newUser) rfl (.begins _ _))
  have added := begun.next (.calls (by nofun) (.calls _ [] [] (.add ["a"]) next none [] (.ok ())
    (congrArg (fun w => [Task.mk w none []]) work) trivial))
  have asked := added.next (.queues (i := 0) rfl rfl (.calls _ [] [] .schedule later none []
    (.ok ()) (congrArg (fun w => [Task.mk w none []]) asks) trivial))
  exact ⟨_, _, rfl, asked⟩

/-- The rebuild fails at once. Behind the shutdown the same event comes again, and is refused. -/
theorem exists_shift_newUser :
    ∃ S, Shift (newUserAdded ++ .job (.calls 0 ⟨.schedule, .ok ()⟩) ::
      ([.starts 1 userNames, .job (.calls 1 ⟨.snapshot, .error []⟩), .ends 1, .closes, .takes] ++
        .stops :: [.job (.begins (.receive userNames newUser)),
          .job (.calls 2 ⟨.add ["a"], .ok ()⟩),
          .job (.calls 2 ⟨.schedule, .error (.scheduler ["scheduler has been shut down"])⟩)])) S := by
  obtain ⟨next, later, work, asks⟩ := exists_work_newUser
  obtain ⟨⟨store, disk, batchSize, now, _⟩, t, rfl, asked⟩ := exists_shift_newUserAdded
  have taken := asked.next (.starts rfl rfl (.begins _ (.rebuild userNames)))
  have failed := taken.next (.calls (by nofun)
    (.calls _ [_] [] .snapshot _ none [] (.error []) rfl trivial))
  have ended := failed.next (.ends (k := 1) List.mem_cons_self rfl rfl)
  have stopped := ((ended.next .closes).next (.takes rfl rfl)).next (.stops rfl nofun rfl rfl)
  have again := stopped.next (.begins (j := .receive userNames newUser) rfl (.begins _ _))
  have last := again.next (.calls (by nofun) (.calls _ [_, _] [] (.add ["a"]) next none [] (.ok ())
    (congrArg (fun w => [_, _, Task.mk w none []]) work) trivial))
  have refused := last.next (.refuses rfl (.calls _ [_, _] [] .schedule later none []
    (.error (.scheduler ["scheduler has been shut down"]))
    (congrArg (fun w => [_, _, Task.mk w none []]) asks) trivial))
  exact ⟨_, refused⟩

/-- The request was covered when the shutdown returned, and the id of the second event stays. -/
theorem newUser_dependable :
    ∃ H₁ H₂ H₃ S, Shift (H₁ ++ .job (.calls 0 ⟨.schedule, .ok ()⟩) :: (H₂ ++ .stops :: H₃)) S ∧
      .job (.calls 2 ⟨.add ["a"], .ok ()⟩) ∈ H₃ ∧ Builds H₂ ∧ "a" ∈ S.world.pending := by
  obtain ⟨S, shift⟩ := exists_shift_newUser
  refine ⟨_, _, _, S, shift, List.mem_cons_of_mem _ List.mem_cons_self, ?_, ?_⟩
  · exact (shift.dependable.stopped [_, _, _, _, _, _, _, _] _ rfl newUserAdded 0 _ rfl).2
  · refine (shift.dependable.kept [_, _, _, _, _, _, _, _, _, _] 2 ["a"] _ "a" rfl
      List.mem_cons_self).resolve_right ?_
    rintro ⟨A, k, gone, B, -, -, none, -⟩
    simp at none

/-- Two shutdowns at once: the first one awaits the worker, and the other one returns while the rebuild that
has been asked for still waits. -/
theorem newUser_missed_by_second_shutdown :
    ∃ S, Shift (newUserAdded ++ .job (.calls 0 ⟨.schedule, .ok ()⟩) :: [.closes, .takes, .closes] ++
        [.returns]) S ∧ S.queue = [userNames] ∧
      ¬Covered (newUserAdded ++ .job (.calls 0 ⟨.schedule, .ok ()⟩) :: [.closes, .takes, .closes]) := by
  obtain ⟨V, t, -, asked⟩ := exists_shift_newUserAdded
  have first := (asked.next .closes).next (.takes rfl rfl)
  have second := (first.next .closes).next (.returns rfl rfl)
  refine ⟨_, second, rfl, fun covered => ?_⟩
  obtain ⟨-, k, f, r, rebuilt⟩ := covered newUserAdded 0 _ rfl
  simpa using rebuilt.subset List.mem_cons_self

end EntityFeed
