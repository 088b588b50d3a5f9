import EntityFeed.Proofs.Feed.World

/-! When an added id is not lost. It stays pending until a rebuild removes it. A rebuild that has
queried after the addition has delivered the id before; one that has queried before has not, and
takes away with its batch what was added in the meantime. -/
namespace EntityFeed

namespace Happening

/-- That an id is accepted in changes that were queried after a point in time. -/
def Delivers (n : Nat) (x : String) (h : Happening) : Prop :=
  ∃ changes q, h = ⟨.deliver changes, .ok (), some q⟩ ∧ n < q ∧ x ∈ changes.ids

/-- That an id is removed by a task that has not queried after a point in time. -/
def RemovesStale (n : Nat) (x : String) (h : Happening) : Prop :=
  ∃ ids asked, h = ⟨.remove ids, .ok (), asked⟩ ∧ x ∈ ids ∧ ∀ q, asked = some q → ¬n < q

end Happening

/-- That an id is pending, or has been accepted in changes that were queried after a point in time. -/
def World.Keeps (W : World) (n : Nat) (x : String) (hs : List Happening) : Prop :=
  x ∈ W.pending ∨ ∃ d ∈ hs, d.Delivers n x

variable {W V U : World} {hs : List Happening} {h : Happening} {n : Nat} {x : String}

theorem World.Begins.pending_eq (hb : W.Begins V) : V.pending = W.pending := by
  cases hb
  rfl

/-- A call leaves an id pending, or removes it for a task that has had it accepted. -/
theorem World.Calls.mem_pending (hw : W.Sound) (hc : W.Calls h V) (hx : x ∈ W.pending) :
    x ∈ V.pending ∨ ∃ ids asked, h = ⟨.remove ids, .ok (), asked⟩ ∧ x ∈ ids ∧
      ∃ t ∈ W.tasks, t.asked = asked ∧ x ∈ t.accepted := by
  cases hc with
  | intro front back c next asked accepted answer ht ha =>
    have hmem : (⟨.call c next, asked, accepted⟩ : Task) ∈ W.tasks :=
      ht ▸ List.mem_append_right _ List.mem_cons_self
    have ho := (hw.orderly _ hmem).1
    cases c with
    | add ids =>
      cases answer with
      | error _ => exact .inl hx
      | ok _ => exact .inl (hw.store.mem_snapshot_add.mpr (.inl hx))
    | remove ids =>
      cases answer with
      | error _ => exact .inl hx
      | ok _ =>
        by_cases hi : x ∈ ids
        · exact .inr ⟨ids, asked, rfl, hi, _, hmem, rfl, ho x hi⟩
        · exact .inl (hw.store.mem_snapshot_remove.mpr ⟨hx, hi⟩)
    | _ => exact .inl hx

/-- What tasks have had accepted after a point in time has been delivered since. -/
theorem Run.accepted_delivered (hw : W.Sound) (hn : W.now ≤ n + 1) (hr : Run W hs V) :
    ∀ t ∈ V.tasks, ∀ q, t.asked = some q → n < q → ∀ x ∈ t.accepted, ∃ d ∈ hs, d.Delivers n x := by
  induction hr with
  | refl =>
    intro t ht q hq hnq
    have := hw.asked t ht q hq
    omega
  | begin _ hb ih =>
    cases hb with
    | intro hbegun =>
      intro t ht q hq
      rcases List.mem_append.mp ht with ht | ht
      · exact ih t ht q hq
      · rw [List.mem_singleton.mp ht] at hq
        contradiction
  | @call U U' hs h hr hc ih =>
    have hlater : ∀ {x}, (∃ d ∈ hs, d.Delivers n x) → ∃ d ∈ hs ++ [h], d.Delivers n x := by
      rintro x ⟨d, hd, hx⟩
      exact ⟨d, List.mem_append_left _ hd, hx⟩
    cases hc with
    | intro front back c next asked accepted answer ht ha =>
      intro t hm q hq hnq x hx
      rcases World.mem_tasks_replaced hm with hm | rfl
      · exact hlater (ih t (ht ▸ hm) q hq hnq x hx)
      · have hold := ih _ (ht ▸ List.mem_append_right _ List.mem_cons_self) q
        cases c with
        | query _ => contradiction
        | deliver changes =>
          cases answer with
          | error _ => exact hlater (hold hq hnq x hx)
          | ok _ =>
            cases hq
            rcases List.mem_append.mp hx with hx | hx
            · exact ⟨_, List.mem_append_right _ List.mem_cons_self, changes, q, rfl, hnq, hx⟩
            · exact hlater (hold rfl hnq x hx)
        | _ => exact hlater (hold hq hnq x hx)

/-- An id is kept as long as it is removed only after it has been delivered. -/
theorem Run.keeps (hw : W.Sound) (hn : W.now ≤ n + 1) (hx : x ∈ W.pending) (hr : Run W hs V)
    (hstale : ∀ seen h rest, hs = seen ++ h :: rest → h.RemovesStale n x →
      ∃ d ∈ seen, d.Delivers n x) : V.Keeps n x hs := by
  induction hr with
  | refl => exact .inl hx
  | begin _ hb ih =>
    have hk := ih hstale
    rw [World.Keeps, hb.pending_eq]
    exact hk
  | @call U U' hs h hr hc ih =>
    have hdone : (∃ d ∈ hs, d.Delivers n x) → U'.Keeps n x (hs ++ [h]) := by
      rintro ⟨d, hd, hx⟩
      exact .inr ⟨d, List.mem_append_left _ hd, hx⟩
    have hk : U.Keeps n x hs := by
      refine ih ?_
      intro seen h' rest he
      exact hstale seen h' (rest ++ [h]) (by rw [he, List.append_assoc, List.cons_append])
    rcases hk with hp | hd
    · rcases hc.mem_pending (hw.run hr) hp with hp | ⟨ids, asked, rfl, hi, t, ht, rfl, hacc⟩
      · exact .inl hp
      · by_cases hq : ∃ q, t.asked = some q ∧ n < q
        · -- The task has delivered what it removes, and has queried late enough for that to count.
          obtain ⟨q, hq, hnq⟩ := hq
          exact hdone (hr.accepted_delivered hw hn t ht q hq hnq x hacc)
        · exact hdone (hstale hs _ [] rfl ⟨ids, t.asked, rfl, hi, fun q hq' hn => hq ⟨q, hq', hn⟩⟩)
    · exact hdone hd

/-- A run goes through a world at each point. -/
theorem Run.exists_split {as bs : List Happening} (hr : Run W (as ++ bs) V) :
    ∃ U, Run W as U ∧ Run U bs V := by
  generalize hall : as ++ bs = all at hr
  induction hr generalizing bs with
  | refl =>
    obtain ⟨rfl, rfl⟩ := List.append_eq_nil_iff.mp hall
    exact ⟨_, .refl _, .refl _⟩
  | begin _ hb ih =>
    obtain ⟨U, ha, hrest⟩ := ih hall
    exact ⟨U, ha, hrest.begin hb⟩
  | @call X X' hs h hr hc ih =>
    rcases List.eq_nil_or_concat bs with rfl | ⟨bs, b, rfl⟩
    · rw [List.append_nil] at hall
      subst hall
      exact ⟨X', hr.call hc, .refl _⟩
    · rw [List.concat_eq_append, ← List.append_assoc] at hall
      obtain ⟨hinit, he⟩ := List.append_inj' hall rfl
      cases he
      obtain ⟨U, ha, hrest⟩ := ih hinit
      exact ⟨U, ha, List.concat_eq_append ▸ hrest.call hc⟩

/-- What is pending after a run is what its last call has left. -/
theorem Run.exists_last (hr : Run W (hs ++ [h]) V) :
    ∃ U U', Run W hs U ∧ U.Calls h U' ∧ V.pending = U'.pending := by
  generalize hall : hs ++ [h] = all at hr
  induction hr with
  | refl => simp at hall
  | begin _ hb ih =>
    obtain ⟨U, U', hr, hc, hp⟩ := ih hall
    exact ⟨U, U', hr, hc, hb.pending_eq.trans hp⟩
  | @call X X' hs' h' hr hc ih =>
    obtain ⟨rfl, he⟩ := List.append_inj' hall rfl
    cases he
    exact ⟨X, X', hr, hc, rfl⟩

theorem World.Calls.notMem_pending (hw : W.Sound) {ids : List String} {asked : Option Nat}
    (hc : W.Calls ⟨.remove ids, .ok (), asked⟩ V) (hx : x ∈ ids) : x ∉ V.pending := by
  cases hc with
  | intro front back c next asked accepted answer ht ha =>
    intro hp
    exact (hw.store.mem_snapshot_remove.mp hp).2 hx

theorem World.Calls.mem_pending_of_add (hw : W.Sound) {ids : List String} {asked : Option Nat}
    (hc : W.Calls ⟨.add ids, .ok (), asked⟩ V) (hx : x ∈ ids) :
    x ∈ V.pending ∧ V.now = W.now + 1 := by
  cases hc with
  | intro front back c next asked accepted answer ht ha =>
    exact ⟨hw.store.mem_snapshot_add.mpr (.inr hx), rfl⟩

/-- After an id has been added, it is at every later point pending or accepted in changes that were
queried after the addition, exactly if no rebuild that has queried before removes it before that. -/
theorem World.Reachable.keeps_added_iff (hw : W.Reachable) {ids : List String} {asked : Option Nat}
    (ha : W.Calls ⟨.add ids, .ok (), asked⟩ V) (hx : x ∈ ids) (hr : Run V hs U) :
    (∀ seen rest V', hs = seen ++ rest → Run V seen V' → Run V' rest U → V'.Keeps W.now x seen) ↔
      ∀ seen h rest, hs = seen ++ h :: rest → h.RemovesStale W.now x →
        ∃ d ∈ seen, d.Delivers W.now x := by
  obtain ⟨hp, hnow⟩ := ha.mem_pending_of_add hw.sound hx
  have hv : V.Sound := hw.sound.calls ha
  constructor
  · -- Right after a removal the id is not pending, so that it has been delivered before.
    intro hk seen h rest he hstale
    have he' : hs = (seen ++ [h]) ++ rest := by
      rw [he, List.append_assoc, List.singleton_append]
    rw [he'] at hr
    obtain ⟨V', hseen, hrest⟩ := hr.exists_split
    obtain ⟨ids', asked', rfl, hx', -⟩ := hstale
    obtain ⟨X, X', hrun, hc, hpend⟩ := hseen.exists_last
    rcases hk _ rest V' he' hseen hrest with hpv | ⟨d, hd, hdx⟩
    · rw [hpend] at hpv
      exact absurd hpv (hc.notMem_pending (hv.run hrun) hx')
    · rcases List.mem_append.mp hd with hd | hd
      · exact ⟨d, hd, hdx⟩
      · rw [List.mem_singleton.mp hd] at hdx
        obtain ⟨changes, q, he, -⟩ := hdx
        cases he
  · intro hstale seen rest V' he hseen _
    refine hseen.keeps hv (by omega) hp ?_
    intro pre h post hpre
    exact hstale pre h (post ++ rest) (by rw [he, hpre, List.append_assoc, List.cons_append])

/-- A feed of the names of users. -/
def userNames : Feed where
  schema := ⟨"user", "id", .column "name"⟩
  valid := by decide

def World.idle : World := ⟨.empty, ⟨"", [], [], []⟩, 1000, 0, []⟩

/-- The last calls of a rebuild that has queried at time 2. -/
def lastCalls : List Happening :=
  [⟨.deliver ⟨[⟨"a", .str "Ann"⟩], []⟩, .ok (), some 2⟩, ⟨.remove ["a"], .ok (), some 2⟩]

/-- A rebuild delivers and removes an id that has been added again since it has queried. -/
theorem exists_run_added_again :
    ∃ W V U : World, W.Reachable ∧ W.now = 3 ∧ W.Calls ⟨.add ["a"], .ok (), none⟩ V ∧
      Run V lastCalls U := by
  have h₀ : Run World.idle [] _ :=
    (((Run.refl World.idle).begin (.intro _ (.add ["a"]))).begin
      (.intro _ (.rebuild userNames))).begin (.intro _ (.add ["a"]))
  have h₁ := h₀.call (.intro _ [] _ (.add ["a"]) _ none [] (.ok ()) rfl trivial)
  have h₂ := h₁.call (.intro _ [_] _ .snapshot _ none [] (.ok [["a"]]) rfl (by
    simp [World.Answers, World.pending, World.storeAfter, World.idle, Pending.Store.empty,
      Pending.Store.add, Pending.Store.snapshot, Pending.MemorySet.add, Pending.MemorySet.insert,
      Pending.MemorySet.snapshot, Pending.batches]))
  have h₃ := h₂.call (.intro _ [_] _ (.query _) _ none []
    (.ok [[("id", .str "a"), ("object", .str "Ann")]]) rfl trivial)
  exact ⟨_, _, _, ⟨World.idle, _, rfl, Pending.Store.sound_empty, h₃⟩, rfl,
    .intro _ [_, _] [] (.add ["a"]) _ none [] (.ok ()) rfl trivial,
    ((Run.refl _).call (.intro _ [_] _ (.deliver ⟨[⟨"a", .str "Ann"⟩], []⟩) _ (some 2) [] (.ok ()) rfl
      trivial)).call (.intro _ [_] _ (.remove ["a"]) _ (some 2) _ (.ok ()) rfl trivial)⟩

/-- The id is lost, though nothing has failed: it is not pending, and what has been delivered was
queried before the addition. -/
theorem added_again_lost :
    ∃ W V U : World, W.Reachable ∧ W.Calls ⟨.add ["a"], .ok (), none⟩ V ∧ Run V lastCalls U ∧
      ¬U.Keeps W.now "a" lastCalls := by
  obtain ⟨W, V, U, hw, hn, ha, hr⟩ := exists_run_added_again
  refine ⟨W, V, U, hw, ha, hr, ?_⟩
  rintro (hp | ⟨d, hd, changes, q, he, hq, -⟩)
  · have hr : Run V ([_] ++ [_]) U := hr
    obtain ⟨X, X', hrun, hc, hpend⟩ := hr.exists_last
    rw [hpend] at hp
    exact hc.notMem_pending ((hw.sound.calls ha).run hrun) List.mem_cons_self hp
  · rw [hn] at hq
    rcases List.mem_cons.mp hd with rfl | hd
    · cases he
      omega
    · rw [List.mem_singleton.mp hd] at he
      cases he

/-- The condition at such a run. -/
theorem keeps_added_again_iff :
    ∃ W V U : World, W.Reachable ∧ W.Calls ⟨.add ["a"], .ok (), none⟩ V ∧ Run V lastCalls U ∧
      ((∀ seen rest V', lastCalls = seen ++ rest → Run V seen V' → Run V' rest U →
          V'.Keeps W.now "a" seen) ↔
        ∀ seen h rest, lastCalls = seen ++ h :: rest → h.RemovesStale W.now "a" →
          ∃ d ∈ seen, d.Delivers W.now "a") := by
  obtain ⟨W, V, U, hw, -, ha, hr⟩ := exists_run_added_again
  exact ⟨W, V, U, hw, ha, hr, hw.keeps_added_iff ha List.mem_cons_self hr⟩

end EntityFeed
