import EntityFeed.Proofs.Feed.Alone
import EntityFeed.Proofs.Feed.Coverage
import EntityFeed.Proofs.Sql.Template

/-! What becomes of an event when any of those that take part may fail. Up to where a rebuild is asked
for, the event has been taken in as a whole or not at all; behind that, an id that it affects stays
pending until it has been accepted. -/
namespace EntityFeed
open Pending

theorem eraseDups_of_nodup {l : List String} (h : l.Nodup) : l.eraseDups = l := by
  induction l with
  | nil => rfl
  | cons a rest ih =>
    obtain ⟨fresh, nodup⟩ := List.nodup_cons.mp h
    have others : rest.filter (fun b => !b == a) = rest :=
      List.filter_eq_self.mpr fun b hb => by simpa using ne_of_mem_of_not_mem hb fresh
    rw [List.eraseDups_cons, others, ih nodup]

theorem nodup_eraseDups (l : List String) : l.eraseDups.Nodup := by
  have all : Ordered.add [] l = l.eraseDups := by simp [Ordered.add]
  exact all ▸ Ordered.nodup_add List.nodup_nil l

namespace Desk

variable {D : Desk}

/-- A call that does not remove leaves all pending ids there; one that does leaves the others. -/
theorem Exact.after (h : D.Exact) (c : Call) (answer : c.Answer) :
    (D.after c answer).Exact ∧ ∀ id ∈ D.pending,
      id ∈ (D.after c answer).pending ∨ ∃ ids, c = .remove ids ∧ id ∈ ids := by
  cases c with
  | add ids =>
    cases answer with
    | error => exact ⟨h, fun id hid => .inl hid⟩
    | ok _ =>
      obtain ⟨exact', order⟩ := pending_add h ids
      exact ⟨exact', fun id hid => .inl (order ▸ List.mem_append_left _ hid)⟩
  | remove ids =>
    cases answer with
    | error => exact ⟨h, fun id hid => .inl hid⟩
    | ok _ =>
      obtain ⟨exact', order⟩ := pending_remove h ids
      refine ⟨exact', fun id hid => ?_⟩
      by_cases gone : id ∈ ids
      · exact .inr ⟨ids, rfl, gone⟩
      · exact .inl (order ▸ List.mem_filter.mpr ⟨hid, by simpa using gone⟩)
  | query | snapshot | deliver | schedule => exact ⟨h, fun id hid => .inl hid⟩

end Desk

/-- What a call adds to the ids that have been accepted is in changes that it delivers. -/
theorem Call.mem_accepted {c : Call} {answer : c.Answer} {held : List String} {id : String}
    (h : id ∈ c.accepted answer held) :
    id ∈ held ∨ ∃ changes ∈ EntityFeed.accepted [⟨c, answer⟩], id ∈ changes.ids := by
  cases c with
  | query => cases h
  | deliver changes =>
    cases answer with
    | error => exact .inl h
    | ok _ =>
      rcases List.mem_append.mp h with new | old
      · exact .inr ⟨changes, by simp, new⟩
      · exact .inl old
  | add | remove | snapshot | schedule => exact .inl h

namespace Work

variable {α : Type} {K : Company} {D : Desk}

/-- An orderly work takes no id away that has not been accepted. -/
theorem Orderly.alone {w : Work α} {held : List String} (h : w.Orderly held) (exact : D.Exact) :
    ∃ later, (w.alone K D).2.calls = D.calls ++ later ∧ ∀ id ∈ D.pending,
      id ∈ (w.alone K D).2.pending ∨ id ∈ held ∨ ∃ changes ∈ accepted later, id ∈ changes.ids := by
  induction w generalizing D held with
  | done a => exact ⟨[], by simp, fun id hid => .inl hid⟩
  | call c next ih =>
    let answer := K.answer D c
    obtain ⟨exact', kept⟩ := Desk.Exact.after exact c answer
    obtain ⟨later, calls, rest⟩ := ih answer (h.2 answer) exact'
    refine ⟨⟨c, answer⟩ :: later, by rw [alone_call, calls]; simp [answer], fun id hid => ?_⟩
    rw [alone_call]
    have split : accepted (⟨c, answer⟩ :: later) = accepted [⟨c, answer⟩] ++ accepted later :=
      accepted_append [_] later
    rcases kept id hid with still | ⟨ids, rfl, gone⟩
    · rcases rest id still with pending | held' | ⟨changes, delivered, decided⟩
      · exact .inl pending
      · rcases Call.mem_accepted held' with held | ⟨changes, delivered, decided⟩
        · exact .inr (.inl held)
        · exact .inr (.inr ⟨changes, split ▸ List.mem_append_left _ delivered, decided⟩)
      · exact .inr (.inr ⟨changes, split ▸ List.mem_append_right _ delivered, decided⟩)
    · exact .inr (.inl (h.1 id gone))

/-- The work in which a scheduler does its own work wherever a rebuild is asked for. -/
def settle (scheduler : Work (Except Failure Unit)) : Work α → Work α
  | .done a => .done a
  | .call .schedule next => scheduler.bind fun result => settle scheduler (next result)
  | .call c next => .call c fun answer => settle scheduler (next answer)

/-- A scheduler that is asked for a rebuild and does it another time. -/
def asking : Work (Except Failure Unit) := .call .schedule .done

theorem settle_asking (w : Work α) : settle asking w = w := by
  induction w with
  | done a => rfl
  | call c next ih =>
    have same : (fun answer => settle asking (next answer)) = next := funext ih
    cases c <;> exact congrArg (call _) same

theorem bind_assoc {β γ : Type} (w : Work α) (f : α → Work β) (g : β → Work γ) :
    (w.bind f).bind g = w.bind fun a => (f a).bind g := by
  induction w with
  | done a => rfl
  | call c next ih => simp [bind, ih]

theorem inline_eq_settle {ρ : Type} (rebuild : Work (Except Failure ρ)) (w : Work α) :
    inline rebuild w = settle (rebuild.bind fun result => .done (result.map fun _ => ())) w := by
  induction w with
  | done a => rfl
  | call c next ih => cases c <;> simp [inline, settle, bind_assoc, ih]

end Work

namespace Feed

/-- The scheduler that runs a rebuild at once. -/
def immediate (f : Feed) : Work (Except Failure Unit) :=
  f.rebuild.bind fun result => .done (result.map fun _ => ())

theorem orderly_immediate (f : Feed) : f.immediate.Orderly [] :=
  (f.orderly_rebuild []).bind fun _ _ => trivial

/-- An event that is taken in with a scheduler. -/
def handle (f : Feed) (scheduler : Work (Except Failure Unit)) (e : ChangeEvent) :
    Work (Except Failure (List String)) :=
  Work.settle scheduler (f.receive e)

/-- The ids that an event turns out to affect, each where it first occurs, and what was called to find
them. -/
inductive Finds (f : Feed) (e : ChangeEvent) (K : Company) (D : Desk) :
    List Exchange → List String → Prop
  | unasked (plain : (f.schema.impact e).query = none) :
    Finds f e K D [] (f.schema.impact e).ids.eraseDups
  | asked {q : Sql.Statement} {rows : List Row} (asks : (f.schema.impact e).query = some q)
    (answers : K.reply D.calls (.query q.compile) = .ok rows) :
    Finds f e K D [⟨.query q.compile, .ok rows⟩]
      ((f.schema.impact e).ids ++ Row.idColumn rows "id").eraseDups

variable {f : Feed} {scheduler : Work (Except Failure Unit)} {e : ChangeEvent} {K : Company} {D : Desk}

theorem alone_request (ids : List String) (D : Desk) :
    (Work.settle scheduler (request ids)).alone K D =
      ((scheduler.alone K D).1.map fun _ => ids, (scheduler.alone K D).2) := by
  rw [request, Work.settle, Work.alone_bind]
  cases (scheduler.alone K D).1 <;> rfl

theorem alone_handle_of_query_error {q : Sql.Statement} {c : Causes}
    (asks : (f.schema.impact e).query = some q)
    (fails : K.reply D.calls (.query q.compile) = .error c) :
    (f.handle scheduler e).alone K D =
      (.error (.query c), D.after (.query q.compile) (.error c)) := by
  have answer : K.answer D (.query q.compile) = .error c := fails
  rw [handle, receive, asks]
  simp only [Work.settle, Work.alone_call, answer]
  rfl

/-- Once the ids are found, what is left is to make them pending and to ask for a rebuild. -/
theorem Finds.alone_handle {asked : List Exchange} {ids : List String}
    (h : f.Finds e K D asked ids) (scheduler : Work (Except Failure Unit)) (exact : D.Exact) :
    ids.Nodup ∧ ∃ D₁, D₁.Exact ∧ D₁.pending = D.pending ∧ D₁.calls = D.calls ++ asked ∧
      (f.handle scheduler e).alone K D =
        (Work.settle scheduler (if ids.isEmpty then request ids else .call (.add ids) fun
          | .error c => .done (.error (.store c))
          | .ok () => request ids)).alone K D₁ := by
  cases h with
  | unasked plain =>
    refine ⟨nodup_eraseDups _, D, exact, rfl, by simp, ?_⟩
    rw [handle, receive, plain, ← Sql.distinct_eq_eraseDups]
    rfl
  | @asked q rows asks answers =>
    have answer : K.answer D (.query q.compile) = .ok rows := answers
    refine ⟨nodup_eraseDups _, D.after (.query q.compile) (.ok rows), exact, rfl, rfl, ?_⟩
    rw [handle, receive, asks, ← Sql.distinct_eq_eraseDups]
    simp only [Work.settle, Work.alone_call, answer]
    rfl

/-- An event is taken in as a whole or not at all, whoever fails. If the ids that it affects cannot be
asked for, or not be added, then it ends with that error, nothing has become pending, and nobody has been
asked for a rebuild. Otherwise the scheduler does its work once, also if nothing is affected, and finds
the affected ids pending behind those that were pending before. If it fails, its error is passed on, else
the affected ids are given back; either way each of them is pending still or in changes that have been
accepted since. A scheduler may do any work that takes nothing away before it is accepted. The one that
only asks for a rebuild and the one that runs it at once are such. -/
theorem handle_whole_or_not (f : Feed) (scheduler : Work (Except Failure Unit)) (e : ChangeEvent)
    (K : Company) (D : Desk) (orderly : scheduler.Orderly []) (exact : D.Exact) :
    (Work.asking.Orderly [] ∧ f.handle .asking e = f.receive e) ∧
    (f.immediate.Orderly [] ∧ f.handle f.immediate e = Work.inline f.rebuild (f.receive e)) ∧
    (∀ q c, (f.schema.impact e).query = some q → K.reply D.calls (.query q.compile) = .error c →
      ∃ D', (f.handle scheduler e).alone K D = (.error (.query c), D') ∧ D'.pending = D.pending ∧
        D'.calls = D.calls ++ [⟨.query q.compile, .error c⟩]) ∧
    (∀ asked ids c, f.Finds e K D asked ids → ids ≠ [] →
      K.reply (D.calls ++ asked) (.add ids) = .error c →
      ∃ D', (f.handle scheduler e).alone K D = (.error (.store c), D') ∧ D'.pending = D.pending ∧
        D'.calls = D.calls ++ asked ++ [⟨.add ids, .error c⟩]) ∧
    ∀ asked ids, f.Finds e K D asked ids →
      (ids ≠ [] → K.reply (D.calls ++ asked) (.add ids) = .ok ()) →
      ∃ D₂ D' result later,
        D₂.calls = D.calls ++ asked ++ (if ids = [] then [] else [⟨.add ids, .ok ()⟩]) ∧
        D₂.pending = D.pending ++ ids.filter (· ∉ D.pending) ∧
        scheduler.alone K D₂ = (result, D') ∧
        (f.handle scheduler e).alone K D = (result.map fun _ => ids, D') ∧
        D'.calls = D₂.calls ++ later ∧
        ∀ id ∈ D₂.pending, id ∈ D'.pending ∨ ∃ changes ∈ accepted later, id ∈ changes.ids := by
  refine ⟨⟨⟨trivial, fun _ => trivial⟩, Work.settle_asking _⟩,
    ⟨f.orderly_immediate, (Work.inline_eq_settle _ _).symm⟩, ?_, ?_, ?_⟩
  · intro q c asks fails
    exact ⟨_, alone_handle_of_query_error asks fails, rfl, rfl⟩
  · intro asked ids c found some fails
    obtain ⟨-, D₁, -, pending, calls, run⟩ := found.alone_handle scheduler exact
    have answer : K.answer D₁ (.add ids) = .error c := by
      rw [← fails, ← calls]
      rfl
    refine ⟨D₁.after (.add ids) (.error c), ?_, pending, by rw [Desk.calls_after, calls]⟩
    rw [run, if_neg (by simpa using some)]
    simp only [Work.settle, Work.alone_call, answer]
    rfl
  · intro asked ids found adds
    obtain ⟨nodup, D₁, exact₁, pending₁, calls₁, run⟩ :=
      found.alone_handle scheduler exact
    obtain ⟨D₂, exact₂, pending₂, calls₂, run₂⟩ : ∃ D₂ : Desk, D₂.Exact ∧
        D₂.pending = D.pending ++ ids.filter (· ∉ D.pending) ∧
        D₂.calls = D.calls ++ asked ++ (if ids = [] then [] else [⟨.add ids, .ok ()⟩]) ∧
        (f.handle scheduler e).alone K D = (Work.settle scheduler (request ids)).alone K D₂ := by
      by_cases none : ids = []
      · refine ⟨D₁, exact₁, by simp [none, pending₁], by simp [none, calls₁], ?_⟩
        rw [run, if_pos (by simpa using none)]
      · have answer : K.answer D₁ (.add ids) = .ok () := by
          rw [← adds none, ← calls₁]
          rfl
        obtain ⟨exact₂, order⟩ := Desk.pending_add exact₁ ids
        refine ⟨_, exact₂, ?_, by rw [Desk.calls_after, calls₁, if_neg none], ?_⟩
        · rw [order, pending₁, Ordered.add, eraseDups_of_nodup (nodup.filter _)]
        · rw [run, if_neg (by simpa using none)]
          simp only [Work.settle, Work.alone_call, answer]
    obtain ⟨later, calls', kept⟩ := orderly.alone (K := K) exact₂
    refine ⟨D₂, _, _, later, calls₂, pending₂, rfl, run₂.trans (alone_request ids D₂), calls', ?_⟩
    exact fun id hid => (kept id hid).imp_right fun h => h.resolve_left List.not_mem_nil

end Feed

/-- Those among whom the receiver of changes accepts nothing. -/
def unheard : Company where
  batchSize := 1000
  reply _ c := match c with
    | .query _ => .ok [[("id", .str "a"), ("object", .str "Ann")]]
    | .deliver _ => .error ["not now"]
    | .snapshot => .ok []
    | .add _ | .remove _ | .schedule => .ok ()

def quietDesk : Desk := ⟨.memory (({} : MemorySet).add ["b"]), ⟨"", [], [], []⟩, []⟩

theorem exact_quietDesk : quietDesk.Exact := MemorySet.exact_empty.add _

/-- A new user is added, and rebuilt at once. The receiver fails, the event ends with that error, and the
user is pending still. -/
theorem newUser_whole_or_not :
    userNames.immediate.Orderly [] ∧ quietDesk.Exact ∧ ∃ D',
      (Work.inline userNames.rebuild (userNames.receive newUser)).alone unheard quietDesk =
        (.error (.callback ["not now"]), D') ∧ "a" ∈ D'.pending := by
  have ids : (userNames.schema.impact newUser).ids = ["a"] := by decide +kernel
  have query : (userNames.schema.impact newUser).query = none := by decide +kernel
  have found : userNames.Finds newUser unheard quietDesk [] ["a"] := by
    have unasked := Feed.Finds.unasked (K := unheard) (D := quietDesk) query
    rwa [ids] at unasked
  have before : quietDesk.pending = ["b"] := by
    simp [Desk.pending, quietDesk, Store.snapshot, MemorySet.add, MemorySet.insert,
      MemorySet.snapshot]
  obtain ⟨-, ⟨orderly, inline⟩, -, -, whole⟩ := userNames.handle_whole_or_not userNames.immediate newUser
    unheard quietDesk userNames.orderly_immediate exact_quietDesk
  obtain ⟨D₂, D', result, later, -, pending, work, run, calls, kept⟩ :=
    whole [] ["a"] found fun _ => rfl
  have queued : D₂.pending = ["b", "a"] := by simp [pending, before]
  have cut : unheard.answer D₂ .snapshot = .ok [["b", "a"]] := by
    simp [Company.answer, unheard, Except.map, queued, batches]
  rw [Feed.immediate, Work.alone_bind, Feed.rebuild, Work.alone_call, cut] at work
  obtain ⟨rfl, rfl⟩ := Prod.mk.inj work
  refine ⟨orderly, exact_quietDesk, _, inline ▸ run, ?_⟩
  refine (kept "a" (by simp [queued])).resolve_right ?_
  have three : D₂.calls ++ later = D₂.calls ++ [⟨.snapshot, .ok [["b", "a"]]⟩] ++
      [⟨.query (userNames.objectQuery ["b", "a"]), .ok _⟩] ++ [⟨.deliver _, .error ["not now"]⟩] :=
    calls.symm
  rw [List.append_assoc, List.append_assoc, List.append_cancel_left_eq] at three
  simp [three]

end EntityFeed
