import EntityFeed.Proofs.Feed.Trace
import Mathlib.Data.List.Forall2

/-! What a rebuild has done at each point. Its batches are built one after the other; a batch is
delivered before it is removed, and the first failure is the last call. -/
namespace EntityFeed

namespace Exchange

@[simp] def accepted? : Exchange → Option Changes
  | ⟨.deliver changes, .ok ()⟩ => some changes
  | _ => none

@[simp] def removed? : Exchange → Option (List String)
  | ⟨.remove ids, .ok ()⟩ => some ids
  | _ => none

/-- That a call has failed. -/
@[simp] def Fails : Exchange → Prop
  | ⟨.query _, .error _⟩ | ⟨.add _, .error _⟩ | ⟨.remove _, .error _⟩ | ⟨.snapshot, .error _⟩
  | ⟨.deliver _, .error _⟩ | ⟨.schedule, .error _⟩ => True
  | _ => False

end Exchange

/-- The changes that have been accepted in some calls. -/
def accepted (xs : List Exchange) : List Changes := xs.filterMap (·.accepted?)

/-- The batches that have been removed in some calls. -/
def removed (xs : List Exchange) : List (List String) := xs.filterMap (·.removed?)

section

variable (x : Exchange) (xs ys : List Exchange)

@[simp] theorem accepted_nil : accepted [] = [] := rfl

@[simp] theorem accepted_cons : accepted (x :: xs) = x.accepted?.toList ++ accepted xs := by
  rw [accepted, List.filterMap_cons]
  cases x.accepted? <;> rfl

@[simp] theorem accepted_append : accepted (xs ++ ys) = accepted xs ++ accepted ys :=
  List.filterMap_append

@[simp] theorem removed_nil : removed [] = [] := rfl

@[simp] theorem removed_cons : removed (x :: xs) = x.removed?.toList ++ removed xs := by
  rw [removed, List.filterMap_cons]
  cases x.removed? <;> rfl

@[simp] theorem removed_append : removed (xs ++ ys) = removed xs ++ removed ys :=
  List.filterMap_append

end

/-- That changes decide the ids of some batches, one after the other. -/
def Decides (cs : List Changes) (batches : List (List String)) : Prop :=
  List.Forall₂ (fun c ids => c.ids.Perm ids) cs batches

theorem Decides.concat {cs : List Changes} {batches : List (List String)} {c : Changes}
    {ids : List String} (h : Decides cs batches) (hc : c.ids.Perm ids) :
    Decides (cs ++ [c]) (batches ++ [ids]) :=
  List.rel_append h (.cons hc .nil)

namespace Feed

variable {f : Feed}

/-- The calls that build some batches. -/
inductive Builds (f : Feed) : List (List String) → List Exchange → Prop
  | nil : Builds f [] []
  | cons {ids : List String} {rows : List Row} {batches : List (List String)} {xs : List Exchange}
    (rest : Builds f batches xs) :
    Builds f (ids :: batches) (⟨.query (f.objectQuery ids), .ok rows⟩ ::
      ⟨.deliver (.ofRows f.options ids rows), .ok ()⟩ :: ⟨.remove ids, .ok ()⟩ :: xs)

theorem Builds.removed_eq {batches : List (List String)} {xs : List Exchange}
    (h : f.Builds batches xs) : removed xs = batches := by
  induction h with
  | nil => rfl
  | cons _ ih => exact congrArg _ ih

theorem Builds.decides {batches : List (List String)} {xs : List Exchange}
    (h : f.Builds batches xs) : Decides (accepted xs) batches := by
  induction h with
  | nil => exact .nil
  | cons _ ih => exact .cons (Changes.perm_ids_ofRows f.options _ _) ih

theorem Builds.not_fails {batches : List (List String)} {xs : List Exchange}
    (h : f.Builds batches xs) : ∀ x ∈ xs, ¬x.Fails := by
  induction h with
  | nil => simp
  | cons _ ih => simpa using ih

/-- The calls for a batch up to the one that fails, that one, and the failure. -/
inductive Fails (f : Feed) (ids : List String) : List Exchange → Exchange → Failure → Prop
  | query {c : Causes} : Fails f ids [] ⟨.query (f.objectQuery ids), .error c⟩ (.query c)
  | deliver {rows : List Row} {c : Causes} : Fails f ids [⟨.query (f.objectQuery ids), .ok rows⟩]
      ⟨.deliver (.ofRows f.options ids rows), .error c⟩ (.callback c)
  | remove {rows : List Row} {c : Causes} : Fails f ids [⟨.query (f.objectQuery ids), .ok rows⟩,
      ⟨.deliver (.ofRows f.options ids rows), .ok ()⟩] ⟨.remove ids, .error c⟩ (.store c)

/-- Where a rebuild is that has built all batches in front of these. -/
inductive Within (f : Feed) : List (List String) → List Exchange → Work (Except Failure Report) → Prop
  | built {r : Report} : Within f [] [] (.done (.ok r))
  | before {ids : List String} {batches : List (List String)}
    {next : Except Causes (List Row) → Work (Except Failure Report)} :
    Within f (ids :: batches) [] (.call (.query (f.objectQuery ids)) next)
  | queried {ids : List String} {rows : List Row} {batches : List (List String)}
    {next : Except Causes Unit → Work (Except Failure Report)} :
    Within f (ids :: batches) [⟨.query (f.objectQuery ids), .ok rows⟩]
      (.call (.deliver (.ofRows f.options ids rows)) next)
  | delivered {ids : List String} {rows : List Row} {batches : List (List String)}
    {next : Except Causes Unit → Work (Except Failure Report)} :
    Within f (ids :: batches) [⟨.query (f.objectQuery ids), .ok rows⟩,
      ⟨.deliver (.ofRows f.options ids rows), .ok ()⟩] (.call (.remove ids) next)
  | failed {ids : List String} {batches : List (List String)} {xs : List Exchange} {x : Exchange}
    {e : Failure} (fails : f.Fails ids xs x e) :
    Within f (ids :: batches) (xs ++ [x]) (.done (.error e))

theorem goes_rebuildBatches {r : Report} {batches : List (List String)} {xs : List Exchange}
    {w : Work (Except Failure Report)} (h : (f.rebuildBatches r batches).Goes xs w) :
    ∃ front back calls last, batches = front ++ back ∧ xs = calls ++ last ∧ f.Builds front calls ∧
      f.Within back last w := by
  induction batches generalizing r xs with
  | nil =>
    obtain ⟨rfl, rfl⟩ := h.of_done
    exact ⟨[], [], [], [], rfl, rfl, .nil, .built⟩
  | cons ids rest ih =>
    cases h with
    | refl => exact ⟨[], ids :: rest, [], [], rfl, rfl, .nil, .before⟩
    | @call _ _ rows _ _ h =>
      cases rows with
      | error c =>
        obtain ⟨rfl, rfl⟩ := h.of_done
        exact ⟨[], ids :: rest, [], _, rfl, rfl, .nil, .failed .query⟩
      | ok rows =>
        cases h with
        | refl => exact ⟨[], ids :: rest, [], _, rfl, rfl, .nil, .queried⟩
        | @call _ _ answer _ _ h =>
          cases answer with
          | error c =>
            obtain ⟨rfl, rfl⟩ := h.of_done
            exact ⟨[], ids :: rest, [], _, rfl, rfl, .nil, .failed .deliver⟩
          | ok _ =>
            cases h with
            | refl => exact ⟨[], ids :: rest, [], _, rfl, rfl, .nil, .delivered⟩
            | @call _ _ answer _ _ h =>
              cases answer with
              | error c =>
                obtain ⟨rfl, rfl⟩ := h.of_done
                exact ⟨[], ids :: rest, [], _, rfl, rfl, .nil, .failed .remove⟩
              | ok _ =>
                obtain ⟨front, back, calls, last, rfl, rfl, builds, within⟩ := ih h
                exact ⟨ids :: front, back, _, last, rfl, rfl, .cons builds, within⟩

theorem goes_rebuild {xs : List Exchange} {w : Work (Except Failure Report)}
    (h : f.rebuild.Goes xs w) :
    xs = [] ∧ w = f.rebuild ∨
      (∃ c, xs = [⟨.snapshot, .error c⟩] ∧ w = .done (.error (.store c))) ∨
      ∃ front back calls last, xs = ⟨.snapshot, .ok (front ++ back)⟩ :: (calls ++ last) ∧
        f.Builds front calls ∧ f.Within back last w := by
  cases h with
  | refl => exact .inl ⟨rfl, rfl⟩
  | @call _ _ found _ _ h =>
    cases found with
    | error c =>
      obtain ⟨rfl, rfl⟩ := h.of_done
      exact .inr (.inl ⟨c, rfl, rfl⟩)
    | ok batches =>
      obtain ⟨front, back, calls, last, rfl, rfl, builds, within⟩ := goes_rebuildBatches h
      exact .inr (.inr ⟨front, back, calls, last, rfl, builds, within⟩)

/-- A rebuild ends where one of its calls fails. -/
theorem error_of_goes_rebuild {xs : List Exchange} {w : Work (Except Failure Report)} {x : Exchange}
    (h : f.rebuild.Goes xs w) (hx : x ∈ xs) (fails : x.Fails) : ∃ e, w = .done (.error e) := by
  obtain ⟨rfl, -⟩ | ⟨c, -, rfl⟩ | ⟨front, back, calls, last, rfl, builds, within⟩ := goes_rebuild h
  · contradiction
  · exact ⟨_, rfl⟩
  · rw [List.mem_cons, List.mem_append] at hx
    rcases hx with rfl | built | failing
    · cases fails
    · exact absurd fails (builds.not_fails x built)
    · cases within with
      | failed => exact ⟨_, rfl⟩
      | built | before => contradiction
      | queried =>
        rw [List.mem_singleton.mp failing] at fails
        cases fails
      | delivered => rcases List.mem_pair.mp failing with rfl | rfl <;> cases fails

/-- What a rebuild is about to remove is a batch of its snapshot, and has been accepted. -/
theorem goes_rebuild_remove {xs : List Exchange} {ids : List String}
    {next : Except Causes Unit → Work (Except Failure Report)}
    (h : f.rebuild.Goes xs (.call (.remove ids) next)) :
    ∃ batches calls changes, xs = ⟨.snapshot, .ok batches⟩ :: calls ∧ ids ∈ batches ∧
      changes ∈ accepted calls ∧ changes.ids.Perm ids := by
  obtain ⟨-, ends⟩ | ⟨c, -, ends⟩ | ⟨front, back, calls, last, rfl, -, within⟩ := goes_rebuild h
  · cases ends
  · cases ends
  · cases within with
    | @delivered _ rows =>
      refine ⟨_, _, .ofRows f.options ids rows, rfl, by simp, ?_, Changes.perm_ids_ofRows _ _ _⟩
      rw [accepted_append]
      exact List.mem_append_right _ List.mem_cons_self

/-- A rebuild that has not failed has delivered and removed all batches of its snapshot. -/
theorem complete_of_goes_rebuild {xs : List Exchange} {r : Report}
    (h : f.rebuild.Goes xs (.done (.ok r))) :
    ∃ batches calls, xs = ⟨.snapshot, .ok batches⟩ :: calls ∧ Decides (accepted calls) batches ∧
      removed calls = batches := by
  obtain ⟨-, ends⟩ | ⟨c, -, ends⟩ | ⟨front, back, calls, last, rfl, builds, within⟩ := goes_rebuild h
  · cases ends
  · cases ends
  · cases within with
    | built =>
      rw [List.append_nil, List.append_nil]
      exact ⟨front, calls, rfl, builds.decides, builds.removed_eq⟩

/-- How a rebuild has failed. At a batch behind others, it has delivered and removed those and nothing
else, unless it has delivered the batch too and could not remove it. -/
inductive Stops (f : Feed) : List Exchange → Failure → Prop
  | snapshot {c : Causes} : Stops f [⟨.snapshot, .error c⟩] (.store c)
  | query {front back : List (List String)} {ids : List String} {calls : List Exchange} {c : Causes}
    (decides : Decides (accepted calls) front) (removes : removed calls = front) :
    Stops f (⟨.snapshot, .ok (front ++ ids :: back)⟩ ::
      (calls ++ [⟨.query (f.objectQuery ids), .error c⟩])) (.query c)
  | deliver {front back : List (List String)} {ids : List String} {calls : List Exchange}
    {changes : Changes} {c : Causes} (about : changes.ids.Perm ids)
    (decides : Decides (accepted calls) front) (removes : removed calls = front) :
    Stops f (⟨.snapshot, .ok (front ++ ids :: back)⟩ ::
      (calls ++ [⟨.deliver changes, .error c⟩])) (.callback c)
  | remove {front back : List (List String)} {ids : List String} {calls : List Exchange} {c : Causes}
    (decides : Decides (accepted calls) (front ++ [ids])) (removes : removed calls = front) :
    Stops f (⟨.snapshot, .ok (front ++ ids :: back)⟩ ::
      (calls ++ [⟨.remove ids, .error c⟩])) (.store c)

theorem stops_of_goes_rebuild {xs : List Exchange} {e : Failure}
    (h : f.rebuild.Goes xs (.done (.error e))) : f.Stops xs e := by
  obtain ⟨-, ends⟩ | ⟨c, rfl, ends⟩ | ⟨front, back, calls, last, rfl, builds, within⟩ := goes_rebuild h
  · cases ends
  · cases ends
    exact .snapshot
  · cases within with
    | failed fails =>
      rw [← List.append_assoc]
      have decides := builds.decides
      have removes := builds.removed_eq
      cases fails with
      | query => exact .query (by simpa using decides) (by simpa using removes)
      | deliver =>
        refine .deliver (Changes.perm_ids_ofRows _ _ _) ?_ ?_
        · simpa using decides
        · simpa using removes
      | remove =>
        refine .remove ?_ ?_
        · simpa using decides.concat (Changes.perm_ids_ofRows f.options _ _)
        · simpa using removes

end Feed
end EntityFeed
