import EntityFeed.Proofs.Feed.Alone
import EntityFeed.Proofs.Feed.Survival
import Mathlib.Data.List.Induction
import Mathlib.Data.List.Perm.Basic

/-! What a rebuild delivers when nobody fails: for each batch, in the order of the pending ids, one set of
changes that decides each of its ids once by the rows that were found, whatever rows these are. -/
namespace EntityFeed
open Pending

namespace Members

theorem get?_insert_of_ne (m : Members) {key other : String} (value : Json) (h : other ≠ key) :
    (m.insert key value).get? other = m.get? other := by
  induction m with
  | nil => simp [insert, get?, List.lookup_cons, beq_false_of_ne h]
  | cons head rest ih =>
    obtain ⟨k, v⟩ := head
    simp only [get?] at ih
    by_cases hk : k = key
    · simp [insert, get?, List.lookup_cons, hk, beq_false_of_ne h]
    · simp [insert, get?, List.lookup_cons, hk, ih]

/-- What is left without a key. -/
theorem get?_filter_of_ne (m : Members) {key other : String} (h : other ≠ key) :
    get? (m.filter (·.1 != key)) other = m.get? other := by
  induction m with
  | nil => rfl
  | cons head rest ih =>
    obtain ⟨k, v⟩ := head
    simp only [get?] at ih
    by_cases hk : k = key
    · simp [get?, List.lookup_cons, hk, ih, beq_false_of_ne h]
    · simp [get?, List.lookup_cons, hk, ih]

end Members

/-- The id that a row of an object query is for. -/
def Row.id? (row : Row) : Option String := (row.get? "id").bind Json.idText?

/-- The object that a row has, null if there is none. -/
def Row.object (options : NormalizeOptions) (row : Row) : Json :=
  ((row.get? "object").getD .null).normalize options

namespace Changes

variable {options : NormalizeOptions}

theorem objects_concat (options : NormalizeOptions) (rows : List Row) (row : Row) :
    objects options (rows ++ [row]) = match row.id? with
      | some id => (objects options rows).insert id (row.object options)
      | none => objects options rows := by
  rw [objects, List.foldl_concat]
  rfl

/-- The last row for an id has the object that counts. -/
theorem get?_objects (options : NormalizeOptions) (rows : List Row) (id : String) :
    (objects options rows).get? id =
      (rows.reverse.find? (·.id? = some id)).map (·.object options) := by
  induction rows using List.reverseRecOn with
  | nil => rfl
  | append_singleton rows row ih =>
    rw [objects_concat, List.reverse_concat, List.find?_cons]
    cases hrow : row.id? with
    | none => simpa using ih
    | some other =>
      by_cases same : other = id
      · simp [same]
      · rw [Members.get?_insert_of_ne _ _ (Ne.symm same)]
        simpa [same] using ih

theorem decide_eq {ids : List String} (nodup : ids.Nodup) (found : Members) :
    decide found ids = ⟨ids.filterMap fun id => (found.get? id).map (⟨id, ·⟩),
      ids.filter fun id => (found.get? id).isNone⟩ := by
  induction ids generalizing found with
  | nil => rfl
  | cons id rest ih =>
    obtain ⟨fresh, nodup⟩ := List.nodup_cons.mp nodup
    cases hid : found.get? id with
    | none => simp [decide, hid, ih nodup]
    | some object =>
      have others : ∀ other ∈ rest, Members.get? (found.filter (·.1 != id)) other = found.get? other :=
        fun other ho => found.get?_filter_of_ne fun same => fresh (same ▸ ho)
      rw [decide, hid, ih nodup]
      have upserts := List.filterMap_congr fun other ho =>
        congrArg (Option.map (Upsert.mk other)) (others other ho)
      have deletes := List.filter_congr fun other ho => congrArg Option.isNone (others other ho)
      simp [hid, upserts, deletes]

/-- That changes decide each id of a batch by some rows. The ids that a row is for are upserted and the
others deleted, both in the order of the batch, and an object is that of the last row for its id. -/
structure IsVerdict (options : NormalizeOptions) (ids : List String) (rows : List Row) (c : Changes) :
    Prop where
  upserts : c.upsert.map (·.id) = ids.filter fun id => ∃ row ∈ rows, row.id? = some id
  deletes : c.delete = ids.filter fun id => ¬ ∃ row ∈ rows, row.id? = some id
  objects : ∀ u ∈ c.upsert, ∃ before row after, rows = before ++ row :: after ∧
    row.id? = some u.id ∧ (∀ later ∈ after, later.id? ≠ some u.id) ∧ u.object = row.object options

theorem get?_objects_isSome (options : NormalizeOptions) (rows : List Row) (id : String) :
    ((objects options rows).get? id).isSome = true ↔ ∃ row ∈ rows, row.id? = some id := by
  rw [get?_objects, Option.isSome_map, List.find?_isSome]
  simp

theorem isVerdict_ofRows (options : NormalizeOptions) {ids : List String} (nodup : ids.Nodup)
    (rows : List Row) : IsVerdict options ids rows (ofRows options ids rows) := by
  rw [ofRows, decide_eq nodup]
  have found := get?_objects_isSome options rows
  refine ⟨?_, ?_, ?_⟩
  · have named (id : String) : Option.map (·.id)
        (((Changes.objects options rows).get? id).map (Upsert.mk id)) =
          Option.guard (fun id => ∃ row ∈ rows, row.id? = some id) id := by
      simp only [Option.guard, ← found id]
      cases (Changes.objects options rows).get? id <;> rfl
    simp only [List.map_filterMap, named, List.filterMap_eq_filter]
  · refine List.filter_congr fun id _ => ?_
    rw [Bool.eq_iff_iff, decide_eq_true_iff, ← found id]
    cases (Changes.objects options rows).get? id <;> simp
  · intro u hu
    obtain ⟨id, -, hid⟩ := List.mem_filterMap.mp hu
    obtain ⟨object, hobject, rfl⟩ := Option.map_eq_some_iff.mp hid
    rw [get?_objects] at hobject
    obtain ⟨row, hrow, rfl⟩ := Option.map_eq_some_iff.mp hobject
    obtain ⟨own, after, before, split, later⟩ := List.find?_eq_some_iff_append.mp hrow
    refine ⟨before.reverse, row, after.reverse, ?_, by simpa using own, ?_, rfl⟩
    · simpa using congrArg List.reverse split
    · intro other hother
      simpa using later other (List.mem_reverse.mp hother)

end Changes

theorem Report.foldl_count {α : Type} (changes : α → Changes) (r : Report) (l : List α) :
    l.foldl (fun r a => r.count (changes a)) r =
      ⟨r.batches + l.length, r.upserted + (l.flatMap fun a => (changes a).upsert).length,
        r.deleted + (l.flatMap fun a => (changes a).delete).length⟩ := by
  induction l generalizing r with
  | nil => rfl
  | cons a rest ih =>
    rw [List.foldl_cons, ih, List.flatMap_cons, List.flatMap_cons, List.length_append,
      List.length_append, List.length_cons]
    simp [count, Nat.add_assoc, Nat.add_comm 1]

namespace Company.Willing

variable {K : Company}

theorem query (h : K.Willing) (D : Desk) (q : Sql.Compiled) :
    ∃ rows, K.answer D (.query q) = .ok rows := by
  cases hr : K.reply D.calls (.query q) with
  | error c => exact absurd (hr ▸ trivial) (h D.calls (.query q))
  | ok rows => exact ⟨rows, hr⟩

theorem deliver (h : K.Willing) (D : Desk) (changes : Changes) :
    K.answer D (.deliver changes) = .ok () := by
  cases hr : K.reply D.calls (.deliver changes) with
  | error c => exact absurd (hr ▸ trivial) (h D.calls (.deliver changes))
  | ok _ => exact hr

theorem remove (h : K.Willing) (D : Desk) (ids : List String) :
    K.answer D (.remove ids) = .ok () := by
  cases hr : K.reply D.calls (.remove ids) with
  | error c => exact absurd (hr ▸ trivial) (h D.calls (.remove ids))
  | ok _ => exact hr

theorem snapshot (h : K.Willing) (D : Desk) :
    K.answer D .snapshot = .ok (batches K.batchSize D.pending) := by
  rw [Company.answer]
  cases hr : K.reply D.calls .snapshot with
  | error c => exact absurd (hr ▸ trivial) (h D.calls .snapshot)
  | ok _ => rfl

end Company.Willing

/-- A batch with the rows that were found for it and the changes that were delivered. -/
structure Built where
  ids : List String
  rows : List Row
  changes : Changes

/-- The calls that a batch took. -/
def Built.calls (f : Feed) (b : Built) : List Exchange :=
  [⟨.query (f.objectQuery b.ids), .ok b.rows⟩, ⟨.deliver b.changes, .ok ()⟩, ⟨.remove b.ids, .ok ()⟩]

namespace Feed

variable {K : Company} {D : Desk}

/-- Batches that nobody fails at are all built, and are pending no more. -/
theorem alone_rebuildBatches (f : Feed) (willing : K.Willing) (exact : D.Exact) (r : Report)
    (batches : List (List String)) :
    ∃ (built : List Built) (D' : Desk), (f.rebuildBatches r batches).alone K D =
        (.ok (built.foldl (fun r b => r.count b.changes) r), D') ∧
      built.map (·.ids) = batches ∧
      (∀ b ∈ built, b.changes = .ofRows f.options b.ids b.rows) ∧
      D'.calls = D.calls ++ built.flatMap (·.calls f) ∧
      D'.pending = D.pending.filter (· ∉ batches.flatten) := by
  induction batches generalizing r D with
  | nil => exact ⟨[], D, rfl, rfl, by simp, by simp, by simp⟩
  | cons ids rest ih =>
    obtain ⟨rows, found⟩ := willing.query D (f.objectQuery ids)
    let changes := Changes.ofRows f.options ids rows
    let asked := D.after (.query (f.objectQuery ids)) (.ok rows)
    let told := asked.after (.deliver changes) (.ok ())
    obtain ⟨exact', left⟩ := Desk.pending_remove (D := told) exact ids
    obtain ⟨built, D', run, batches, verdicts, calls, pending⟩ := ih exact' (r.count changes)
    refine ⟨⟨ids, rows, changes⟩ :: built, D', ?_, congrArg _ batches, ?_, ?_, ?_⟩
    · rw [rebuildBatches, Work.alone_call, found, Work.alone_call, willing.deliver, Work.alone_call,
        willing.remove]
      exact run
    · exact List.forall_mem_cons.mpr ⟨rfl, verdicts⟩
    · rw [calls]
      simp [told, asked, Built.calls]
    · have before : told.pending = D.pending := rfl
      rw [pending, left, before, Pending.Ordered.remove, List.filter_filter]
      refine List.filter_congr fun id _ => ?_
      rw [List.flatten_cons, Bool.eq_iff_iff, Bool.and_eq_true]
      simp only [decide_eq_true_iff, List.mem_append, not_or, and_comm]

/-- A rebuild that has the store to itself and that nobody fails decides every pending id exactly once.
For each batch of the pending ids, in their order and cut to size, it queries the objects, delivers one
set of changes and removes the batch, and that is all that it calls. The changes decide the ids of the
batch by the rows that were found, whatever rows these are. Together they decide just the ids that were
pending, each once; the report counts them; and nothing is pending in the end. -/
theorem rebuild_decides_once (f : Feed) (K : Company) (D : Desk) (willing : K.Willing)
    (exact : D.Exact) :
    ∃ (built : List Built) (D' : Desk),
      f.rebuild.alone K D = (.ok ⟨built.length, (built.flatMap (·.changes.upsert)).length,
        (built.flatMap (·.changes.delete)).length⟩, D') ∧
      IsCut K.batchSize D.pending (built.map (·.ids)) ∧
      D'.calls = D.calls ++ ⟨.snapshot, .ok (built.map (·.ids))⟩ :: built.flatMap (·.calls f) ∧
      (∀ b ∈ built, b.ids.Nodup ∧ b.changes.IsVerdict f.options b.ids b.rows) ∧
      (built.flatMap (·.changes.ids)).Perm D.pending ∧ D.pending.Nodup ∧ D'.pending = [] := by
  have nodup : D.pending.Nodup := exact.nodup
  let cut := batches K.batchSize D.pending
  have whole : cut.flatten = D.pending := flatten_batches _ _
  let seen := D.after .snapshot (.ok cut)
  obtain ⟨built, D', run, ids, verdicts, calls, pending⟩ :=
    alone_rebuildBatches (D := seen) f willing exact {} cut
  have about (b : Built) (hb : b ∈ built) : b.changes.ids.Perm b.ids := by
    rw [verdicts b hb]
    exact Changes.perm_ids_ofRows f.options b.ids b.rows
  have own (b : Built) (hb : b ∈ built) : b.ids.Nodup := by
    have inside : b.ids ∈ cut := ids ▸ List.mem_map_of_mem hb
    exact nodup.sublist (whole ▸ List.sublist_flatten_of_mem inside)
  refine ⟨built, D', ?_, ?_, ?_, ?_, ?_, nodup, ?_⟩
  · rw [rebuild, Work.alone_call, willing.snapshot]
    simpa only [Report.foldl_count, Nat.zero_add] using run
  · rw [ids]
    exact isCut_batches _ _
  · rw [calls, ids]
    simp [seen]
  · intro b hb
    rw [verdicts b hb]
    exact ⟨own b hb, Changes.isVerdict_ofRows _ (own b hb) _⟩
  · rw [← whole, ← ids, ← List.flatMap_def]
    exact List.Perm.flatMap_left _ about
  · have before : seen.pending = D.pending := rfl
    rw [pending, whole, before]
    exact List.filter_eq_nil_iff.mpr fun id hid => by simpa using hid

end Feed

/-- A database that answers every query alike: with a row for another id, two rows for `a` the last of
which has no object, one without an id, and one whose id is a number. -/
def careless : Company where
  batchSize := 2
  reply _ c := match c with
    | .query _ => .ok [[("id", .str "z"), ("object", .str "Zoe")], [("id", .str "a"), ("object", .str "Ann")],
        [("object", .str "Ben")], [("id", .str "a")], [("id", .int 1), ("object", .str "Una")]]
    | .snapshot => .ok []
    | .add _ | .remove _ | .deliver _ | .schedule => .ok ()

theorem willing_careless : careless.Willing := by
  intro calls c
  cases c <;> exact id

def guests : Desk := ⟨.memory (({} : MemorySet).add ["a", "b", "1"]), ⟨"", [], [], []⟩, []⟩

theorem exact_guests : guests.Exact := MemorySet.exact_empty.add _

theorem guests_decided_once :
    careless.Willing ∧ guests.Exact ∧ guests.pending = ["a", "b", "1"] ∧
      (accepted (userNames.rebuild.alone careless guests).2.calls).map
        (fun c => (c.upsert.map (·.id), c.delete)) = [(["a"], ["b"]), (["1"], [])] ∧
      ∃ (built : List Built) (D' : Desk),
        userNames.rebuild.alone careless guests = (.ok ⟨2, 2, 1⟩, D') ∧
        (∀ b ∈ built, b.changes.IsVerdict userNames.options b.ids b.rows) ∧
        (built.flatMap (·.changes.ids)).Perm ["a", "b", "1"] ∧ D'.pending = [] := by
  have pending : guests.pending = ["a", "b", "1"] := by
    simp [Desk.pending, guests, Store.snapshot, MemorySet.add, MemorySet.insert, MemorySet.snapshot]
  have cut : careless.answer guests .snapshot = .ok [["a", "b"], ["1"]] := by
    rw [willing_careless.snapshot, pending]
    simp [batches, careless]
  have begun : userNames.rebuild.alone careless guests =
      (userNames.rebuildBatches {} [["a", "b"], ["1"]]).alone careless
        (guests.after .snapshot (.ok [["a", "b"], ["1"]])) := by
    rw [Feed.rebuild, Work.alone_call, cut]
  have report : (userNames.rebuild.alone careless guests).1.toOption = some ⟨2, 2, 1⟩ := by
    rw [begun]
    decide +kernel
  refine ⟨willing_careless, exact_guests, pending, by rw [begun]; decide +kernel, ?_⟩
  obtain ⟨built, D', run, -, -, verdicts, perm, -, none⟩ :=
    userNames.rebuild_decides_once careless guests willing_careless exact_guests
  rw [run, Except.toOption, Option.some.injEq] at report
  exact ⟨built, D', report ▸ run, fun b hb => (verdicts b hb).2, pending ▸ perm, none⟩

end EntityFeed
