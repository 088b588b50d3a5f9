import EntityFeed.Proofs.Pending.Ordered
import Mathlib.Logic.Function.Basic

/-! Stores of pending ids in use. Sets in memory are made and sets in files are opened at any time, and
calls on them come in any order. Every call finds the one ordered set of its place, changes it alone,
and is answered as that set answers. -/
namespace EntityFeed

namespace Disk

variable {d d' : Disk}

theorem file?_write (d : Disk) (l : Location) (c : Content) (other : Location) :
    (d.write l c).file? other = if other = l then some c else d.file? other := by
  unfold file? write
  split
  · rename_i same
    simp [same]
  · rename_i differ
    have kept : (d.files.filter (·.1 != l)).lookup other = d.files.lookup other := by
      induction d.files with
      | nil => rfl
      | cons f rest ih =>
        obtain ⟨l', c'⟩ := f
        by_cases hl : l' = l
        · have hne : (other == l') = false := by simpa [hl] using differ
          simp [hl, List.lookup_cons, ← ih, hl ▸ hne]
        · simp [hl, List.lookup_cons, ih]
    have hne : (other == l) = false := by simpa using differ
    simp [List.lookup_cons, hne, kept]

theorem files_makeDirectory {steps : List String} (h : d.makeDirectory steps = .ok d') :
    d'.files = d.files := by
  unfold makeDirectory at h
  cases hw : d.walk [] steps with
  | error e => simp [hw, bind, Except.bind] at h
  | ok l =>
    simp only [hw, bind, Except.bind] at h
    split at h
    · cases h
    · cases he : d.enter l.dropLast with
      | error e => simp [he] at h
      | ok u =>
        simp only [he, pure, Except.pure, Except.ok.injEq] at h
        rw [← h]

theorem files_ensureDirectory {steps : List String} (h : d.ensureDirectory steps = .ok d') :
    d'.files = d.files := by
  unfold ensureDirectory at h
  cases hm : d.makeDirectory steps with
  | ok d₁ =>
    rw [hm] at h
    cases h
    exact files_makeDirectory hm
  | error e =>
    simp only [hm, Except.tryCatch] at h
    split at h
    · split at h
      · cases h
        rfl
      · cases h
    · cases h

theorem files_makeDirectories (d : Disk) (steps : List String) :
    (d.makeDirectories steps).2.files = d.files := by
  fun_induction makeDirectories d steps with
  | case1 => rfl
  | case2 _ _ _ made => exact files_ensureDirectory made
  | case3 _ _ _ _ above _ made ih =>
    rw [above] at ih
    exact (files_ensureDirectory made).trans ih
  | case4 _ _ _ _ above _ _ ih => rwa [above] at ih
  | case5 _ _ _ _ ih => exact ih
  | case6 => rfl

end Disk

namespace Pending

/-- The table of pending ids in a file. -/
def tableOf (d : Disk) (file : Location) : Table :=
  match d.file? file with
  | some (.database t) => t
  | _ => {}

theorem tableOf_write (d : Disk) (file : Location) (t : Table) (other : Location) :
    tableOf (d.write file (.database t)) other = if other = file then t else tableOf d other := by
  unfold tableOf
  rw [Disk.file?_write]
  by_cases h : other = file <;> simp [h]

theorem tableOf_congr {d d' : Disk} (h : d'.files = d.files) (file : Location) :
    tableOf d' file = tableOf d file := by
  unfold tableOf Disk.file?
  rw [h]

/-- Opening a set changes no table; a file that it makes has an empty one, as if it had been there. -/
theorem tableOf_openFile {d d' : Disk} {path key : String} {h : Handle}
    (opened : openFile d path key = .ok (h, d')) (file : Location) :
    tableOf d' file = tableOf d file := by
  unfold openFile at opened
  split at opened
  · cases opened
  · cases opened
  · rename_i l _ _
    split at opened
    · cases opened
      rfl
    · cases opened
    all_goals
      rename_i found
      split at opened
      · cases opened
        rw [tableOf_write]
        split
        · rename_i same
          simp [tableOf, same, found]
        · rfl
      · cases opened

theorem tableOf_openSet (d : Disk) (path key : String) (file : Location) :
    tableOf (openSet d path key).2 file = tableOf d file := by
  have made (steps : List String) : tableOf (d.makeDirectories steps).2 file = tableOf d file :=
    tableOf_congr (Disk.files_makeDirectories d steps) file
  unfold openSet
  split
  · rfl
  · cases hs : d.steps (Path.parent path) with
    | error e =>
      simp only [hs]
      split
      · rfl
      · split
        · exact tableOf_openFile ‹_› file
        · rfl
    | ok steps =>
      simp only [hs]
      split
      · exact made steps.reverse
      · split
        · exact (tableOf_openFile ‹_› file).trans (made steps.reverse)
        · exact made steps.reverse

/-- Where a set is: in a store in memory, which has a number, or in a file under a key. -/
inductive Place where
  | memory (i : Nat)
  | stored (file : Location) (key : String)
  deriving DecidableEq

inductive Operation where
  | add (ids : List String)
  | remove (ids : List String)
  | snapshot
  /-- The snapshot cut into batches of a size. -/
  | batches (size : Nat)
  | size
  deriving DecidableEq

inductive Answer where
  | done
  | count (n : Nat)
  | ids (ids : List String)
  | batches (batches : List (List String))
  deriving DecidableEq

namespace Store

/-- The place of the store with a number. -/
def place (i : Nat) : Store → Place
  | memory _ => .memory i
  | database h => .stored h.file h.key

/-- What a store answers. Only one in a file counts what it adds and removes. -/
def answer (s : Store) (d : Disk) : Operation → Answer
  | .add ids =>
    match s with
    | memory _ => .done
    | database h => .count (h.add d ids).1
  | .remove ids =>
    match s with
    | memory _ => .done
    | database h => .count (h.remove d ids).1
  | .snapshot => .ids (s.snapshot d)
  | .batches n => .batches (Pending.batches n (s.snapshot d))
  | .size => .count (s.size d)

def after (s : Store) (d : Disk) : Operation → Store × Disk
  | .add ids => s.add d ids
  | .remove ids => s.remove d ids
  | _ => (s, d)

end Store

/-- The stores in use, which are known by their positions, and the disk. -/
structure Holdings where
  stores : List Store := []
  disk : Disk

inductive Request where
  /-- Makes a set in memory. -/
  | makeSet
  | openSet (path key : String)
  | call (i : Nat) (op : Operation)

/-- A call that was answered. -/
structure Call where
  place : Place
  operation : Operation
  answer : Answer

namespace Holdings

/-- Serves one request. A set that cannot be opened is none, and a call on no store does nothing. -/
def step (W : Holdings) : Request → List Call × Holdings
  | .makeSet => ([], { W with stores := W.stores ++ [.empty] })
  | .openSet path key =>
    match Pending.openSet W.disk path key with
    | (.ok h, d) => ([], ⟨W.stores ++ [.database h], d⟩)
    | (.error _, d) => ([], ⟨W.stores, d⟩)
  | .call i op =>
    match W.stores[i]? with
    | none => ([], W)
    | some s =>
      let (s', d) := s.after W.disk op
      ([⟨s.place i, op, s.answer W.disk op⟩], ⟨W.stores.set i s', d⟩)

/-- Serves requests one after the other. -/
def run (W : Holdings) : List Request → List Call × Holdings
  | [] => ([], W)
  | r :: rs =>
    let (now, W') := W.step r
    let (later, W'') := W'.run rs
    (now ++ later, W'')

/-- What is in the set of a place. -/
def set (W : Holdings) : Place → List String
  | .memory i =>
    match W.stores[i]? with
    | some (.memory m) => m.order
    | _ => []
  | .stored file key => (tableOf W.disk file).ids key

/-- That the sets in memory have their members in order, each once, and the tables their rows. -/
structure Sound (W : Holdings) : Prop where
  memory : ∀ m, .memory m ∈ W.stores → m.Exact
  stored : ∀ file, (tableOf W.disk file).Sound

end Holdings

/-- That a list is cut into batches of a size, none of them empty and only the last one shorter. -/
structure IsCut (size : Nat) (ids : List String) (cut : List (List String)) : Prop where
  whole : cut.flatten = ids
  full : ∀ batch ∈ cut.dropLast, batch.length = max size 1
  last : ∀ batch ∈ cut.getLast?, 0 < batch.length ∧ batch.length ≤ max size 1

/-- The ordered set that an operation leaves. -/
def Ordered.after (set : List String) : Operation → List String
  | .add ids => add set ids
  | .remove ids => remove set ids
  | _ => set

/-- The answers of an ordered set at a place. One in a file counts how many ids it has more or fewer
than before. -/
inductive Place.Answers (set : List String) : Place → Operation → Answer → Prop
  | added (i : Nat) (ids : List String) : Answers set (.memory i) (.add ids) .done
  | removed (i : Nat) (ids : List String) : Answers set (.memory i) (.remove ids) .done
  | addedStored (file : Location) (key : String) {ids : List String} {n : Nat}
    (h : set.length + n = (Ordered.add set ids).length) :
    Answers set (.stored file key) (.add ids) (.count n)
  | removedStored (file : Location) (key : String) {ids : List String} {n : Nat}
    (h : (Ordered.remove set ids).length + n = set.length) :
    Answers set (.stored file key) (.remove ids) (.count n)
  | snapshot (p : Place) : Answers set p .snapshot (.ids set)
  | batches (p : Place) {n : Nat} {cut : List (List String)} (h : IsCut n set cut) :
    Answers set p (.batches n) (.batches cut)
  | size (p : Place) : Answers set p .size (.count set.length)

/-- That ordered sets at their places answer calls so, each changing but its own, and come to be others.
-/
inductive Agrees : (Place → List String) → List Call → (Place → List String) → Prop
  | none (σ : Place → List String) : Agrees σ [] σ
  | call {σ τ : Place → List String} {c : Call} {rest : List Call}
    (answers : c.place.Answers (σ c.place) c.operation c.answer)
    (goes : Agrees (Function.update σ c.place (Ordered.after (σ c.place) c.operation)) rest τ) :
    Agrees σ (c :: rest) τ

theorem Agrees.append {σ τ υ : Place → List String} {first rest : List Call} (h : Agrees σ first τ)
    (h' : Agrees τ rest υ) : Agrees σ (first ++ rest) υ := by
  induction h with
  | none => exact h'
  | call answers _ ih => exact .call answers (ih h')

theorem batches_eq_nil {size : Nat} {ids : List String} : batches size ids = [] ↔ ids = [] := by
  fun_cases batches size ids <;> simp

theorem isCut_batches (size : Nat) (ids : List String) : IsCut size ids (batches size ids) := by
  refine ⟨flatten_batches size ids, ?_, ?_⟩
  · fun_induction batches size ids with
    | case1 => simp
    | case2 id rest ih =>
      intro batch hb
      by_cases enough : rest.drop (size - 1) = []
      · simp [batches_eq_nil.mpr enough] at hb
      · rw [List.dropLast_cons_of_ne_nil (fun h => enough (batches_eq_nil.mp h))] at hb
        rcases List.mem_cons.mp hb with rfl | hb
        · rw [List.drop_eq_nil_iff] at enough
          simp only [List.length_cons, List.length_take]
          omega
        · exact ih batch hb
  · fun_induction batches size ids with
    | case1 => simp
    | case2 id rest ih =>
      intro batch hb
      by_cases enough : rest.drop (size - 1) = []
      · rw [batches_eq_nil.mpr enough, List.getLast?_singleton, Option.mem_some_iff] at hb
        rw [← hb, List.length_cons, List.length_take]
        omega
      · rw [List.getLast?_cons_of_ne_nil (fun h => enough (batches_eq_nil.mp h))] at hb
        exact ih batch hb

namespace Store

/-- The ids of a store in their order. -/
def ids (d : Disk) : Store → List String
  | memory m => m.order
  | database h => (tableOf d h.file).ids h.key

/-- That what a store looks at is in order. -/
def Exact (d : Disk) : Store → Prop
  | memory m => m.Exact
  | database h => (tableOf d h.file).Sound

variable {s : Store} {d : Disk}

theorem Exact.snapshot_eq (h : s.Exact d) : s.snapshot d = s.ids d := by
  cases s with
  | memory m => rfl
  | database hd => exact Table.Sound.snapshot_eq h hd.key

theorem size_eq (s : Store) (d : Disk) : s.size d = (s.ids d).length := by
  cases s with
  | memory m => rfl
  | database hd => exact Table.size_eq _ hd.key

theorem Exact.answers (h : s.Exact d) (i : Nat) (op : Operation) :
    (s.place i).Answers (s.ids d) op (s.answer d op) := by
  cases op with
  | add ids =>
    cases s with
    | memory m => exact .added i ids
    | database hd => exact .addedStored hd.file hd.key (Table.count_add _ hd.key ids)
  | remove ids =>
    cases s with
    | memory m => exact .removed i ids
    | database hd => exact .removedStored hd.file hd.key (Table.count_remove _ hd.key ids)
  | snapshot =>
    rw [answer, h.snapshot_eq]
    exact .snapshot _
  | batches n =>
    rw [answer, h.snapshot_eq]
    exact .batches _ (isCut_batches n _)
  | size =>
    rw [answer, size_eq]
    exact .size _

/-- What an operation does to a set in memory. -/
theorem after_memory {m : MemorySet} (h : m.Exact) (d : Disk) (op : Operation) :
    ∃ m' : MemorySet, (memory m).after d op = (memory m', d) ∧ m'.Exact ∧
      m'.order = Ordered.after m.order op := by
  cases op with
  | add ids => exact ⟨m.add ids, rfl, h.add ids, h.sound.order_add ids⟩
  | remove ids => exact ⟨m.remove ids, rfl, h.remove ids, h.sound.order_remove ids⟩
  | _ => exact ⟨m, rfl, h, rfl⟩

/-- What an operation does to a set in a file. -/
theorem after_database {hd : Handle} (h : (tableOf d hd.file).Sound) (op : Operation) :
    ∃ (u : Table) (d' : Disk), (database hd).after d op = (database hd, d') ∧
      Table.ChangesOnly hd.key (tableOf d hd.file) u ∧
      u.ids hd.key = Ordered.after ((tableOf d hd.file).ids hd.key) op ∧
      ∀ file, tableOf d' file = if file = hd.file then u else tableOf d file := by
  cases op with
  | add ids =>
    exact ⟨_, _, rfl, .add h hd.key ids, Table.ids_add _ hd.key ids, tableOf_write d hd.file _⟩
  | remove ids =>
    exact ⟨_, _, rfl, .remove h hd.key ids, Table.ids_remove _ hd.key ids, tableOf_write d hd.file _⟩
  | _ =>
    refine ⟨_, d, rfl, .refl h hd.key, rfl, fun file => ?_⟩
    split
    · rename_i same
      rw [same]
    · rfl

end Store

namespace Holdings

variable {W : Holdings}

theorem Sound.exact (h : W.Sound) {s : Store} (hs : s ∈ W.stores) : s.Exact W.disk := by
  cases s with
  | memory m => exact h.memory m hs
  | database hd => exact h.stored hd.file

theorem set_place {i : Nat} {s : Store} (hs : W.stores[i]? = some s) :
    W.set (s.place i) = s.ids W.disk := by
  cases s with
  | memory m => simp [set, Store.place, Store.ids, hs]
  | database hd => rfl

/-- A store that comes in is empty if it is in memory, and else shows what its file has. -/
theorem set_append (W : Holdings) {s : Store} {d : Disk} (hs : ∀ m, s = .memory m → m.order = [])
    (hd : ∀ file, tableOf d file = tableOf W.disk file) :
    set ⟨W.stores ++ [s], d⟩ = W.set := by
  funext p
  cases p with
  | memory i =>
    by_cases within : i < W.stores.length
    · simp only [set, List.getElem?_append_left within]
    · have outside : W.stores[i]? = none := List.getElem?_eq_none (Nat.le_of_not_lt within)
      simp only [set, List.getElem?_append_right (Nat.le_of_not_lt within), outside]
      split
      · rename_i m found
        exact hs m (List.mem_singleton.mp (List.mem_of_getElem? found)).symm
      · rfl
  | stored file key => simp only [set, hd]

theorem Sound.append (h : W.Sound) {s : Store} {d : Disk} (hs : ∀ m, s = .memory m → m.Exact)
    (hd : ∀ file, tableOf d file = tableOf W.disk file) : Sound ⟨W.stores ++ [s], d⟩ := by
  refine ⟨fun m hm => ?_, fun file => hd file ▸ h.stored file⟩
  rcases List.mem_append.mp hm with hm | hm
  · exact h.memory m hm
  · exact hs m (List.mem_singleton.mp hm).symm

theorem set_congr {stores : List Store} {d d' : Disk}
    (hd : ∀ file, tableOf d' file = tableOf d file) : set ⟨stores, d'⟩ = set ⟨stores, d⟩ := by
  funext p
  cases p with
  | memory i => rfl
  | stored file key => simp only [set, hd]

/-- A call is answered by the set of the store's place and changes this set only. -/
theorem Sound.call (h : W.Sound) {i : Nat} {s : Store} (hs : W.stores[i]? = some s)
    (op : Operation) :
    Sound ⟨W.stores.set i (s.after W.disk op).1, (s.after W.disk op).2⟩ ∧
      set ⟨W.stores.set i (s.after W.disk op).1, (s.after W.disk op).2⟩ =
        Function.update W.set (s.place i) (Ordered.after (W.set (s.place i)) op) := by
  have member := List.mem_of_getElem? hs
  obtain ⟨within, found⟩ := List.getElem?_eq_some_iff.mp hs
  rw [set_place hs]
  cases s with
  | memory m =>
    obtain ⟨m', after, exact', order⟩ := Store.after_memory (h.memory m member) W.disk op
    rw [after]
    refine ⟨⟨fun n hn => ?_, h.stored⟩, ?_⟩
    · rcases List.mem_or_eq_of_mem_set hn with hn | hn
      · exact h.memory n hn
      · rw [Store.memory.inj hn]
        exact exact'
    · funext p
      cases p with
      | memory j =>
        by_cases hj : j = i
        · simp [set, Store.place, Store.ids, hj, within, order]
        · simp [set, Store.place, hj, Ne.symm hj]
      | stored file key => simp [set, Store.place]
  | database hd =>
    obtain ⟨u, d', after, changes, ids, tables⟩ := Store.after_database (h.stored hd.file) op
    have same : W.stores.set i (.database hd) = W.stores := by
      rw [← found]
      exact List.set_getElem_self within
    rw [after, same]
    refine ⟨⟨h.memory, fun file => ?_⟩, ?_⟩
    · rw [tables]
      split
      · exact changes.sound
      · exact h.stored file
    · funext p
      cases p with
      | memory j => simp [set, Store.place]
      | stored file key =>
        by_cases hf : file = hd.file
        · by_cases hk : key = hd.key
          · simp [set, Store.place, Store.ids, tables, hf, hk, ids]
          · simp [set, Store.place, tables, hf, hk, changes.others key (Ne.symm hk)]
        · simp [set, Store.place, tables, hf]

/-- One request leaves all in order, and is answered by ordered sets if it is a call. -/
theorem Sound.step_agrees (h : W.Sound) (r : Request) :
    (W.step r).2.Sound ∧ Agrees W.set (W.step r).1 (W.step r).2.set := by
  cases r with
  | makeSet =>
    have fresh (m : MemorySet) (hm : Store.empty = .memory m) : m = {} := (Store.memory.inj hm).symm
    refine ⟨h.append (fun m hm => fresh m hm ▸ MemorySet.exact_empty) (fun _ => rfl), ?_⟩
    rw [step, set_append W (fun m hm => by rw [fresh m hm]) (fun _ => rfl)]
    exact .none _
  | openSet path key =>
    have tables := tableOf_openSet W.disk path key
    simp only [step]
    split
    · rename_i hd d opened
      rw [opened] at tables
      have fresh (m : MemorySet) : Store.database hd ≠ .memory m := Store.noConfusion
      refine ⟨h.append (fun m hm => absurd hm (fresh m)) tables, ?_⟩
      rw [set_append W (fun m hm => absurd hm (fresh m)) tables]
      exact .none _
    · rename_i e d opened
      rw [opened] at tables
      refine ⟨⟨h.memory, fun file => tables file ▸ h.stored file⟩, ?_⟩
      rw [set_congr tables]
      exact .none _
  | call i op =>
    simp only [step]
    split
    · exact ⟨h, .none _⟩
    · rename_i s hs
      obtain ⟨sound, changed⟩ := h.call hs op
      refine ⟨sound, .call ?_ ?_⟩
      · rw [set_place hs]
        exact (h.exact (List.mem_of_getElem? hs)).answers i op
      · rw [changed]
        exact .none _

theorem Sound.nodup (h : W.Sound) (p : Place) : (W.set p).Nodup := by
  cases p with
  | memory i =>
    simp only [set]
    split
    · rename_i m found
      exact (h.memory m (List.mem_of_getElem? found)).nodup
    · exact List.nodup_nil
  | stored file key => exact (h.stored file).nodup_ids key

/-- Whatever is asked for, and in whatever order, every call is answered by the ordered set of its
place. All that is kept stays in order, and no set has an id twice. -/
theorem Sound.run_agrees (h : W.Sound) (rs : List Request) :
    (W.run rs).2.Sound ∧ Agrees W.set (W.run rs).1 (W.run rs).2.set ∧
      ∀ p, ((W.run rs).2.set p).Nodup := by
  have both : (W.run rs).2.Sound ∧ Agrees W.set (W.run rs).1 (W.run rs).2.set := by
    induction rs generalizing W with
    | nil => exact ⟨h, .none _⟩
    | cons r rs ih =>
      obtain ⟨sound, now⟩ := h.step_agrees r
      obtain ⟨sound', later⟩ := ih sound
      exact ⟨sound', now.append later⟩
  exact ⟨both.1, both.2, both.1.nodup⟩

/-- A disk without files, and no store yet. -/
def fresh : Holdings := ⟨[], ⟨"here", ["a"], [], []⟩⟩

theorem sound_fresh : fresh.Sound := ⟨nofun, fun _ => Table.sound_empty⟩

/-- Two keys of one file, one of them opened by two paths, and a set in memory. -/
def sharers : List Request :=
  [.openSet "/a/ids.db" "k", .makeSet, .openSet "here/ids.db" "k", .openSet "/a/./ids.db" "l",
    .call 0 (.add ["x", "y", "x"]), .call 3 (.add ["x"]), .call 1 (.add ["y"]),
    .call 2 (.remove ["x", "z", "x"]), .call 2 (.add ["y", "x"]), .call 3 .size]

theorem sharers_agree :
    fresh.Sound ∧ ((fresh.run sharers).1.map (·.answer) =
        [.count 2, .count 1, .done, .count 1, .count 1, .count 1]) ∧
      Agrees fresh.set (fresh.run sharers).1 (fresh.run sharers).2.set ∧
      (fresh.run sharers).2.set (.stored ["a", "ids.db"] "k") = ["y", "x"] := by
  refine ⟨sound_fresh, ?_, (sound_fresh.run_agrees sharers).2.1, ?_⟩
  · decide +kernel
  · decide +kernel

end Holdings

end Pending
end EntityFeed
