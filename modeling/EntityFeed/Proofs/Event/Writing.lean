import EntityFeed.Event.Document
import EntityFeed.Proofs.Introspection.Relevance
import EntityFeed.Proofs.Json.Reading
import EntityFeed.Proofs.Record

/-! The documents that an event may be written as, and that each of them is read as the event. The fields
may stand in any order among unknown ones. An image that is absent may be left out or be null. -/
namespace EntityFeed
namespace ChangeEvent

open Json (Spelling)

inductive Field where
  | table
  | action
  | data
  | dataOld
  deriving DecidableEq

def field? (name : String) : Option Field :=
  if name = "table" then some .table
  else if name = "action" then some .action
  else if name = "data" then some .data
  else if name = "dataOld" then some .dataOld
  else none

/-- The members that an image may be written as. -/
inductive ImageWritten (name : String) : Option Row → Members → Prop
  | row (r : Row) : ImageWritten name (some r) [(name, .obj r)]
  | leftOut : ImageWritten name none []
  | null : ImageWritten name none [(name, .null)]

/-- The members of an event with those that its images are written as. -/
def members (e : ChangeEvent) (data dataOld : Members) : Members :=
  [("table", .str e.table), ("action", .str e.action.name)] ++ data ++ dataOld

/-- That a document is one that an event may be written as. -/
def WrittenAs (e : ChangeEvent) (v : Json) : Prop :=
  ∃ written data dataOld extra : Members, v = .obj written ∧
    ImageWritten "data" e.data data ∧ ImageWritten "dataOld" e.dataOld dataOld ∧
    written.Perm (e.members data dataOld ++ extra) ∧ ∀ m ∈ extra, field? m.1 = none

/-- An image is written if it is there, and left out if not. -/
theorem imageWritten_toJson (name : String) (image : Option Row) :
    ImageWritten name image (image.toList.map fun row => (name, .obj row)) := by
  cases image with
  | none => exact .leftOut
  | some row => exact .row row

theorem writtenAs_toJson (e : ChangeEvent) : e.WrittenAs e.toJson := by
  refine ⟨_, _, _, [], rfl, imageWritten_toJson "data" e.data,
    imageWritten_toJson "dataOld" e.dataOld, ?_, List.forall_mem_nil _⟩
  rw [List.append_nil]
  rfl

/-- The draft of an event of which only some fields have been seen. -/
def draft (e : ChangeEvent) (seen : Field → Bool) : Draft where
  table := if seen .table then some e.table else none
  action := if seen .action then some e.action else none
  data := if seen .data then some e.data else none
  dataOld := if seen .dataOld then some e.dataOld else none

section Reading

variable {e : ChangeEvent} {o : Origin} {name : String}

theorem readFields_ofMembers (o : Origin) (d : Draft) (members : Members) :
    readFields o d (Spelling.ofMembers members) =
      members.foldlM (fun d m => readField o d m.1 (.ofJson m.2)) d := by
  induction members generalizing d with
  | nil => rfl
  | cons m rest ih =>
    rw [Spelling.ofMembers, readFields, List.foldlM_cons]
    simp only [ih]
    rfl

theorem readName_name (a : Action) : readName a.name = .ok a := by
  cases a <;> rfl

theorem settled_image {row : Row} (h : (Json.obj row).IsSettled) :
    Members.settled (Json.settledMembers row) = row := by
  rw [Json.settledMembers_eq_self row h.2, Members.settled_eq_self h.1]

theorem readImage_obj {row : Row} (settled : (Json.obj row).IsSettled) :
    readImage o (.ofJson (.obj row)) = .ok (some row) := by
  rw [Spelling.ofJson, readImage, Spelling.memberValues_ofMembers]
  simp only [Except.mapError, bind, Except.bind, pure, Except.pure, settled_image settled]

theorem Settled.images (h : e.Settled) : (∀ row ∈ e.data, (Json.obj row).IsSettled) ∧
    ∀ row ∈ e.dataOld, (Json.obj row).IsSettled :=
  ⟨fun row hrow => h row (List.mem_append_left _ (Option.mem_toList.mpr hrow)),
    fun row hrow => h row (List.mem_append_right _ (Option.mem_toList.mpr hrow))⟩

theorem ImageWritten.reads {image : Option Row} {members : Members} (h : ImageWritten name image members)
    (settled : ∀ row ∈ image, (Json.obj row).IsSettled) :
    ∀ m ∈ members, m.1 = name ∧ readImage o (.ofJson m.2) = .ok image := by
  cases h with
  | row r => simpa using readImage_obj (settled r rfl)
  | leftOut => simp
  | null => simp [Spelling.ofJson, readImage]

/-- That a member is read as a field that has not been seen. -/
abbrev SeesField (o : Origin) (e : ChangeEvent) : String × Json → Field → Prop :=
  Sees (fun d m => readField o d m.1 (.ofJson m.2)) e.draft

theorem sees_table : SeesField o e ("table", .str e.table) .table := by
  intro seen fresh
  simp [readField, draft, fresh, Spelling.ofJson, Origin.text, bind, Except.bind, pure, Except.pure]

theorem sees_action : SeesField o e ("action", .str e.action.name) .action := by
  intro seen fresh
  simp [readField, draft, fresh, Spelling.ofJson, readAction, readName_name, bind, Except.bind, pure,
    Except.pure]

theorem sees_data {v : Json} (read : readImage o (.ofJson v) = .ok e.data) :
    SeesField o e ("data", v) .data := by
  intro seen fresh
  simp [readField, draft, fresh, read, bind, Except.bind, pure, Except.pure]

theorem sees_dataOld {v : Json} (read : readImage o (.ofJson v) = .ok e.dataOld) :
    SeesField o e ("dataOld", v) .dataOld := by
  intro seen fresh
  simp [readField, draft, fresh, read, bind, Except.bind, pure, Except.pure]

theorem readField_of_unknown {d : Draft} {t : Spelling} (h : field? name = none) :
    readField o d name t = .ok d := by
  unfold field? at h
  split_ifs at h with table action data dataOld
  rw [readField, if_neg table, if_neg action, if_neg data, if_neg dataOld]

variable {data dataOld : Members}

/-- No field is seen twice. -/
theorem nodup_fields (hd : ImageWritten "data" e.data data)
    (ho : ImageWritten "dataOld" e.dataOld dataOld) :
    ((e.members data dataOld).filterMap (field? ·.1)).Nodup := by
  obtain ⟨table, action, image, old⟩ := e
  cases hd <;> cases ho <;> simp [members, field?]

theorem finish_draft (hd : ImageWritten "data" e.data data)
    (ho : ImageWritten "dataOld" e.dataOld dataOld) :
    (e.draft fun p => decide (p ∈ (e.members data dataOld).filterMap (field? ·.1))).finish =
      .ok e := by
  obtain ⟨table, action, image, old⟩ := e
  cases hd <;> cases ho <;> simp [members, draft, Draft.finish, field?]

/-- An event is read from every document that it may be written as. -/
theorem readSpelling_of_writtenAs (settled : e.Settled) {v : Json} (h : e.WrittenAs v) :
    readSpelling o (.ofJson v) = .ok e := by
  obtain ⟨written, data, dataOld, extra, rfl, hd, ho, perm, unknown⟩ := h
  have images := settled.images
  have passed : extra.filterMap (field? ·.1) = [] := List.filterMap_eq_nil_iff.mpr unknown
  have seen := perm.filterMap (field? ·.1)
  rw [List.filterMap_append, passed, List.append_nil] at seen
  have sees : ∀ m ∈ written, ∀ p, field? m.1 = some p → SeesField o e m p := by
    intro m hm p hp
    rw [perm.mem_iff] at hm
    simp only [members, List.mem_append, List.mem_cons, List.not_mem_nil, or_false] at hm
    rcases hm with (((rfl | rfl) | hm) | hm) | hm
    · cases hp
      exact sees_table
    · cases hp
      exact sees_action
    · obtain ⟨name, read⟩ := hd.reads images.1 m hm
      obtain ⟨_, v⟩ := m
      subst name
      cases hp
      exact sees_data read
    · obtain ⟨name, read⟩ := ho.reads images.2 m hm
      obtain ⟨_, v⟩ := m
      subst name
      cases hp
      exact sees_dataOld read
    · rw [unknown m hm] at hp
      cases hp
  have drafted := foldlM_draft (fun d m other => readField_of_unknown other) sees
    (seen.nodup_iff.mpr (nodup_fields hd ho)) (fun _ => false) fun _ _ => rfl
  have none : e.draft (fun _ => false) = {} := rfl
  have same : (fun p => false || decide (p ∈ written.filterMap (field? ·.1))) = fun p =>
      decide (p ∈ (e.members data dataOld).filterMap (field? ·.1)) := by
    funext p
    rw [Bool.false_or, decide_eq_decide]
    exact seen.mem_iff
  rw [none, ← readFields_ofMembers, same] at drafted
  simp only [Spelling.ofJson, readSpelling, drafted, bind, Except.bind]
  exact finish_draft hd ho

end Reading

end ChangeEvent
end EntityFeed
