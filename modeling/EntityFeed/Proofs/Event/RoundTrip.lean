import EntityFeed.Proofs.Event.Writing

/-! Events as JSON text. An event is read back from its own text and from every other one that it may be
written as, unless its images are nested too deeply. -/
namespace EntityFeed
namespace ChangeEvent

open Json (Spelling depthLimit depthOfMembers)

/-- That no number in the images of an event has a text that may be read as another one. -/
def Plain (e : ChangeEvent) : Prop :=
  ∀ row ∈ e.data.toList ++ e.dataOld.toList, (Json.obj row).Plain

variable {e : ChangeEvent} {o : Origin}

theorem Plain.toJson (h : e.Plain) : e.toJson.Plain := by
  obtain ⟨table, action, image, old⟩ := e
  cases image <;> cases old <;>
    simp_all [Plain, ChangeEvent.toJson, Json.Plain, Json.MembersPlain]

section Limit

theorem depth_toJson_le {room : Nat} : e.toJson.depth ≤ room + 2 ↔
    ∀ row ∈ e.data.toList ++ e.dataOld.toList, depthOfMembers row ≤ room := by
  obtain ⟨table, action, image, old⟩ := e
  cases image <;> cases old <;>
    simp [toJson, Json.depth, Json.depthOfMembers_le]

/-- An image with room for so many containers in it. -/
def limitedImage (room : Nat) (row : Row) : Spelling :=
  .obj (Spelling.limitMembers room (Spelling.ofMembers row))

variable {row : Row} {room : Nat}

theorem readImage_limited (settled : (Json.obj row).IsSettled) :
    readImage o (limitedImage room row) =
      if depthOfMembers row ≤ room then .ok (some row) else .error (.unreadable .tooDeep) := by
  rw [limitedImage, readImage, Json.memberValues_limitMembers]
  split
  · simp only [Except.mapError, bind, Except.bind, pure, Except.pure, settled_image settled]
  · rfl

section Fields

variable {d d' : Draft} {name : String} {t : Spelling} {x : Misfit}
  {rest : List (Except Json.Fault String × Spelling)}

theorem readFields_of_ok (h : readField o d name t = .ok d') :
    readFields o d ((.ok name, t) :: rest) = readFields o d' rest := by
  rw [readFields, readKey]
  simp only [Except.mapError, bind, Except.bind, h]

theorem readFields_of_error (h : readField o d name t = .error x) :
    readFields o d ((.ok name, t) :: rest) = .error x := by
  rw [readFields, readKey]
  simp only [Except.mapError, bind, Except.bind, h]

theorem readField_data (o : Origin) (room : Nat) (fresh : d.data = none)
    (settled : (Json.obj row).IsSettled) :
    readField o d "data" (limitedImage room row) =
      if depthOfMembers row ≤ room then .ok { d with data := some (some row) }
      else .error (.unreadable .tooDeep) := by
  rw [readField, if_neg (by decide), if_neg (by decide), if_pos rfl, fresh,
    readImage_limited settled, if_neg (by simp)]
  split <;> rfl

theorem readField_dataOld (o : Origin) (room : Nat) (fresh : d.dataOld = none)
    (settled : (Json.obj row).IsSettled) :
    readField o d "dataOld" (limitedImage room row) =
      if depthOfMembers row ≤ room then .ok { d with dataOld := some (some row) }
      else .error (.unreadable .tooDeep) := by
  rw [readField, if_neg (by decide), if_neg (by decide), if_neg (by decide), if_pos rfl, fresh,
    readImage_limited settled, if_neg (by simp)]
  split <;> rfl

end Fields

/-- The images of an event are read last. -/
theorem readSpelling_limit_toJson (o : Origin) (e : ChangeEvent) (room : Nat) :
    readSpelling o ((Spelling.ofJson e.toJson).limit (room + 2)) =
      readFields o ⟨some e.table, some e.action, none, none⟩
        ((e.data.toList.map fun row => (.ok "data", limitedImage room row)) ++
          e.dataOld.toList.map fun row => (.ok "dataOld", limitedImage room row)) >>=
        Draft.finish := by
  obtain ⟨table, action, image, old⟩ := e
  cases action <;> cases image <;> cases old <;> rfl

/-- An event is refused if an image of it is nested too deeply. -/
theorem readSpelling_too_deep (settled : e.Settled) (deep : room + 2 < e.toJson.depth) :
    readSpelling o ((Spelling.ofJson e.toJson).limit (room + 2)) =
      .error (.unreadable .tooDeep) := by
  rw [readSpelling_limit_toJson]
  rw [← Nat.not_le, depth_toJson_le] at deep
  obtain ⟨table, action, image, old⟩ := e
  have before (d : Draft) (fresh : d.dataOld = none)
      (exceeds : ∃ row ∈ old, ¬depthOfMembers row ≤ room) :
      readFields o d (old.toList.map fun row => (.ok "dataOld", limitedImage room row)) =
        .error (.unreadable .tooDeep) := by
    obtain ⟨row, rfl, exceeds⟩ := exceeds
    have own := readField_dataOld o room fresh (settled.images.2 row rfl)
    rw [if_neg exceeds] at own
    exact readFields_of_error own
  suffices readFields o ⟨some table, some action, none, none⟩
      ((image.toList.map fun row => (.ok "data", limitedImage room row)) ++
        old.toList.map fun row => (.ok "dataOld", limitedImage room row)) =
          .error (.unreadable .tooDeep) from congrArg (· >>= Draft.finish) this
  cases image with
  | none => exact before _ rfl (by simpa using deep)
  | some row =>
    have own := readField_data o room (d := ⟨some table, some action, none, none⟩) rfl
      (settled.images.1 row rfl)
    by_cases fits : depthOfMembers row ≤ room
    · -- An image that fits is taken into the draft, so it is the old one that does not.
      rw [if_pos fits] at own
      refine (readFields_of_ok own).trans (before _ rfl ?_)
      simpa [fits] using deep
    · rw [if_neg fits] at own
      exact readFields_of_error own

end Limit

theorem load_of_writtenAs (settled : e.Settled) {v : Json} (written : e.WrittenAs v) {text : String}
    (h : Json.read? text = some v) : load text = .ok e := by
  rw [load, Json.spelling?_of_read? h]
  simp only [readSpelling_of_writtenAs settled written, Except.mapError]

/-- An event is loaded from its own text unless that is nested too deeply. -/
theorem load_toJson (settled : e.Settled) (plain : e.Plain) :
    load e.toJson.text =
      if e.toJson.depth < depthLimit then .ok e else .error (.misfit (.unreadable .tooDeep)) := by
  split
  · next shallow =>
    exact load_of_writtenAs settled (writtenAs_toJson e) (Json.read?_text plain.toJson shallow)
  · next deep =>
    -- The document and an image take two of the containers that there is room for.
    have exceeds : depthLimit - 3 + 2 < e.toJson.depth :=
      Nat.lt_of_not_le fun fits => deep (Nat.lt_succ_of_le fits)
    have refused := readSpelling_too_deep (o := .jsonText) settled exceeds
    rw [load, Json.spelling?_text_eq_limit plain.toJson]
    exact congrArg (Except.mapError Illegible.misfit) refused

/-- The fields that the text of an event has. -/
theorem toJson_fields (e : ChangeEvent) : ∃ members, e.toJson = .obj members ∧
    members.map (·.1) = ["table", "action"] ++ (e.data.toList.map fun _ => "data") ++
      e.dataOld.toList.map fun _ => "dataOld" :=
  ⟨_, rfl, by simp [Function.comp_def]⟩

/-- An event and its JSON text tell the same. An image that is absent is left out of the text. The event is
loaded from it with its columns in their order, or if it is nested too deeply, refused for that. What is
loaded therefore has changed the same columns and has the same ids. The event is also loaded from any
other text that it may be written as: its fields in any order and among others that are unknown, and
an image that is absent left out or null. -/
theorem load_own_text (settled : e.Settled) (plain : e.Plain) :
    (∃ members, e.toJson = .obj members ∧
      members.map (·.1) = ["table", "action"] ++ (e.data.toList.map fun _ => "data") ++
        e.dataOld.toList.map fun _ => "dataOld") ∧
    (load e.toJson.text =
      if e.toJson.depth < depthLimit then .ok e else .error (.misfit (.unreadable .tooDeep))) ∧
    (∀ e', load e.toJson.text = .ok e' →
      e' = e ∧ e'.changedColumns = e.changedColumns ∧ ∀ c, e'.idValues c = e.idValues c) ∧
    ∀ v, e.WrittenAs v → (∀ text, Json.read? text = some v → load text = .ok e) ∧
      (v.Plain → v.depth < depthLimit → load v.text = .ok e) := by
  have own := load_toJson settled plain
  refine ⟨toJson_fields e, own, fun e' h => ?_, fun v written => ⟨fun text h => ?_, ?_⟩⟩
  · have same : e' = e := by
      rw [own] at h
      split at h <;> cases h
      rfl
    subst same
    exact ⟨rfl, rfl, fun _ => rfl⟩
  · exact load_of_writtenAs settled written h
  · exact fun plain shallow => load_of_writtenAs settled written (Json.read?_text plain shallow)

/-- An update whose old image is absent. -/
def renamed : ChangeEvent where
  table := "Straße"
  action := .update
  data := some [("name", .str "\"A\" → B"), ("id", .int 7),
    ("größe", .obj [("b", .arr [.null, .bool true]), ("a", .int (-1))])]
  dataOld := none

/-- It is written with a null for the old image and with its fields the other way round, an unknown one
first. -/
def renamedReversed : Json :=
  .obj ([("lsn", .int 16), ("dataOld", .null)] ++
    (renamed.data.toList.map fun row => ("data", .obj row)) ++
    [("action", .str "UPDATE"), ("table", .str renamed.table)])

theorem writtenAs_renamedReversed : renamed.WrittenAs renamedReversed :=
  ⟨_, _, _, [("lsn", .int 16)], rfl, .row _, .null, List.reverse_perm [_, _, _, _, _], by decide⟩

theorem renamed_loaded : renamed.Settled ∧ renamed.Plain ∧ load renamed.toJson.text = .ok renamed ∧
    load renamedReversed.text = .ok renamed := by
  have settled : renamed.Settled := by
    simp [Settled, renamed, Json.IsSettled, Json.MembersSettled, Json.AllSettled]
  have plain : renamed.Plain := by
    simp [Plain, renamed, Json.Plain, Json.MembersPlain, Json.AllPlain]
  obtain ⟨-, own, -, others⟩ := load_own_text settled plain
  rw [if_pos (by decide)] at own
  refine ⟨settled, plain, own, (others _ writtenAs_renamedReversed).2 ?_ (by decide)⟩
  simp [renamedReversed, renamed, Json.Plain, Json.MembersPlain, Json.AllPlain]

/-- So many arrays within one another. -/
def nested : Nat → Json
  | 0 => .null
  | n + 1 => .arr [nested n]

theorem depth_nested (n : Nat) : (nested n).depth = n := by
  induction n with
  | zero => rfl
  | succ n ih => simp [nested, Json.depth, Json.depthOfAll, ih]

theorem plain_nested (n : Nat) : (nested n).Plain := by
  induction n with
  | zero => trivial
  | succ n ih => exact ⟨ih, trivial⟩

theorem isSettled_nested (n : Nat) : (nested n).IsSettled := by
  induction n with
  | zero => trivial
  | succ n ih => exact ⟨ih, trivial⟩

def deepInsertion : ChangeEvent := insertion "doc" [("body", nested 126)]

/-- An event need not be loaded from its own text. -/
theorem deepInsertion_refused : deepInsertion.Settled ∧ deepInsertion.Plain ∧
    load deepInsertion.toJson.text ≠ .ok deepInsertion := by
  have settled : deepInsertion.Settled := by
    simpa [Settled, deepInsertion, insertion, Json.IsSettled, Json.MembersSettled]
      using isSettled_nested 126
  have plain : deepInsertion.Plain := by
    simpa [Plain, deepInsertion, insertion, Json.Plain, Json.MembersPlain] using plain_nested 126
  have deep : deepInsertion.toJson.depth = 128 := by
    simp [deepInsertion, insertion, toJson, Json.depth, Json.depthOfMembers, depth_nested]
  refine ⟨settled, plain, ?_⟩
  rw [load_toJson settled plain, if_neg (by rw [deep]; decide)]
  rintro ⟨⟩

end ChangeEvent
end EntityFeed
