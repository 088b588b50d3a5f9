import EntityFeed.Proofs.Schema.Nesting
import EntityFeed.Schema.Loading

/-! Schemas as JSON text. A valid schema is loaded from every text that it may be written as, its own text
among them; and what has been loaded is valid, and is loaded again from its own text. -/
namespace EntityFeed

open Json (Spelling depthLimit)

namespace Node

variable {o : Origin}

theorem readSpelling_kind {v : Json} {k : NodeKind} (h : NodeKind.read o false v = .ok k) :
    NodeKind.readSpelling o (.ofJson v) = .ok k := by
  cases v with
  | arr | obj => cases h
  | _ => exact h

/-- An object of some kind is read throughout. -/
theorem memberValues_ofMembers {found : Option NodeKind} {k : NodeKind} {members : Members}
    (h : NodeKind.ofMembers o false found members = .ok k) :
    memberValues o found.isSome (Spelling.ofMembers members) = .ok members := by
  induction members generalizing found with
  | nil => rfl
  | cons m rest ih =>
    obtain ⟨name, v⟩ := m
    by_cases own : name = "type"
    · cases found with
      | some _ =>
        rw [NodeKind.ofMembers, if_pos own] at h
        cases h
      | none =>
        rw [NodeKind.ofMembers, if_pos own] at h
        obtain ⟨l, read, h⟩ := of_bind_ok h
        have behind := ih h
        rw [Option.isSome_some] at behind
        simp [Spelling.ofMembers, memberValues, own, readKey, Spelling.read, readSpelling_kind read,
          behind, bind, Except.bind, pure, Except.pure, Except.mapError]
    · have behind : NodeKind.ofMembers o false found rest = .ok k := by
        cases found <;> rwa [NodeKind.ofMembers, if_neg own] at h
      simp [Spelling.ofMembers, memberValues, own, readKey, Spelling.read, ih behind, bind,
        Except.bind, pure, Except.pure, Except.mapError]

/-- An outermost object is read as a value. -/
theorem readSpelling_ofJson {members : Members} {n : Node} (h : read o false (.obj members) = .ok n) :
    readSpelling o (.ofJson (.obj members)) = .ok n := by
  have kind := h
  rw [read] at kind
  obtain ⟨k, kind, -⟩ := of_bind_ok kind
  have value : Node.value o (.ofJson (.obj members)) = .ok (.obj members) := by
    have values := memberValues_ofMembers kind
    rw [Option.isSome_none] at values
    simp [Spelling.ofJson, Node.value, values, bind, Except.bind, pure, Except.pure]
  rw [readSpelling, value]
  exact h

theorem WrittenAs.exists_members : {n : Node} → {v : Json} → n.WrittenAs v →
    ∃ members : Members, v = .obj members
  | .column _, _, ⟨_, rfl, _⟩ => ⟨_, rfl⟩
  | .object _, _, ⟨_, _, rfl, _⟩ => ⟨_, rfl⟩
  | .relation (.belongsTo _) _, _, ⟨_, _, rfl, _⟩ => ⟨_, rfl⟩
  | .relation (.hasMany _) _, _, ⟨_, _, rfl, _⟩ => ⟨_, rfl⟩

theorem of_memberValues {seen : Bool} {members : List (Except Json.Fault String × Spelling)}
    {values : Members} (h : memberValues o seen members = .ok values) :
    Spelling.memberValues members = .ok values := by
  induction members generalizing seen values with
  | nil =>
    rw [memberValues] at h
    cases h
    rfl
  | cons m rest ih =>
    obtain ⟨key, t⟩ := m
    rw [memberValues] at h
    obtain ⟨name, named, h⟩ := of_bind_ok h
    have parts : ∃ v more others, t.read = .ok v ∧ memberValues o more rest = .ok others ∧
        (name, v) :: others = values := by
      split at h
      · split at h
        · cases h
        · obtain ⟨-, -, h⟩ := of_bind_ok h
          obtain ⟨v, read, h⟩ := of_bind_ok h
          obtain ⟨others, behind, h⟩ := of_bind_ok h
          exact ⟨v, true, others, read, behind, Except.ok.inj h⟩
      · obtain ⟨v, read, h⟩ := of_bind_ok h
        obtain ⟨others, behind, h⟩ := of_bind_ok h
        exact ⟨v, seen, others, read, behind, Except.ok.inj h⟩
    obtain ⟨v, more, others, read, behind, rfl⟩ := parts
    rw [Spelling.memberValues, of_mapError_ok named, of_mapError_ok read, ih behind]
    rfl

/-- What an outermost node is read from has a value throughout. -/
theorem value_of_value {t : Spelling} {v : Json} (h : value o t = .ok v) : t.value = .ok v := by
  unfold Node.value at h
  split at h
  · obtain ⟨members, values, h⟩ := of_bind_ok h
    cases h
    rw [Spelling.value, of_memberValues values]
    rfl
  · obtain ⟨-, -, h⟩ := of_bind_ok h
    exact of_mapError_ok h
  · exact of_mapError_ok h

theorem fits_of_readSpelling {u : Spelling} {room : Nat} {n : Node} (proper : u.Proper)
    (h : readSpelling o (u.limit room) = .ok n) : n.Fits room := by
  obtain ⟨v, value, h⟩ := of_bind_ok h
  have spelt := (u.limit room).eq_ofJson (Spelling.Proper.limit u proper room) (value_of_value value)
  exact (fits_of_read v h).mono (Spelling.depth_le_of_limit u room spelt)

end Node

namespace Node

mutual

theorem plain_toJson : (n : Node) → n.toJson.Plain
  | .column _ => ⟨trivial, trivial, trivial⟩
  | .object properties => ⟨trivial, membersPlain_toJsonOfAll properties, trivial⟩
  | .relation (.belongsTo _) node =>
    ⟨trivial, trivial, trivial, trivial, trivial, plain_toJson node, trivial⟩
  | .relation (.hasMany _) node => ⟨trivial, trivial, trivial, trivial, plain_toJson node, trivial⟩

theorem membersPlain_toJsonOfAll : (properties : List (String × Node)) →
    Json.MembersPlain (toJsonOfAll properties)
  | [] => trivial
  | (_, node) :: rest => ⟨plain_toJson node, membersPlain_toJsonOfAll rest⟩

end

end Node

theorem RootSchema.plain_toJson (s : RootSchema) : s.toJson.Plain :=
  ⟨trivial, trivial, s.node.plain_toJson, trivial⟩

namespace RootDraft

theorem readFields_ofMembers (o : Origin) (d : RootDraft) (members : Members) :
    readFields o d (Spelling.ofMembers members) =
      members.foldlM (fun d m => readField o d m.1 (.ofJson m.2)) d := by
  induction members generalizing d with
  | nil => rfl
  | cons m rest ih =>
    rw [Spelling.ofMembers, readFields, List.foldlM_cons]
    simp only [ih]
    rfl

end RootDraft

namespace RootSchema

/-- The draft of a schema of which only some fields have been seen. -/
def draft (s : RootSchema) (seen : String → Bool) : RootDraft where
  table := if seen "table" then some s.table else none
  primaryKey := if seen "primaryKey" then some s.primaryKey else none
  node := if seen "schema" then some s.node else none

def field? (name : String) : Option String :=
  if name = "table" ∨ name = "primaryKey" ∨ name = "schema" then some name else none

variable {s : RootSchema} {o : Origin}

/-- A schema is read from every document that it may be written as. -/
theorem readSpelling_of_writtenAs (distinct : s.node.Distinct) {v : Json} (h : s.WrittenAs v) :
    readSpelling o (.ofJson v) = .ok s := by
  obtain ⟨members, w, rfl, node, written⟩ := h
  have inside : Node.readSpelling o (.ofJson w) = .ok s.node := by
    obtain ⟨_, rfl⟩ := node.exists_members
    exact Node.readSpelling_ofJson (Node.read_of_writtenAs o s.node distinct false node)
  have drafted := written.foldlM (fun d m => RootDraft.readField o d m.1 (.ofJson m.2)) field? s.draft
    ?_ ?_ ?_ ?_
  · have none : (s.draft fun _ => false) = {} := rfl
    rw [none, ← RootDraft.readFields_ofMembers] at drafted
    simp only [Spelling.ofJson, readSpelling, drafted, bind, Except.bind]
    rfl
  · intro d m unknown
    have other : ¬(m.1 = "table" ∨ m.1 = "primaryKey" ∨ m.1 = "schema") := by
      intro known
      rw [field?, if_pos known] at unknown
      cases unknown
    simp [RootDraft.readField, not_or.mp other, (not_or.mp (not_or.mp other).2)]
  · intro name other
    refine if_neg fun known => other ?_
    simpa using known
  · intro m hm p hp seen fresh
    have := hm
    simp only [List.mem_cons, List.not_mem_nil, or_false] at this
    rcases this with rfl | rfl | rfl
    · cases hp
      simp [RootDraft.readField, draft, fresh, Spelling.ofJson, Origin.text, bind, Except.bind, pure,
        Except.pure]
    · cases hp
      simp [RootDraft.readField, draft, fresh, Spelling.ofJson, Origin.text, bind, Except.bind, pure,
        Except.pure]
    · cases hp
      simp [RootDraft.readField, draft, fresh, inside, bind, Except.bind, pure, Except.pure]
  · simp [field?]

end RootSchema

namespace RootDraft

variable {o : Origin} {room : Nat} {d d' : RootDraft}

theorem fits_of_readField {name : String} {u : Spelling} (proper : u.Proper)
    (fits : ∀ n ∈ d.node, n.Fits room) (h : readField o d name (u.limit room) = .ok d') :
    ∀ n ∈ d'.node, n.Fits room := by
  unfold readField at h
  split at h
  · obtain ⟨_, -, rfl⟩ := of_once_ok h
    exact fits
  split at h
  · obtain ⟨_, -, rfl⟩ := of_once_ok h
    exact fits
  split at h
  · obtain ⟨n, read, rfl⟩ := of_once_ok h
    rintro _ ⟨⟩
    exact Node.fits_of_readSpelling proper read
  · cases h
    exact fits

theorem fits_of_readFields {members : List (Except Json.Fault String × Spelling)}
    (proper : Spelling.MembersProper members) (fits : ∀ n ∈ d.node, n.Fits room)
    (h : readFields o d (Spelling.limitMembers room members) = .ok d') :
    ∀ n ∈ d'.node, n.Fits room := by
  induction members generalizing d with
  | nil =>
    cases h
    exact fits
  | cons m rest ih =>
    obtain ⟨name, -, h⟩ := of_bind_ok h
    obtain ⟨next, own, h⟩ := of_bind_ok h
    exact ih proper.2 (fits_of_readField proper.1 fits own) h

theorem node_of_finish {s : RootSchema} (h : d.finish = .ok s) : s.node ∈ d.node := by
  unfold finish at h
  split at h <;> cases h
  assumption

end RootDraft

namespace RootSchema

/-- What has been read from a text fits into a document. -/
theorem fits_of_readSpelling {s : RootSchema} {o : Origin} {u : Spelling} {room : Nat}
    (proper : u.Proper) (h : readSpelling o (u.limit (room + 1)) = .ok s) : s.node.Fits room := by
  cases u with
  | faulty | scalar => cases h
  | obj members =>
    obtain ⟨d, fields, h⟩ := of_bind_ok h
    exact RootDraft.fits_of_readFields proper (by rintro _ ⟨⟩) fields _
      (RootDraft.node_of_finish h)
  | arr items =>
    rcases items with _ | ⟨t, _ | ⟨k, _ | ⟨n, rest⟩⟩⟩
    · cases h
    · obtain ⟨_, -, h⟩ := of_bind_ok h
      cases h
    · obtain ⟨_, -, h⟩ := of_bind_ok h
      obtain ⟨_, -, h⟩ := of_bind_ok h
      cases h
    · obtain ⟨_, -, h⟩ := of_bind_ok h
      obtain ⟨_, -, h⟩ := of_bind_ok h
      obtain ⟨node, read, h⟩ := of_bind_ok h
      split at h <;> cases h
      exact Node.fits_of_readSpelling proper.2.2.1 read

theorem of_load {f : Format} {text : String} {s : RootSchema} (h : load f text = .ok s) :
    ∃ t, f.spelling text = .ok t ∧ readSpelling f.origin t = .ok s ∧ s.flaw? = none := by
  obtain ⟨t, spelt, h⟩ := of_bind_ok h
  obtain ⟨_, read, h⟩ := of_bind_ok h
  obtain ⟨rfl, valid⟩ := validated_eq_ok_iff.mp h
  exact ⟨t, of_mapError_ok spelt, of_mapError_ok read, valid⟩

theorem load_of_readSpelling {f : Format} {text : String} {t : Spelling} {s : RootSchema}
    (spelt : f.spelling text = .ok t) (read : readSpelling f.origin t = .ok s)
    (valid : s.flaw? = none) : load f text = .ok s := by
  rw [load, spelt]
  simp only [Except.mapError, bind, Except.bind, read]
  exact validated_eq_ok_iff.mpr ⟨rfl, valid⟩

theorem spelling_of_spelling? {text : String} {t : Spelling} :
    Format.json.spelling text = .ok t ↔ Json.spelling? text = some t := by
  rw [Format.spelling]
  cases Json.spelling? text <;> simp

theorem load_of_writtenAs {s : RootSchema} (valid : s.flaw? = none) (distinct : s.node.Distinct)
    {v : Json} (written : s.WrittenAs v) {text : String} (h : Json.read? text = some v) :
    load .json text = .ok s :=
  load_of_readSpelling (spelling_of_spelling?.mpr (Json.spelling?_of_read? h))
    (readSpelling_of_writtenAs distinct written) valid

theorem load_text {s : RootSchema} (valid : s.flaw? = none) (distinct : s.node.Distinct) {v : Json}
    (written : s.WrittenAs v) (plain : v.Plain) (shallow : v.depth < depthLimit) :
    load .json v.text = .ok s :=
  load_of_writtenAs valid distinct written (Json.read?_text plain shallow)

/-- What has been loaded can be written and loaded again. -/
theorem fits_of_load {text : String} {s : RootSchema} (h : load .json text = .ok s) :
    s.flaw? = none ∧ s.node.Distinct ∧ s.toJson.depth < depthLimit := by
  obtain ⟨t, spelt, read, valid⟩ := of_load h
  obtain ⟨u, proper, rfl⟩ := Json.of_spelling? (spelling_of_spelling?.mp spelt)
  have fits : s.node.Fits (depthLimit - 2) := fits_of_readSpelling proper read
  have nesting : s.toJson.depth = s.node.toJson.depth + 1 := by
    simp [toJson, Json.depth, Json.depthOfMembers]
  have room := fits.nesting
  refine ⟨valid, fits.distinct, ?_⟩
  rw [nesting, depthLimit]
  rw [depthLimit] at room
  omega

/-- A schema and its JSON text tell the same. A valid schema with distinct properties is loaded from
every document that it may be written as: its fields in any order, the kinds of its nodes too, and among
fields that are unknown, but its properties in their order. It is so whatever text the document is read
from, and if it can be printed, from what is printed. So it is for its own document unless that is nested
too deeply. Conversely, what has been loaded from any text is valid and has distinct properties, and its
own text is loaded as the same schema. -/
theorem load_round_trip :
    (∀ s : RootSchema, s.flaw? = none → s.node.Distinct →
      (s.toJson.depth < depthLimit → load .json s.toJson.text = .ok s) ∧
      ∀ v, s.WrittenAs v → (∀ text, Json.read? text = some v → load .json text = .ok s) ∧
        (v.Plain → v.depth < depthLimit → load .json v.text = .ok s)) ∧
    ∀ text s, load .json text = .ok s →
      s.flaw? = none ∧ s.node.Distinct ∧ load .json s.toJson.text = .ok s := by
  refine ⟨fun s valid distinct => ⟨fun shallow => ?_, fun v written => ⟨fun text h => ?_, ?_⟩⟩, ?_⟩
  · exact load_text valid distinct s.writtenAs_toJson s.plain_toJson shallow
  · exact load_of_writtenAs valid distinct written h
  · exact load_text valid distinct written
  · intro text s h
    obtain ⟨valid, distinct, shallow⟩ := fits_of_load h
    exact ⟨valid, distinct, load_text valid distinct s.writtenAs_toJson s.plain_toJson shallow⟩

/-- A schema whose properties are called like fields. -/
def postsOfUser : RootSchema where
  table := "user"
  primaryKey := "id"
  node := .object [("type", .column "kind"),
    ("schema", .relation (.hasMany ⟨"id", "post", "user_id"⟩) (.column "title"))]

/-- It is written with all fields the other way round, and with a comment. -/
def postsOfUserReversed : Json :=
  .obj [("comment", .arr [.int 1, .null]),
    ("schema", .obj [
      ("properties", .obj [("type", .obj [("column", .str "kind"), ("type", .str "column")]),
        ("schema", .obj [("schema", .obj [("column", .str "title"), ("type", .str "column")]),
          ("referencingColumn", .str "user_id"), ("referencingTable", .str "post"),
          ("column", .str "id"), ("type", .str "one-to-many")])]),
      ("type", .str "object")]),
    ("primaryKey", .str "id"), ("table", .str "user")]

theorem writtenAs_postsOfUserReversed : postsOfUser.WrittenAs postsOfUserReversed := by
  have reversed (fields : Members) : Members.Extends fields.reverse fields :=
    ⟨[], by simp, by simp⟩
  refine ⟨_, _, rfl, ⟨_, _, rfl, ⟨_, _, rfl, ⟨_, rfl, reversed _⟩, _, _, rfl,
    ⟨_, _, rfl, ⟨_, rfl, reversed _⟩, reversed _⟩, rfl⟩, reversed _⟩, ?_⟩
  exact ⟨[("comment", .arr [.int 1, .null])], List.reverse_perm [_, _, _, _], by decide⟩

theorem postsOfUser_round_trip :
    postsOfUser.flaw? = none ∧ postsOfUser.node.Distinct ∧
      load .json postsOfUser.toJson.text = .ok postsOfUser ∧
      load .json postsOfUserReversed.text = .ok postsOfUser := by
  have valid : postsOfUser.flaw? = none := by decide
  have distinct : postsOfUser.node.Distinct :=
    ⟨by decide, trivial, trivial, trivial⟩
  obtain ⟨own, others⟩ := load_round_trip.1 postsOfUser valid distinct
  refine ⟨valid, distinct, own (by decide), ?_⟩
  refine (others _ writtenAs_postsOfUserReversed).2 ?_ (by decide)
  simp [postsOfUserReversed, Json.Plain, Json.MembersPlain, Json.AllPlain]

end RootSchema

end EntityFeed
