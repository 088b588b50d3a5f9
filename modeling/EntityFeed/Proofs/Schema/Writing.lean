import EntityFeed.Proofs.Record
import EntityFeed.Schema.Document

/-! The documents that a schema may be written as, and that each of them is read as the schema. The fields
of a record may stand in any order among unknown ones; the properties of an object stand in their order. -/
namespace EntityFeed

namespace Node

mutual

/-- That no object has two properties of one name. -/
def Distinct : Node → Prop
  | .column _ => True
  | .object properties => (properties.map (·.1)).Nodup ∧ AllDistinct properties
  | .relation _ node => node.Distinct

def AllDistinct : List (String × Node) → Prop
  | [] => True
  | (_, node) :: rest => node.Distinct ∧ AllDistinct rest

end

mutual

/-- That a document is one that a node may be written as. -/
def WrittenAs : Node → Json → Prop
  | .column name, v => ∃ members : Members, v = .obj members ∧
    members.Extends [("type", .str "column"), ("column", .str name)]
  | .object properties, v => ∃ members entries : Members, v = .obj members ∧
    AllWrittenAs properties entries ∧
    members.Extends [("type", .str "object"), ("properties", .obj entries)]
  | .relation (.belongsTo r) node, v => ∃ (members : Members) (w : Json), v = .obj members ∧ WrittenAs node w ∧
    members.Extends [("type", .str "many-to-one"), ("column", .str r.column),
      ("referencesTable", .str r.table), ("referencesColumn", .str r.key),
      ("hasFKConstraint", .bool r.guarded), ("schema", w)]
  | .relation (.hasMany r) node, v => ∃ (members : Members) (w : Json), v = .obj members ∧ WrittenAs node w ∧
    members.Extends [("type", .str "one-to-many"), ("column", .str r.column),
      ("referencingTable", .str r.table), ("referencingColumn", .str r.key), ("schema", w)]

def AllWrittenAs : List (String × Node) → Members → Prop
  | [], entries => entries = []
  | (name, node) :: rest, entries => ∃ w others, entries = (name, w) :: others ∧
    WrittenAs node w ∧ AllWrittenAs rest others

end

end Node

/-- That a document is one that a schema may be written as. -/
def RootSchema.WrittenAs (s : RootSchema) (v : Json) : Prop :=
  ∃ (members : Members) (w : Json), v = .obj members ∧ s.node.WrittenAs w ∧
    members.Extends [("table", .str s.table), ("primaryKey", .str s.primaryKey), ("schema", w)]

theorem exists_of_forall₂ {α β : Type} {R : α → β → Prop} {as : List α} {bs : List β}
    (h : List.Forall₂ R as bs) {a : α} (ha : a ∈ as) : ∃ b ∈ bs, R a b := by
  induction h with
  | nil => cases ha
  | cons head _ ih =>
    rcases List.mem_cons.mp ha with rfl | ha
    · exact ⟨_, List.mem_cons_self, head⟩
    · obtain ⟨b, hb, related⟩ := ih ha
      exact ⟨b, List.mem_cons_of_mem _ hb, related⟩

namespace Node

mutual

theorem writtenAs_toJson : (n : Node) → n.WrittenAs n.toJson
  | .column _ => ⟨_, rfl, .refl _⟩
  | .object properties => ⟨_, _, rfl, allWrittenAs_toJsonOfAll properties, .refl _⟩
  | .relation (.belongsTo _) node => ⟨_, _, rfl, writtenAs_toJson node, .refl _⟩
  | .relation (.hasMany _) node => ⟨_, _, rfl, writtenAs_toJson node, .refl _⟩

theorem allWrittenAs_toJsonOfAll : (properties : List (String × Node)) →
    AllWrittenAs properties (toJsonOfAll properties)
  | [] => rfl
  | (_, node) :: rest => ⟨_, _, rfl, writtenAs_toJson node, allWrittenAs_toJsonOfAll rest⟩

end

end Node

theorem RootSchema.writtenAs_toJson (s : RootSchema) : s.WrittenAs s.toJson :=
  ⟨_, _, rfl, s.node.writtenAs_toJson, .refl _⟩

/-- The part of a node of some kind that a field has. -/
def NodeKind.part? (k : NodeKind) (name : String) : Option NodePart := k.fields.lookup name

namespace NodeDraft

/-- A draft of which only some parts have been seen. -/
def restrict (d : NodeDraft) (seen : NodePart → Bool) : NodeDraft where
  column := if seen .column then d.column else none
  table := if seen .table then d.table else none
  key := if seen .key then d.key else none
  guarded := if seen .guarded then d.guarded else none
  node := if seen .node then d.node else none
  properties := if seen .properties then d.properties else none

/-- That a part of a draft is read from a value. -/
inductive ReadFrom (o : Origin) (d : NodeDraft) : NodePart → Json → Prop
  | column {s : String} (h : d.column = some s) : ReadFrom o d .column (.str s)
  | table {s : String} (h : d.table = some s) : ReadFrom o d .table (.str s)
  | key {s : String} (h : d.key = some s) : ReadFrom o d .key (.str s)
  | guarded {b : Bool} (h : d.guarded = some b) : ReadFrom o d .guarded (.bool b)
  | node {n : Node} {v : Json} (h : d.node = some n) (read : Node.read o true v = .ok n) :
    ReadFrom o d .node v
  | properties {ps : List (String × Node)} {v : Json} (h : d.properties = some ps)
    (read : Node.readProperties o v = .ok ps) : ReadFrom o d .properties v

/-- Reads one part. -/
def set (o : Origin) (d : NodeDraft) (v : Json) : NodePart → Except Misfit NodeDraft
  | .node => do pure { d with node := some (← Node.read o true v) }
  | .properties => do pure { d with properties := some (← Node.readProperties o v) }
  | scalar => d.setScalar o v scalar

/-- Reads one field of a node, or passes over what is none. -/
def setField (o : Origin) (k : NodeKind) (d : NodeDraft) (m : String × Json) :
    Except Misfit NodeDraft :=
  match k.part? m.1 with
  | none => .ok d
  | some part => if d.has part then .error (.duplicateField m.1) else d.set o m.2 part

theorem has_restrict {d : NodeDraft} {seen : NodePart → Bool} {p : NodePart} (h : seen p = false) :
    (d.restrict seen).has p = false := by
  cases p <;> simp [has, restrict, h]

theorem ReadFrom.set {o : Origin} {d : NodeDraft} {p : NodePart} {v : Json} (h : ReadFrom o d p v)
    (seen : NodePart → Bool) :
    (d.restrict seen).set o v p = .ok (d.restrict fun q => seen q || q == p) := by
  cases h with
  | column h | table h | key h =>
    simp [NodeDraft.set, setScalar, restrict, Origin.string, h, bind, Except.bind, pure, Except.pure]
  | guarded h =>
    simp [NodeDraft.set, setScalar, restrict, Origin.boolean, h, bind, Except.bind, pure, Except.pure]
  | node h read =>
    simp [NodeDraft.set, restrict, h, read, bind, Except.bind, pure, Except.pure]
  | properties h read =>
    simp [NodeDraft.set, restrict, h, read, bind, Except.bind, pure, Except.pure]

end NodeDraft

namespace Node

theorem readFields_eq (o : Origin) (k : NodeKind) (d : NodeDraft) (members : Members) :
    readFields o k d members = members.foldlM (NodeDraft.setField o k) d := by
  induction members generalizing d with
  | nil => rw [readFields]; rfl
  | cons m rest ih =>
    obtain ⟨name, v⟩ := m
    rw [List.foldlM_cons, readFields, NodeDraft.setField, NodeKind.part?]
    cases k.fields.lookup name with
    | none => exact ih d
    | some part =>
      dsimp only
      split
      · rfl
      · simp only [ih]
        cases part with
        | node =>
          rw [NodeDraft.set]
          cases read o true v <;> rfl
        | properties =>
          rw [NodeDraft.set]
          cases readProperties o v <;> rfl
        | _ => rfl

end Node

namespace NodeKind

variable {o : Origin} {inner : Bool} {members others : Members}

theorem ofMembers_some {k : NodeKind} (h : ∀ m ∈ members, m.1 ≠ "type") :
    ofMembers o inner (some k) members = .ok k := by
  induction members with
  | nil => rfl
  | cons m rest ih =>
    obtain ⟨own, others⟩ := List.forall_mem_cons.mp h
    rw [ofMembers, if_neg own, ih others]

theorem ofMembers_of_filter {v : Json}
    (h : members.filter (fun m => decide (m.1 = "type")) = [("type", v)]) :
    ofMembers o inner none members = read o inner v := by
  induction members with
  | nil => cases h
  | cons m rest ih =>
    by_cases own : m.1 = "type"
    · rw [List.filter_cons_of_pos (by simpa using own)] at h
      obtain ⟨rfl, none⟩ := List.cons.inj h
      have behind : ∀ m ∈ rest, m.1 ≠ "type" := by simpa using List.filter_eq_nil_iff.mp none
      rw [ofMembers, if_pos rfl]
      cases read o inner v with
      | error e => rfl
      | ok k => exact ofMembers_some behind
    · rw [List.filter_cons_of_neg (by simpa using own)] at h
      rw [ofMembers, if_neg own, ih h]

/-- The kind of a node stands in the field `type`, wherever that is. -/
theorem ofMembers_of_perm {v : Json} (h : members.Perm (("type", v) :: others))
    (apart : ∀ m ∈ others, m.1 ≠ "type") : ofMembers o inner none members = read o inner v := by
  have none : others.filter (fun m => decide (m.1 = "type")) = [] :=
    List.filter_eq_nil_iff.mpr fun m hm => by simpa using apart m hm
  have only := h.filter (fun m => decide (m.1 = "type"))
  rw [List.filter_cons_of_pos (by simp), none] at only
  exact ofMembers_of_filter (List.perm_singleton.mp only)

theorem read_name (o : Origin) (inner : Bool) (k : NodeKind) : read o inner (.str k.name) = .ok k := by
  cases k <;> rfl

end NodeKind

namespace Node

def kind : Node → NodeKind
  | .column _ => .column
  | .object _ => .object
  | .relation (.belongsTo _) _ => .belongsTo
  | .relation (.hasMany _) _ => .hasMany

/-- The draft that has all parts of a node. -/
def draft : Node → NodeDraft
  | .column name => { column := some name }
  | .object properties => { properties := some properties }
  | .relation (.belongsTo r) node =>
    { column := some r.column, table := some r.table, key := some r.key, guarded := some r.guarded,
      node := some node }
  | .relation (.hasMany r) node =>
    { column := some r.column, table := some r.table, key := some r.key, node := some node }

theorem finish_draft : (n : Node) →
    (n.draft.restrict fun p => decide (p ∈ n.kind.fields.map (·.2))).finish n.kind = .ok n
  | .column _ => rfl
  | .object _ => rfl
  | .relation (.belongsTo _) _ => rfl
  | .relation (.hasMany _) _ => rfl

end Node

namespace NodeKind

variable (k : NodeKind)

theorem part?_of_mem : ∀ f ∈ k.fields, k.part? f.1 = some f.2 := by
  cases k <;> decide

theorem filterMap_part? : (k.fields.map (·.1)).filterMap k.part? = k.fields.map (·.2) := by
  cases k <;> decide

theorem nodup_parts : (k.fields.map (·.2)).Nodup := by
  cases k <;> decide

theorem part?_type : k.part? "type" = none := by
  cases k <;> decide

theorem part?_eq_none {name : String} (h : name ∉ k.fields.map (·.1)) : k.part? name = none := by
  refine List.lookup_eq_none_iff.mpr fun f hf => ?_
  simpa using (ne_of_mem_of_not_mem (List.mem_map_of_mem hf) h).symm

theorem name_ne_type : "type" ∉ k.fields.map (·.1) := by
  cases k <;> decide

end NodeKind

namespace Node

variable {o : Origin} {inner : Bool} {members fields : Members} {n : Node}

/-- A node is read from its kind and from fields that each of its parts is read from. -/
theorem read_of_extends (h : members.Extends (("type", .str n.kind.name) :: fields))
    (parts : List.Forall₂ (fun m f => m.1 = f.1 ∧ n.draft.ReadFrom o f.2 m.2) fields n.kind.fields) :
    read o inner (.obj members) = .ok n := by
  have names : fields.map (·.1) = n.kind.fields.map (·.1) := by
    refine List.forall₂_eq_eq_eq ▸ List.forall₂_map_left_iff.mpr (List.forall₂_map_right_iff.mpr ?_)
    exact parts.imp fun _ _ both => both.1
  have seen : (("type", .str n.kind.name) :: fields).filterMap (n.kind.part? ·.1) =
      n.kind.fields.map (·.2) := by
    rw [← n.kind.filterMap_part?, ← names, List.filterMap_map]
    exact List.filterMap_cons_none n.kind.part?_type
  have kind : NodeKind.ofMembers o inner none members = .ok n.kind := by
    obtain ⟨extra, perm, apart⟩ := h
    rw [NodeKind.ofMembers_of_perm perm, NodeKind.read_name]
    intro m hm same
    rcases List.mem_append.mp hm with field | extra
    · refine n.kind.name_ne_type (names ▸ same ▸ List.mem_map_of_mem field)
    · exact apart m extra (same ▸ List.mem_cons_self)
  have drafted := h.foldlM (NodeDraft.setField o n.kind) n.kind.part? n.draft.restrict ?_ ?_ ?_ ?_
  · have none : (n.draft.restrict fun _ => false) = {} := rfl
    rw [seen, none, ← readFields_eq] at drafted
    simp only [read, kind, drafted, bind, Except.bind]
    exact n.finish_draft
  · intro d m unknown
    rw [NodeDraft.setField, unknown]
  · intro name other
    refine n.kind.part?_eq_none fun field => other ?_
    exact List.mem_cons_of_mem _ (names ▸ field)
  · intro m hm p hp seen fresh
    rcases List.mem_cons.mp hm with rfl | field
    · rw [n.kind.part?_type] at hp
      cases hp
    · obtain ⟨f, hf, same, readFrom⟩ := exists_of_forall₂ parts field
      rw [same, n.kind.part?_of_mem f hf] at hp
      cases hp
      rw [NodeDraft.setField, same, n.kind.part?_of_mem f hf]
      dsimp only
      rw [NodeDraft.has_restrict fresh, if_neg Bool.false_ne_true]
      exact readFrom.set seen
  · rw [seen]
    exact n.kind.nodup_parts

mutual

/-- A node is read from every document that it may be written as. -/
theorem read_of_writtenAs (o : Origin) : (n : Node) → n.Distinct → (inner : Bool) → {v : Json} →
    n.WrittenAs v → read o inner v = .ok n
  | .column _, _, _, _, ⟨_, rfl, written⟩ => read_of_extends written (.cons ⟨rfl, .column rfl⟩ .nil)
  | .object properties, distinct, _, _, ⟨_, entries, rfl, all, written⟩ => by
    have inside : readProperties o (.obj entries) = .ok properties := by
      rw [readProperties]
      exact readEntries_of_writtenAs o properties distinct.2 [] distinct.1 all
    exact read_of_extends written (.cons ⟨rfl, .properties rfl inside⟩ .nil)
  | .relation (.belongsTo _) node, distinct, _, _, ⟨_, _, rfl, behind, written⟩ =>
    read_of_extends written (.cons ⟨rfl, .column rfl⟩ <| .cons ⟨rfl, .table rfl⟩ <|
      .cons ⟨rfl, .key rfl⟩ <| .cons ⟨rfl, .guarded rfl⟩ <|
      .cons ⟨rfl, .node rfl (read_of_writtenAs o node distinct true behind)⟩ .nil)
  | .relation (.hasMany _) node, distinct, _, _, ⟨_, _, rfl, behind, written⟩ =>
    read_of_extends written (.cons ⟨rfl, .column rfl⟩ <| .cons ⟨rfl, .table rfl⟩ <|
      .cons ⟨rfl, .key rfl⟩ <|
      .cons ⟨rfl, .node rfl (read_of_writtenAs o node distinct true behind)⟩ .nil)

theorem readEntries_of_writtenAs (o : Origin) : (properties : List (String × Node)) →
    AllDistinct properties → (done : List (String × Node)) →
    ((done ++ properties).map (·.1)).Nodup → {entries : Members} → AllWrittenAs properties entries →
    readEntries o done entries = .ok (done ++ properties)
  | [], _, done, _, _, rfl => by rw [readEntries, List.append_nil]
  | (name, node) :: rest, distinct, done, nodup, _, ⟨_, _, rfl, own, others⟩ => by
    have fresh : done.any (·.1 = name) = false := by
      rw [List.map_append] at nodup
      have apart := (List.nodup_append.mp nodup).2.2
      refine List.any_eq_false.mpr fun p hp => ?_
      simpa using apart p.1 (List.mem_map_of_mem hp) name List.mem_cons_self
    have behind : done ++ (name, node) :: rest = done ++ [(name, node)] ++ rest := by simp
    rw [readEntries, read_of_writtenAs o node distinct.1 true own]
    simp only [bind, Except.bind, fresh, Bool.false_eq_true, if_false]
    rw [behind] at nodup ⊢
    exact readEntries_of_writtenAs o rest distinct.2 _ nodup others

end

end Node

end EntityFeed
