import EntityFeed.Proofs.Json.Reading
import EntityFeed.Proofs.Schema.Writing

/-! What has been read as a node has no two properties of one name, and is nested no more deeply than the
document it has been read from, be that of objects or of arrays. -/
namespace EntityFeed

open Json (depth depthOfAll depthOfMembers)

namespace Node

variable {o : Origin} {k : NodeKind} {room : Nat}

/-- That a node has distinct properties and room for its containers. -/
structure Fits (n : Node) (room : Nat) : Prop where
  distinct : n.Distinct
  nesting : n.toJson.depth ≤ room

theorem Fits.mono {n : Node} {less : Nat} (h : n.Fits less) (le : less ≤ room) : n.Fits room :=
  ⟨h.distinct, h.nesting.trans le⟩

theorem allDistinct_iff {properties : List (String × Node)} :
    AllDistinct properties ↔ ∀ p ∈ properties, p.2.Distinct := by
  induction properties with
  | nil => simp [AllDistinct]
  | cons p rest ih => simp [AllDistinct, ih]

theorem depth_toJsonOfAll_le {properties : List (String × Node)} :
    depthOfMembers (toJsonOfAll properties) ≤ room ↔ ∀ p ∈ properties, p.2.toJson.depth ≤ room := by
  induction properties with
  | nil => simp [toJsonOfAll, depthOfMembers]
  | cons p rest ih => rw [toJsonOfAll, depthOfMembers, Nat.max_le, ih, List.forall_mem_cons]

/-- The properties of an object are nested two less deeply than it is. -/
theorem fits_object {properties : List (String × Node)} (names : (properties.map (·.1)).Nodup)
    (all : ∀ p ∈ properties, p.2.Fits room) : (object properties).Fits (room + 2) := by
  refine ⟨⟨names, allDistinct_iff.mpr fun p hp => (all p hp).distinct⟩, ?_⟩
  have inside := depth_toJsonOfAll_le.mpr fun p hp => (all p hp).nesting
  simp [toJson, depth, depthOfMembers, inside]

end Node

namespace NodeDraft

variable {o : Origin} {k : NodeKind} {room : Nat} {d d' : NodeDraft}

/-- That the parts of a draft leave room for a container around them. -/
structure Fits (d : NodeDraft) (room : Nat) : Prop where
  node : ∀ n ∈ d.node, n.Fits room
  properties : ∀ ps ∈ d.properties, (Node.object ps).Fits (room + 1)

theorem fits_empty : Fits {} room := ⟨nofun, nofun⟩

theorem Fits.set {v : Json} {p : NodePart} (h : d.Fits room)
    (node : ∀ n, Node.read o true v = .ok n → n.Fits room)
    (properties : ∀ ps, Node.readProperties o v = .ok ps → (Node.object ps).Fits (room + 1))
    (hs : d.set o v p = .ok d') : d'.Fits room := by
  cases p with
  | node =>
    obtain ⟨n, read, ends⟩ := of_bind_ok hs
    cases ends
    exact ⟨by rintro _ ⟨⟩; exact node n read, h.properties⟩
  | properties =>
    obtain ⟨ps, read, ends⟩ := of_bind_ok hs
    cases ends
    exact ⟨h.node, by rintro _ ⟨⟩; exact properties ps read⟩
  | column | table | key | guarded =>
    obtain ⟨_, -, ends⟩ := of_bind_ok hs
    cases ends
    exact ⟨h.node, h.properties⟩

/-- A node has one container around its parts. -/
theorem Fits.finish {n : Node} (h : d.Fits room) (hf : d.finish k = .ok n) : n.Fits (room + 1) := by
  unfold NodeDraft.finish at hf
  split at hf
  · cases hf
  · rename_i complete
    have has : ∀ f ∈ k.fields, d.has f.2 = true := by
      simpa using List.find?_eq_none.mp complete
    cases hf
    cases k with
    | column => exact ⟨trivial, by simp [Node.toJson, depth, depthOfMembers]⟩
    | object =>
      obtain ⟨ps, hps⟩ := Option.isSome_iff_exists.mp (has _ List.mem_cons_self)
      rw [hps]
      exact h.properties ps hps
    | belongsTo =>
      obtain ⟨n, hn⟩ := Option.isSome_iff_exists.mp (has ("schema", .node) (by decide))
      have inner := h.node n hn
      rw [hn]
      exact ⟨inner.distinct, by simp [Node.toJson, depth, depthOfMembers, inner.nesting]⟩
    | hasMany =>
      obtain ⟨n, hn⟩ := Option.isSome_iff_exists.mp (has ("schema", .node) (by decide))
      have inner := h.node n hn
      rw [hn]
      exact ⟨inner.distinct, by simp [Node.toJson, depth, depthOfMembers, inner.nesting]⟩

end NodeDraft

namespace Node

variable {o : Origin} {k : NodeKind} {room : Nat} {d d' : NodeDraft} {n : Node}

theorem readElements_cons {count : Nat} {v : Json} {rest : List Json}
    (h : readElements o k count d (v :: rest) = .ok d') :
    ∃ f next, k.fields[count]? = some f ∧ d.set o v f.2 = .ok next ∧
      readElements o k (count + 1) next rest = .ok d' := by
  rw [readElements] at h
  cases hf : k.fields[count]? with
  | none =>
    rw [hf] at h
    cases h
  | some f =>
    rw [hf] at h
    have split : (d.set o v f.2 >>= fun next => readElements o k (count + 1) next rest) = .ok d' := by
      rw [← h]
      obtain ⟨name, part⟩ := f
      cases part with
      | node =>
        rw [NodeDraft.set]
        cases read o true v <;> rfl
      | properties =>
        rw [NodeDraft.set]
        cases readProperties o v <;> rfl
      | _ => rfl
    obtain ⟨next, set, behind⟩ := of_bind_ok split
    exact ⟨f, next, rfl, set, behind⟩

mutual

/-- A node that is read is nested no more deeply than the document. -/
theorem fits_of_read : (v : Json) → {inner : Bool} → {n : Node} → read o inner v = .ok n → n.Fits v.depth
  | .obj members, inner, n, h => by
    rw [read] at h
    obtain ⟨k, -, h⟩ := of_bind_ok h
    obtain ⟨d, fields, h⟩ := of_bind_ok h
    exact (fits_of_readFields members NodeDraft.fits_empty (Nat.le_refl _) fields).finish h
  | .arr (tag :: rest), inner, n, h => by
    rw [read, readItems] at h
    obtain ⟨k, -, h⟩ := of_bind_ok h
    obtain ⟨d, elements, h⟩ := of_bind_ok h
    have nesting : depthOfAll rest ≤ depthOfAll (tag :: rest) := Nat.le_max_right _ _
    exact (fits_of_readElements rest NodeDraft.fits_empty nesting elements).finish h
  | .arr [], inner, n, h => by
    rw [read, readItems] at h
    cases h
  | .null, _, _, h | .bool _, _, _, h | .int _, _, _, h | .float _, _, _, h | .str _, _, _, h => by
    rw [read] at h <;> cases h

theorem fits_of_readFields : (members : Members) → {k : NodeKind} → {d d' : NodeDraft} →
    {room : Nat} → d.Fits room → depthOfMembers members ≤ room →
    readFields o k d members = .ok d' → d'.Fits room
  | [], _, _, _, _, fits, _, h => by
    rw [readFields] at h
    cases h
    exact fits
  | (name, v) :: rest, k, d, d', room, fits, nesting, h => by
    obtain ⟨own, others⟩ := Nat.max_le.mp nesting
    rw [readFields_eq, List.foldlM_cons] at h
    obtain ⟨next, set, h⟩ := of_bind_ok h
    rw [← readFields_eq] at h
    refine fits_of_readFields rest ?_ others h
    unfold NodeDraft.setField at set
    split at set
    · cases set
      exact fits
    · split at set
      · cases set
      · exact fits.set (fun n hn => (fits_of_read v hn).mono own)
          (fun ps hps => (fits_of_readProperties v hps).mono (Nat.succ_le_succ own)) set

theorem fits_of_readElements : (items : List Json) → {k : NodeKind} → {count : Nat} →
    {d d' : NodeDraft} → {room : Nat} → d.Fits room → depthOfAll items ≤ room →
    readElements o k count d items = .ok d' → d'.Fits room
  | [], _, _, _, _, _, fits, _, h => by
    rw [readElements] at h
    split at h <;> cases h
    exact fits
  | v :: rest, k, count, d, d', room, fits, nesting, h => by
    obtain ⟨own, others⟩ := Nat.max_le.mp nesting
    obtain ⟨f, next, -, set, h⟩ := readElements_cons h
    refine fits_of_readElements rest ?_ others h
    exact fits.set (fun n hn => (fits_of_read v hn).mono own)
      (fun ps hps => (fits_of_readProperties v hps).mono (Nat.succ_le_succ own)) set

theorem fits_of_readProperties : (v : Json) → {ps : List (String × Node)} →
    readProperties o v = .ok ps → (object ps).Fits (v.depth + 1)
  | .obj members, ps, h => by
    rw [readProperties] at h
    obtain ⟨names, all⟩ := fits_of_readEntries members (by simp) (by simp) (Nat.le_refl _) h
    exact fits_object names all
  | .null, _, h | .bool _, _, h | .int _, _, h | .float _, _, h | .str _, _, h | .arr _, _, h => by
    rw [readProperties] at h <;> cases h

theorem fits_of_readEntries : (members : Members) → {done ps : List (String × Node)} → {room : Nat} →
    (done.map (·.1)).Nodup → (∀ p ∈ done, p.2.Fits room) → depthOfMembers members ≤ room →
    readEntries o done members = .ok ps → (ps.map (·.1)).Nodup ∧ ∀ p ∈ ps, p.2.Fits room
  | [], _, _, _, names, all, _, h => by
    rw [readEntries] at h
    cases h
    exact ⟨names, all⟩
  | (name, v) :: rest, done, ps, room, names, all, nesting, h => by
    obtain ⟨own, others⟩ := Nat.max_le.mp nesting
    rw [readEntries] at h
    obtain ⟨n, read, h⟩ := of_bind_ok h
    split at h
    · cases h
    · rename_i fresh
      refine fits_of_readEntries rest ?_ ?_ others h
      · rw [List.map_append]
        refine names.append (List.nodup_singleton _) ?_
        simpa using fresh
      · refine List.forall_mem_append.mpr ⟨all, List.forall_mem_singleton.mpr ?_⟩
        exact (fits_of_read v read).mono own

end

end Node

end EntityFeed
