import EntityFeed.Proofs.Impact.Change
import EntityFeed.Proofs.ObjectQuery.Target

/-! Which visit of a relation finds an entity. An entity that no visit finds is the same before and
after the change: going down its schema, the two sides stay in step as long as no relation is hit. -/
namespace EntityFeed
open Sql

/-- That a row is reached from a root row with an id, past the relations of a path. -/
def RootSchema.Encloses (c : Comparison) (db : Database) (s : RootSchema) (id : String) :
    List Step → Row → Prop
  | [], row => row ∈ db s.table ∧ c.equal (row.value s.primaryKey) (.str id) = true
  | ⟨r, table⟩ :: outer, row =>
    ∃ near ∈ db table, row ∈ r.follow c db near ∧ s.Encloses c db id outer near

namespace Visit

/-- That a relation leads from a row that is enclosed by a root row with an id to the key values of
an event. -/
def Reaches (c : Comparison) (db : Database) (s : RootSchema) (e : ChangeEvent) (id : String)
    (v : Visit) : Prop :=
  ∃ near ∈ db v.table, s.Encloses c db id v.path near ∧
    ∃ k ∈ e.idValues v.relation.key, c.equal (near.value v.relation.column) (.str k) = true

/-- That a foreign key holds where a relation says that it is guarded by one. -/
def Guarded (c : Comparison) (db : Database) (v : Visit) : Prop :=
  ∀ b, v.relation = .belongsTo b → b.guarded = true → Unique c db b.table b.key ∧
    ∀ row ∈ db v.table, row.value b.column ≠ .null → v.relation.follow c db row ≠ []

end Visit

theorem Sql.Comparison.byIdText_equal {v w : Json} :
    byIdText.equal v w = true ↔ ∃ k, v.idText? = some k ∧ w.idText? = some k := by
  simp only [equal, byIdText, Bool.and_eq_true, beq_iff_eq, Option.isSome_iff_exists]
  constructor
  · rintro ⟨⟨k, hv⟩, he⟩
    exact ⟨k, hv, he ▸ hv⟩
  · rintro ⟨k, hv, hw⟩
    exact ⟨⟨k, hv⟩, hv.trans hw.symm⟩

theorem rowsWith_congr {db : Database} {table key : String} {v w : Json}
    (h : v.idText? = w.idText?) :
    rowsWith .byIdText db table key v = rowsWith .byIdText db table key w := by
  simp only [rowsWith, Comparison.equal, Comparison.byIdText, h]

theorem ChangeEvent.mem_idValues {e : ChangeEvent} {column k : String} :
    k ∈ e.idValues column ↔
      ∃ row ∈ e.data.toList ++ e.dataOld.toList, (row.value column).idText? = some k := by
  rw [idValues, Row.idColumn, List.mem_filterMap]
  refine exists_congr fun row => and_congr_right fun _ => ?_
  rw [Row.value]
  cases row.get? column with
  | none => simp [Json.idText?]
  | some v => rfl

variable {e : ChangeEvent} {before after : Database}

/-- There are as many old images with a value as new ones if one row has it before and after. -/
theorem Change.length_images (h : Change e before after) {c : Comparison} {key : String} {v : Json}
    (hb : (rowsWith c before e.table key v).length = 1)
    (ha : (rowsWith c after e.table key v).length = 1) :
    (e.dataOld.toList.filter fun row => c.equal v (row.value key)).length =
      (e.data.toList.filter fun row => c.equal v (row.value key)).length := by
  obtain ⟨front, back, hrb, hra⟩ := h.rows
  rw [rowsWith, hrb, List.filter_append, List.filter_append] at hb
  rw [rowsWith, hra, List.filter_append, List.filter_append] at ha
  simp only [List.length_append] at hb ha
  omega

theorem Visit.Guarded.length_follow {c : Comparison} {db : Database} {v : Visit}
    (h : v.Guarded c db) {b : BelongsTo} (hv : v.relation = .belongsTo b) (hg : b.guarded = true)
    {row : Row} (hr : row ∈ db v.table) (hn : row.value b.column ≠ .null) :
    (rowsWith c db b.table b.key (row.value b.column)).length = 1 := by
  obtain ⟨hu, hc⟩ := h b hv hg
  have hf := hc row hr hn
  rw [hv] at hf
  rcases rowsWith_of_unique hu (row.value b.column) with he | ⟨far, he⟩
  · exact absurd he hf
  · rw [he]
    rfl

namespace Visit

variable {v : Visit}

theorem localColumns_subset_watched (v : Visit) : v.node.localColumns ⊆ v.watched := by
  rw [watched]
  split
  · exact List.subset_append_right _ _
  · exact List.subset_cons_self _ _

/-- A relation that looks out for rows looks out for their key. -/
theorem key_mem_watched (h : v.watchesRows = true) : v.relation.key ∈ v.watched := by
  unfold watchesRows at h
  unfold watched
  split at h
  · rename_i r hr
    rw [hr]
    simp only [Bool.not_eq_true'] at h
    simp [Relation.key, h]
  · rename_i r hr
    rw [hr]
    exact List.mem_cons_self

theorem exists_guarded (h : v.watchesRows = false) :
    ∃ b, v.relation = .belongsTo b ∧ b.guarded = true := by
  unfold watchesRows at h
  split at h
  · rename_i b hb
    exact ⟨b, hb, by simpa using h⟩
  · contradiction

theorem hit_eq_of_table (ht : v.relation.table = e.table) :
    v.hit e = match e.action with
      | .insert | .delete => v.watchesRows
      | .update => e.touches v.watched := by
  cases ha : e.action <;> simp only [hit, ht, ha, beq_self_eq_true, Bool.true_and]

/-- Where a relation is not hit by an image with its value, as many new images have it as old ones. -/
theorem length_images (h : Change e before after) {old new : Row}
    (hk : (old.value v.relation.column).idText? = (new.value v.relation.column).idText?)
    (ho : old ∈ before v.table) (hn : new ∈ after v.table)
    (hgb : v.Guarded .byIdText before) (hga : v.Guarded .byIdText after)
    (ht : v.relation.table = e.table) (hh : v.hit e = false)
    (hs : (new.value v.relation.column).idText?.isSome) :
    (e.dataOld.toList.filter fun row =>
      Comparison.byIdText.equal (new.value v.relation.column) (row.value v.relation.key)).length =
    (e.data.toList.filter fun row =>
      Comparison.byIdText.equal (new.value v.relation.column) (row.value v.relation.key)).length := by
  rw [hit_eq_of_table ht] at hh
  cases hw : v.watchesRows with
  | false =>
    -- The foreign key holds before and after, so that one row has the value each time.
    obtain ⟨b, hb, hg⟩ := exists_guarded hw
    have hnull : ∀ w : Json, w.idText?.isSome → w ≠ .null := by
      rintro _ hs rfl
      contradiction
    have hlb := hgb.length_follow hb hg ho
    have hla := hga.length_follow hb hg hn
    rw [hb] at hk hs ht ⊢
    rw [show (Relation.belongsTo b).table = b.table from rfl] at ht
    rw [ht] at hlb hla
    refine h.length_images ?_ (hla (hnull _ hs))
    rw [← rowsWith_congr hk]
    exact hlb (hnull _ (hk ▸ hs))
  | true =>
    -- Such a relation looks out for rows, so that the change is an update of other columns.
    cases ha : e.action with
    | update =>
      rw [ha] at hh
      exact h.full.length_images ha hh (key_mem_watched hw) _
    | _ => simp [ha, hw] at hh

/-- What a relation leads to corresponds before and after, unless the relation is hit for the row it
starts from. -/
theorem forall₂_follow (h : Change e before after) {old new : Row}
    (hk : (old.value v.relation.column).idText? = (new.value v.relation.column).idText?)
    (ho : old ∈ before v.table) (hn : new ∈ after v.table)
    (hgb : v.Guarded .byIdText before) (hga : v.Guarded .byIdText after)
    (hf : v.hit e = true → ∀ k ∈ e.idValues v.relation.key,
      (new.value v.relation.column).idText? ≠ some k) :
    List.Forall₂ (Counterparts e v.relation.table v.node.localColumns)
      (v.relation.follow .byIdText before old) (v.relation.follow .byIdText after new) := by
  rw [Relation.follow, Relation.follow, rowsWith_congr hk]
  refine h.forall₂_rowsWith ?_
  intro ht
  rw [ht]
  refine h.full.forall₂_images ?_
  intro row hm hp
  obtain ⟨k, hv, hw⟩ := Comparison.byIdText_equal.mp hp
  have hh : v.hit e = false := by
    rw [← Bool.not_eq_true]
    intro hh
    exact hf hh k (ChangeEvent.mem_idValues.mpr ⟨row, hm, hw⟩) hv
  refine ⟨length_images h hk ho hn hgb hga ht hh (by rw [hv]; rfl), ?_⟩
  intro hu
  rw [hit_eq_of_table ht, hu] at hh
  exact ChangeEvent.touches_mono hh (localColumns_subset_watched v)

end Visit

theorem forall₂_imp_of_mem {α β : Type} {r s : α → β → Prop} {l : List α} {m : List β}
    (h : List.Forall₂ r l m) (hrs : ∀ a ∈ l, ∀ b ∈ m, r a b → s a b) : List.Forall₂ s l m := by
  obtain ⟨hl, hz⟩ := List.forall₂_iff_zip.mp h
  refine List.forall₂_iff_zip.mpr ⟨hl, ?_⟩
  intro a b hm
  obtain ⟨ha, hb⟩ := List.of_mem_zip hm
  exact hrs a ha b hb (hz hm)

mutual

/-- A node gives the same for rows that correspond, unless a relation of it is hit for the entity. -/
theorem Node.alike_of_not_reached {s : RootSchema} {id : String} (h : Change e before after)
    (node : Node) (table : String) (path : List Step) {old new : Row}
    (hc : Counterparts e table node.localColumns old new) (ho : old ∈ before table)
    (hn : new ∈ after table) (hi : s.Encloses .byIdText after id path new)
    (hg : ∀ v ∈ node.visits table path, v.Guarded .byIdText before ∧ v.Guarded .byIdText after)
    (hf : ∀ v ∈ node.visits table path, v.hit e = true → ¬v.Reaches .byIdText after s e id) :
    node.Alike Json.Equal (node.view .byIdText before old) (node.view .byIdText after new) := by
  match node with
  | .column name =>
    rw [Alike, view, view]
    rw [localColumns] at hc
    exact hc.equal List.mem_cons_self
  | .object properties =>
    rw [Alike, view, view]
    rw [visits] at hg hf
    rw [localColumns] at hc
    exact ⟨_, _, rfl, rfl, alikeAll_of_not_reached h properties table path hc ho hn hi hg hf⟩
  | .relation r node =>
    rw [visits_relation] at hg hf
    rw [localColumns] at hc
    have hv := List.mem_cons_self (a := (⟨r, table, node, path⟩ : Visit))
      (l := node.visits r.table (⟨r, table⟩ :: path))
    have hk := (hc.equal List.mem_cons_self).idText?
    have hs : List.Forall₂ (Counterparts e r.table node.localColumns)
        (r.follow .byIdText before old) (r.follow .byIdText after new) := by
      refine Visit.forall₂_follow (v := ⟨r, table, node, path⟩) h hk ho hn (hg _ hv).1 (hg _ hv).2 ?_
      intro hh k hm hs
      exact hf _ hv hh ⟨new, hn, hi, k, hm, Comparison.byIdText_equal.mpr ⟨k, hs, rfl⟩⟩
    -- What is behind the relation is enclosed in turn.
    have hb : List.Forall₂ (fun far far' =>
        node.Alike Json.Equal (node.view .byIdText before far) (node.view .byIdText after far'))
        (r.follow .byIdText before old) (r.follow .byIdText after new) := by
      refine forall₂_imp_of_mem hs ?_
      intro far hfar far' hfar' hc
      exact alike_of_not_reached h node r.table (⟨r, table⟩ :: path) hc
        (List.mem_filter.mp hfar).1 (List.mem_filter.mp hfar').1 ⟨new, hn, hfar', hi⟩
        (fun v hv => hg v (List.mem_cons_of_mem _ hv)) (fun v hv => hf v (List.mem_cons_of_mem _ hv))
    cases r with
    | belongsTo b =>
      rw [Alike, view, view]
      generalize (Relation.belongsTo b).follow .byIdText before old = fars at hb ⊢
      generalize (Relation.belongsTo b).follow .byIdText after new = fars' at hb ⊢
      cases hb with
      | nil => exact .inl ⟨rfl, rfl⟩
      | cons hv _ => exact .inr hv
    | hasMany m =>
      rw [Alike, view, view]
      refine ⟨_, _, rfl, rfl, _, ?_, .refl _⟩
      rw [List.forall₂_map_left_iff, List.forall₂_map_right_iff]
      exact hb

theorem Node.alikeAll_of_not_reached {s : RootSchema} {id : String} (h : Change e before after)
    (properties : List (String × Node)) (table : String) (path : List Step) {old new : Row}
    (hc : Counterparts e table (localColumnsOfAll properties) old new) (ho : old ∈ before table)
    (hn : new ∈ after table) (hi : s.Encloses .byIdText after id path new)
    (hg : ∀ v ∈ visitsOfAll table path properties,
      v.Guarded .byIdText before ∧ v.Guarded .byIdText after)
    (hf : ∀ v ∈ visitsOfAll table path properties, v.hit e = true →
      ¬v.Reaches .byIdText after s e id) :
    AlikeAll Json.Equal properties (viewAll .byIdText before properties old)
      (viewAll .byIdText after properties new) := by
  match properties with
  | [] =>
    rw [AlikeAll, viewAll, viewAll]
    exact ⟨rfl, rfl⟩
  | (name, node) :: rest =>
    rw [visitsOfAll] at hg hf
    rw [localColumnsOfAll] at hc
    rw [AlikeAll, viewAll, viewAll]
    refine ⟨_, _, _, _, rfl, rfl, ?_, ?_⟩
    · exact alike_of_not_reached h node table path (hc.mono (List.subset_append_left _ _)) ho hn hi
        (fun v hv => hg v (List.mem_append_left _ hv)) (fun v hv => hf v (List.mem_append_left _ hv))
    · exact alikeAll_of_not_reached h rest table path (hc.mono (List.subset_append_right _ _)) ho hn hi
        (fun v hv => hg v (List.mem_append_right _ hv))
        (fun v hv => hf v (List.mem_append_right _ hv))

end

/-- An entity is the same before and after a change that neither changes a root row with its id nor
hits a relation that the entity reaches. -/
theorem RootSchema.upToOrder_entities {s : RootSchema} {id : String} (h : Change e before after)
    (hg : ∀ v ∈ s.visits, v.Guarded .byIdText before ∧ v.Guarded .byIdText after)
    (hr : s.rootRowChanged e = true → id ∉ e.idValues s.primaryKey)
    (hf : ∀ v ∈ s.visits, v.hit e = true → ¬v.Reaches .byIdText after s e id) :
    UpToOrder (s.node.Alike Json.Equal) (s.entities .byIdText before id)
      (s.entities .byIdText after id) := by
  have hs : List.Forall₂ (Counterparts e s.table s.node.localColumns)
      (rowsWith .byIdText before s.table s.primaryKey (.str id))
      (rowsWith .byIdText after s.table s.primaryKey (.str id)) := by
    refine h.forall₂_rowsWith ?_
    intro ht
    rw [ht]
    refine h.full.forall₂_images ?_
    intro row hm hp
    obtain ⟨k, hk, hw⟩ := Comparison.byIdText_equal.mp hp
    cases hk
    have hh : s.rootRowChanged e = false := by
      rw [← Bool.not_eq_true]
      exact fun hh => hr hh (ChangeEvent.mem_idValues.mpr ⟨row, hm, hw⟩)
    rw [rootRowChanged, ht, beq_self_eq_true, Bool.true_and] at hh
    cases ha : e.action with
    | update =>
      rw [ha] at hh
      exact ⟨h.full.length_images ha hh List.mem_cons_self _,
        fun _ => ChangeEvent.touches_mono hh (List.subset_cons_self _ _)⟩
    | _ => simp [ha] at hh
  refine ⟨_, ?_, .refl _⟩
  rw [entities, entities, List.forall₂_map_left_iff, List.forall₂_map_right_iff]
  refine forall₂_imp_of_mem hs ?_
  intro old ho new hn hc
  obtain ⟨hnt, hni⟩ := List.mem_filter.mp hn
  exact s.node.alike_of_not_reached h s.table [] hc (List.mem_filter.mp ho).1 hnt
    ⟨hnt, (Comparison.equal_comm _ _ _).trans hni⟩ hg hf

end EntityFeed
