import EntityFeed.Event.Document
import EntityFeed.Proofs.Introspection.Relevance
import EntityFeed.Proofs.Json.Reading

/-! Events as they come from text. In the images of an event that has been read each object has each of
its keys once, and so has an image each of its columns. -/
namespace EntityFeed
namespace ChangeEvent

open Json (Spelling)

variable {o : Origin}

theorem isSettled_of_readImage {t : Spelling} {image : Option Row} (h : readImage o t = .ok image) :
    ∀ row ∈ image, (Json.obj row).IsSettled := by
  unfold readImage at h
  split at h
  · cases h
    rintro _ ⟨⟩
  · obtain ⟨members, -, ends⟩ := of_bind_ok h
    cases ends
    rintro _ ⟨⟩
    exact Json.isSettled_obj_settled (Json.membersSettled_settledMembers members)
  · cases h

/-- That the images that a draft has are settled. -/
structure Draft.Settled (d : Draft) : Prop where
  data : ∀ row ∈ d.data.join, (Json.obj row).IsSettled
  dataOld : ∀ row ∈ d.dataOld.join, (Json.obj row).IsSettled

theorem Draft.Settled.readField {d d' : Draft} {name : String} {t : Spelling} (hd : d.Settled)
    (h : ChangeEvent.readField o d name t = .ok d') : d'.Settled := by
  unfold ChangeEvent.readField at h
  split at h
  · obtain ⟨_, -, rfl⟩ := of_once_ok h
    exact ⟨hd.data, hd.dataOld⟩
  split at h
  · obtain ⟨_, -, rfl⟩ := of_once_ok h
    exact ⟨hd.data, hd.dataOld⟩
  split at h
  · obtain ⟨image, read, rfl⟩ := of_once_ok h
    exact ⟨isSettled_of_readImage read, hd.dataOld⟩
  split at h
  · obtain ⟨image, read, rfl⟩ := of_once_ok h
    exact ⟨hd.data, isSettled_of_readImage read⟩
  · cases h
    exact hd

theorem Draft.Settled.readFields {d d' : Draft} {members : List (Except Json.Fault String × Spelling)}
    (hd : d.Settled) (h : ChangeEvent.readFields o d members = .ok d') : d'.Settled := by
  induction members generalizing d with
  | nil =>
    cases h
    exact hd
  | cons m rest ih =>
    obtain ⟨name, -, h⟩ := of_bind_ok h
    obtain ⟨next, own, h⟩ := of_bind_ok h
    exact ih (hd.readField own) h

theorem settled_mk {table : String} {action : Action} {data dataOld : Option Row}
    (hd : ∀ row ∈ data, (Json.obj row).IsSettled) (ho : ∀ row ∈ dataOld, (Json.obj row).IsSettled) :
    Settled ⟨table, action, data, dataOld⟩ := by
  intro row hrow
  rcases List.mem_append.mp hrow with h | h
  · exact hd row (Option.mem_toList.mp h)
  · exact ho row (Option.mem_toList.mp h)

theorem settled_of_readSpelling {t : Spelling} {e : ChangeEvent} (h : readSpelling o t = .ok e) :
    e.Settled := by
  have image {found : Option Spelling} {row : Option Row}
      (h : (found.map (readImage o)).getD (.ok none) = .ok row) :
      ∀ r ∈ row, (Json.obj r).IsSettled := by
    cases found with
    | none =>
      cases h
      rintro _ ⟨⟩
    | some t => exact isSettled_of_readImage h
  cases t with
  | faulty | scalar => cases h
  | obj members =>
    obtain ⟨d, fields, h⟩ := of_bind_ok h
    have settled : d.Settled := Draft.Settled.readFields ⟨by rintro _ ⟨⟩, by rintro _ ⟨⟩⟩ fields
    unfold Draft.finish at h
    split at h <;> cases h
    exact settled_mk settled.data settled.dataOld
  | arr items =>
    rcases items with _ | ⟨t, _ | ⟨a, rest⟩⟩
    · cases h
    · obtain ⟨_, -, h⟩ := of_bind_ok h
      cases h
    · obtain ⟨_, -, h⟩ := of_bind_ok h
      obtain ⟨_, -, h⟩ := of_bind_ok h
      obtain ⟨data, read, h⟩ := of_bind_ok h
      obtain ⟨dataOld, readOld, h⟩ := of_bind_ok h
      split at h <;> cases h
      exact settled_mk (image read) (image readOld)

/-- Events that are loaded are settled. -/
theorem settled_of_load {text : String} {e : ChangeEvent} (h : load text = .ok e) : e.Settled := by
  unfold load at h
  split at h
  · cases h
  · exact settled_of_readSpelling (of_mapError_ok h)

end ChangeEvent
end EntityFeed
