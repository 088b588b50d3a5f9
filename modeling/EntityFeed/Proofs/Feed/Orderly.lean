import EntityFeed.Feed.Basic

/-! A rebuild takes away only what it has had accepted. Every batch is queried and delivered before it
is removed, and what is delivered decides each id of the batch. -/
namespace EntityFeed

/-- The ids that changes decide. -/
def Changes.ids (c : Changes) : List String := c.upsert.map (·.id) ++ c.delete

/-- Changes decide each id of their batch once. -/
theorem Changes.perm_ids_ofRows (options : NormalizeOptions) (ids : List String) (rows : List Row) :
    (ofRows options ids rows).ids.Perm ids := by
  unfold ofRows
  generalize objects options rows = found
  induction ids generalizing found with
  | nil => rfl
  | cons id rest ih =>
    rw [Changes.decide]
    split
    · exact (ih _).cons id
    · exact List.perm_middle.trans ((ih found).cons id)

namespace Call

/-- The ids that a work has had accepted since it last queried, after one more call of it. -/
def accepted : (c : Call) → c.Answer → List String → List String
  | .query _, _, _ => []
  | .deliver changes, .ok (), held => changes.ids ++ held
  | _, _, held => held

/-- That a call removes only ids that have been accepted. -/
def Allowed : Call → List String → Prop
  | .remove ids, held => ∀ id ∈ ids, id ∈ held
  | _, _ => True

end Call

namespace Work

variable {α β : Type}

/-- That a work removes only ids that it has had accepted since it last queried. -/
def Orderly : Work α → List String → Prop
  | .done _, _ => True
  | .call c next, held => c.Allowed held ∧ ∀ answer, (next answer).Orderly (c.accepted answer held)

/-- That a work removes nothing. -/
def Removeless : Work α → Prop
  | .done _ => True
  | .call c next => (∀ held, c.Allowed held) ∧ ∀ answer, (next answer).Removeless

theorem Orderly.bind {w : Work α} {f : α → Work β} {held : List String} (h : w.Orderly held)
    (hf : ∀ a held, (f a).Orderly held) : (w.bind f).Orderly held := by
  induction w generalizing held with
  | done a => exact hf a held
  | call c next ih => exact ⟨h.1, fun answer => ih answer (h.2 answer)⟩

theorem Removeless.orderly {w : Work α} (h : w.Removeless) (held : List String) :
    w.Orderly held := by
  induction w generalizing held with
  | done a => trivial
  | call c next ih => exact ⟨h.1 held, fun answer => ih answer (h.2 answer) _⟩

theorem Removeless.orderly_inline {ρ : Type} {rebuild : Work (Except Failure ρ)}
    (hr : ∀ held, rebuild.Orderly held) {w : Work α} (h : w.Removeless) (held : List String) :
    (inline rebuild w).Orderly held := by
  induction w generalizing held with
  | done a => trivial
  | call c next ih =>
    cases c with
    | schedule => exact (hr held).bind fun result held => ih _ (h.2 _) held
    | query q => exact ⟨trivial, fun answer => ih answer (h.2 answer) _⟩
    | add ids => exact ⟨trivial, fun answer => ih answer (h.2 answer) _⟩
    | remove ids => exact ⟨h.1 held, fun answer => ih answer (h.2 answer) _⟩
    | snapshot => exact ⟨trivial, fun answer => ih answer (h.2 answer) _⟩
    | deliver changes => exact ⟨trivial, fun answer => ih answer (h.2 answer) _⟩

end Work

namespace Feed

theorem removeless_enqueue (ids : List String) : (enqueue ids).Removeless := by
  have hr : ∀ ids, (request ids).Removeless := by
    intro ids
    refine ⟨fun _ => trivial, ?_⟩
    rintro (_ | _) <;> trivial
  unfold enqueue
  dsimp only
  split
  · exact hr _
  · refine ⟨fun _ => trivial, ?_⟩
    rintro (_ | _)
    · trivial
    · exact hr _

/-- Taking in an event removes nothing. -/
theorem removeless_receive (f : Feed) (e : ChangeEvent) : (f.receive e).Removeless := by
  unfold receive
  dsimp only
  split
  · exact removeless_enqueue _
  · refine ⟨fun _ => trivial, ?_⟩
    rintro (_ | _)
    · trivial
    · exact removeless_enqueue _

theorem orderly_rebuildBatches (f : Feed) (r : Report) (batches : List (List String))
    (held : List String) : (f.rebuildBatches r batches).Orderly held := by
  induction batches generalizing r held with
  | nil => trivial
  | cons ids rest ih =>
    refine ⟨trivial, ?_⟩
    rintro (_ | rows)
    · trivial
    refine ⟨trivial, ?_⟩
    rintro (_ | _)
    · trivial
    refine ⟨?_, ?_⟩
    · intro id hid
      exact List.mem_append_left _ ((Changes.perm_ids_ofRows f.options ids rows).mem_iff.mpr hid)
    · rintro (_ | _)
      · trivial
      · exact ih _ _

theorem orderly_rebuild (f : Feed) (held : List String) : f.rebuild.Orderly held := by
  refine ⟨trivial, ?_⟩
  rintro (_ | batches)
  · trivial
  · exact f.orderly_rebuildBatches {} batches held

end Feed
end EntityFeed
