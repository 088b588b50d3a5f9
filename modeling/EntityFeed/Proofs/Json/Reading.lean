import EntityFeed.Proofs.Json.RoundTrip

/-! What a text spells when all of it has a value: just that value, and not nested more deeply than it
may be. -/
namespace EntityFeed

theorem of_bind_ok {ε α β : Type} {x : Except ε α} {f : α → Except ε β} {b : β}
    (h : x >>= f = .ok b) : ∃ a, x = .ok a ∧ f a = .ok b := by
  cases x with
  | error e => cases h
  | ok a => exact ⟨a, rfl, h⟩

/-- What a field that must not be given twice is read as. -/
theorem of_once_ok {ε α δ : Type} {seen : Bool} {e : ε} {x : Except ε α} {f : α → δ} {d : δ}
    (h : (if seen then .error e else do return f (← x)) = Except.ok d) : ∃ a, x = .ok a ∧ f a = d := by
  cases seen with
  | true => cases h
  | false =>
    obtain ⟨a, read, h⟩ := of_bind_ok h
    exact ⟨a, read, Except.ok.inj h⟩

theorem of_mapError_ok {ε ε' α : Type} {x : Except ε α} {f : ε → ε'} {a : α}
    (h : x.mapError f = .ok a) : x = .ok a := by
  cases x with
  | error e => cases h
  | ok b =>
    cases h
    rfl

namespace Json

namespace Spelling

mutual

/-- That arrays and objects are spelt out, and not kept as values. -/
def Proper : Spelling → Prop
  | faulty _ => True
  | scalar v => ofJson v = scalar v
  | arr items => ItemsProper items
  | obj members => MembersProper members

def ItemsProper : List Spelling → Prop
  | [] => True
  | t :: rest => t.Proper ∧ ItemsProper rest

def MembersProper : List (Except Fault String × Spelling) → Prop
  | [] => True
  | (_, t) :: rest => t.Proper ∧ MembersProper rest

end

theorem itemsProper_iff {items : List Spelling} : ItemsProper items ↔ ∀ t ∈ items, t.Proper := by
  induction items with
  | nil => simp [ItemsProper]
  | cons t rest ih => simp [ItemsProper, ih]

theorem membersProper_iff {members : List (Except Fault String × Spelling)} :
    MembersProper members ↔ ∀ m ∈ members, m.2.Proper := by
  induction members with
  | nil => simp [MembersProper]
  | cons m rest ih => simp [MembersProper, ih]

mutual

theorem Proper.limit : (t : Spelling) → t.Proper → (room : Nat) → (t.limit room).Proper
  | .faulty _, _, _ => trivial
  | .scalar _, proper, _ => by rwa [Spelling.limit]
  | .arr _, _, 0 => trivial
  | .arr items, proper, room + 1 => itemsProper_limit items proper room
  | .obj _, _, 0 => trivial
  | .obj members, proper, room + 1 => membersProper_limit members proper room

theorem itemsProper_limit : (items : List Spelling) → ItemsProper items → (room : Nat) →
    ItemsProper (limitItems room items)
  | [], _, _ => trivial
  | t :: rest, proper, room => ⟨Proper.limit t proper.1 room, itemsProper_limit rest proper.2 room⟩

theorem membersProper_limit : (members : List (Except Fault String × Spelling)) →
    MembersProper members → (room : Nat) → MembersProper (limitMembers room members)
  | [], _, _ => trivial
  | (_, t) :: rest, proper, room =>
    ⟨Proper.limit t proper.1 room, membersProper_limit rest proper.2 room⟩

end

mutual

/-- What has a value throughout is the spelling of it. -/
theorem eq_ofJson : (t : Spelling) → t.Proper → {v : Json} → t.value = .ok v → t = ofJson v
  | .faulty _, _, v, h => by rw [value] at h; cases h
  | .scalar _, proper, v, h => by
    rw [value] at h
    cases h
    exact proper.symm
  | .arr items, proper, v, h => by
    rw [value] at h
    obtain ⟨vs, values, ends⟩ := of_bind_ok h
    cases ends
    rw [ofJson, eq_ofItems items proper values]
  | .obj members, proper, v, h => by
    rw [value] at h
    obtain ⟨vs, values, ends⟩ := of_bind_ok h
    cases ends
    rw [ofJson, eq_ofMembers members proper values]

theorem eq_ofItems : (items : List Spelling) → ItemsProper items → {vs : List Json} →
    itemValues items = .ok vs → items = ofItems vs
  | [], _, vs, h => by
    rw [itemValues] at h
    cases h
    rfl
  | t :: rest, proper, vs, h => by
    rw [itemValues] at h
    obtain ⟨v, first, h⟩ := of_bind_ok h
    obtain ⟨others, values, ends⟩ := of_bind_ok h
    cases ends
    rw [ofItems, eq_ofJson t proper.1 first, eq_ofItems rest proper.2 values]

theorem eq_ofMembers : (members : List (Except Fault String × Spelling)) → MembersProper members →
    {vs : Members} → memberValues members = .ok vs → members = ofMembers vs
  | [], _, vs, h => by
    rw [memberValues] at h
    cases h
    rfl
  | (key, t) :: rest, proper, vs, h => by
    rw [memberValues] at h
    obtain ⟨k, named, h⟩ := of_bind_ok h
    obtain ⟨v, first, h⟩ := of_bind_ok h
    obtain ⟨others, values, ends⟩ := of_bind_ok h
    cases ends
    rw [ofMembers, named, eq_ofJson t proper.1 first, eq_ofMembers rest proper.2 values]

end

mutual

/-- A value that is left by a limit is not nested more deeply. -/
theorem depth_le_of_limit : (t : Spelling) → (room : Nat) → {v : Json} → t.limit room = ofJson v →
    v.depth ≤ room
  | .faulty _, room, v, h => by cases v <;> cases h
  | .scalar _, room, v, h => by
    cases v with
    | arr | obj => cases h
    | _ => exact Nat.zero_le room
  | .arr items, room, v, h => by
    cases room with
    | zero => cases v <;> cases h
    | succ room =>
      rw [limit] at h
      cases v with
      | arr vs => exact Nat.succ_le_succ (depthOfAll_le_of_limit items room (Spelling.arr.inj h))
      | _ => cases h
  | .obj members, room, v, h => by
    cases room with
    | zero => cases v <;> cases h
    | succ room =>
      rw [limit] at h
      cases v with
      | obj vs => exact Nat.succ_le_succ (depthOfMembers_le_of_limit members room (Spelling.obj.inj h))
      | _ => cases h

theorem depthOfAll_le_of_limit : (items : List Spelling) → (room : Nat) → {vs : List Json} →
    limitItems room items = ofItems vs → depthOfAll vs ≤ room
  | _, room, [], _ => Nat.zero_le room
  | [], _, _ :: _, h => by cases h
  | t :: rest, room, v :: vs, h => by
    obtain ⟨first, others⟩ := List.cons.inj h
    exact Nat.max_le.mpr ⟨depth_le_of_limit t room first, depthOfAll_le_of_limit rest room others⟩

theorem depthOfMembers_le_of_limit : (members : List (Except Fault String × Spelling)) →
    (room : Nat) → {vs : Members} → limitMembers room members = ofMembers vs →
    depthOfMembers vs ≤ room
  | _, room, [], _ => Nat.zero_le room
  | [], _, (_, _) :: _, h => by cases h
  | (_, t) :: rest, room, (_, v) :: vs, h => by
    obtain ⟨first, others⟩ := List.cons.inj h
    exact Nat.max_le.mpr ⟨depth_le_of_limit t room (Prod.mk.inj first).2,
      depthOfMembers_le_of_limit rest room others⟩

end

end Spelling

section Machine

def Token.Proper : Token → Prop
  | .scalar v => (Spelling.ofExcept v).Proper
  | _ => True

def Frame.Proper : Frame → Prop
  | .items done => ∀ t ∈ done, t.Proper
  | .members done _ => ∀ m ∈ done, m.2.Proper

def Place.Proper : Place → Prop
  | .value stack | .firstItem stack | .firstKey stack => ∀ f ∈ stack, f.Proper
  | .key done stack | .colon done _ stack => (∀ m ∈ done, m.2.Proper) ∧ ∀ f ∈ stack, f.Proper
  | .after v stack => v.Proper ∧ ∀ f ∈ stack, f.Proper

theorem Place.proper_start {stack : List Frame} {t : Token} {q : Place}
    (proper : ∀ f ∈ stack, f.Proper) (ht : t.Proper) (h : start stack t = some q) : q.Proper := by
  unfold start at h
  split at h <;> cases h
  · exact proper
  · exact proper
  · rename_i s
    cases s with
    | error => exact ⟨trivial, proper⟩
    | ok => exact ⟨rfl, proper⟩
  · exact ⟨ht, proper⟩

theorem Place.Proper.step {p q : Place} {t : Token} (h : p.Proper) (ht : t.Proper)
    (hs : p.step t = some q) : q.Proper := by
  unfold Place.step at hs
  split at hs
  · exact proper_start h ht hs
  · cases hs
    exact ⟨trivial, h⟩
  · have opened : (Frame.items []).Proper := List.forall_mem_nil _
    exact proper_start (List.forall_mem_cons.mpr ⟨opened, h⟩) ht hs
  all_goals cases hs
  · exact ⟨trivial, h⟩
  · exact ⟨List.forall_mem_nil _, h⟩
  · exact h
  · exact List.forall_mem_cons.mpr h
  · obtain ⟨done, frames⟩ := List.forall_mem_cons.mp h.2
    have more : (Frame.items (_ :: _)).Proper := List.forall_mem_cons.mpr ⟨h.1, done⟩
    exact List.forall_mem_cons.mpr ⟨more, frames⟩
  · obtain ⟨done, frames⟩ := List.forall_mem_cons.mp h.2
    refine ⟨Spelling.itemsProper_iff.mpr fun t ht => ?_, frames⟩
    exact List.forall_mem_cons.mpr ⟨h.1, done⟩ t (List.mem_reverse.mp ht)
  · obtain ⟨done, frames⟩ := List.forall_mem_cons.mp h.2
    exact ⟨fun m hm => (List.mem_cons.mp hm).elim (fun same => same ▸ h.1) (done m), frames⟩
  · obtain ⟨done, frames⟩ := List.forall_mem_cons.mp h.2
    refine ⟨Spelling.membersProper_iff.mpr fun m hm => ?_, frames⟩
    exact (List.mem_cons.mp (List.mem_reverse.mp hm)).elim (fun same => same ▸ h.1) (done m)

theorem Place.Proper.run {p q : Place} {ts : List Token} (h : p.Proper) (hts : ∀ t ∈ ts, t.Proper)
    (hs : ts.foldlM Place.step p = some q) : q.Proper := by
  induction ts generalizing p with
  | nil =>
    cases hs
    exact h
  | cons t rest ih =>
    obtain ⟨ht, others⟩ := List.forall_mem_cons.mp hts
    obtain ⟨next, first, hs⟩ := Option.bind_eq_some_iff.mp hs
    exact ih (h.step ht first) others hs

theorem ofJson_value? {l : Literal} {v : Json} (h : l.value? = some v) : Spelling.ofJson v = .scalar v := by
  rcases ite_eq_iff.mp h with ⟨-, h⟩ | ⟨-, h⟩
  · cases h
    rfl
  · obtain ⟨x, -, rfl⟩ := Option.map_eq_some_iff.mp h
    rfl

theorem proper_word {cs : List Char} {v : Except Fault Json} (h : word? cs = some v) :
    (Token.scalar v).Proper := by
  unfold word? at h
  split at h
  · cases h
    rfl
  split at h
  · cases h
    rfl
  split at h
  · cases h
    rfl
  · obtain ⟨l, -, h⟩ := Option.bind_eq_some_iff.mp h
    cases h
    split
    · rename_i value
      exact ofJson_value? value
    · trivial

theorem proper_tokens {cs : List Char} {ts : List Token} (h : tokens? cs = some ts) :
    ∀ t ∈ ts, t.Proper := by
  fun_induction tokens? cs generalizing ts with
  | case1 =>
    cases h
    exact List.forall_mem_nil _
  | case2 c rest _ ih => exact ih h
  | case3 => cases h
  | case4 rest body after _ _ _ ih =>
    obtain ⟨units, -, h⟩ := Option.bind_eq_some_iff.mp h
    obtain ⟨others, read, h⟩ := Option.bind_eq_some_iff.mp h
    cases h
    exact List.forall_mem_cons.mpr ⟨trivial, ih read⟩
  | case5 c rest _ _ m _ ih =>
    obtain ⟨others, read, rfl⟩ := Option.map_eq_some_iff.mp h
    exact List.forall_mem_cons.mpr ⟨trivial, ih read⟩
  | case6 c rest _ _ _ _ _ ih =>
    obtain ⟨v, word, h⟩ := Option.bind_eq_some_iff.mp h
    obtain ⟨others, read, h⟩ := Option.bind_eq_some_iff.mp h
    cases h
    exact List.forall_mem_cons.mpr ⟨proper_word word, ih read⟩
  | case7 => cases h

end Machine

/-- What a text spells is spelt out, and then limited. -/
theorem of_spelling? {text : String} {t : Spelling} (h : spelling? text = some t) :
    ∃ u : Spelling, u.Proper ∧ t = u.limit (depthLimit - 1) := by
  obtain ⟨ts, tokens, h⟩ := Option.bind_eq_some_iff.mp h
  obtain ⟨u, machine, h⟩ := Option.bind_eq_some_iff.mp h
  cases h
  have proper : u.Proper := by
    unfold ofTokens? at machine
    split at machine <;> cases machine
    rename_i run
    exact (Place.Proper.run (p := .value []) (List.forall_mem_nil _) (proper_tokens tokens) run).1
  exact ⟨u, proper, rfl⟩

/-- A text that has a value spells that value. -/
theorem spelling?_of_read? {text : String} {v : Json} (h : read? text = some v) :
    spelling? text = some (.ofJson v) := by
  obtain ⟨t, spelt, value⟩ := Option.bind_eq_some_iff.mp h
  obtain ⟨u, proper, limited⟩ := of_spelling? spelt
  have proper : t.Proper := limited ▸ Spelling.Proper.limit u proper _
  cases found : t.value with
  | error e =>
    rw [found] at value
    cases value
  | ok w =>
    rw [found] at value
    cases value
    rw [spelt, Spelling.eq_ofJson t proper found]

end Json
end EntityFeed
