import EntityFeed.Proofs.Json.Printing

/-! What is printed as JSON text is read back as it was, unless it is nested too deeply. -/
namespace EntityFeed.Json

open Spelling

mutual

/-- How many arrays and objects stand within each other. -/
def depth : Json → Nat
  | .arr items => depthOfAll items + 1
  | .obj members => depthOfMembers members + 1
  | _ => 0

def depthOfAll : List Json → Nat
  | [] => 0
  | v :: rest => max (depth v) (depthOfAll rest)

def depthOfMembers : Members → Nat
  | [] => 0
  | (_, v) :: rest => max (depth v) (depthOfMembers rest)

end

theorem depthOfMembers_le {members : Members} {room : Nat} :
    depthOfMembers members ≤ room ↔ ∀ m ∈ members, m.2.depth ≤ room := by
  induction members with
  | nil => simp [depthOfMembers]
  | cons m rest ih => rw [depthOfMembers, Nat.max_le, ih, List.forall_mem_cons]

section Machine

/-- The first item of an array is read as a value. -/
theorem foldlM_firstItem (v : Json) (stack : List Frame) (ts : List Token) :
    (tokens v ++ ts).foldlM Place.step (.firstItem stack) =
      (tokens v ++ ts).foldlM Place.step (.value (.items [] :: stack)) := by
  cases v <;> rfl

mutual

/-- The tokens of a value lead from where a value is due to where it has ended. -/
theorem foldlM_tokens : (v : Json) → (stack : List Frame) → (ts : List Token) →
    (tokens v ++ ts).foldlM Place.step (.value stack) = ts.foldlM Place.step (.after (ofJson v) stack)
  | .null, _, _ | .bool _, _, _ | .int _, _, _ | .float _, _, _ | .str _, _, _ => rfl
  | .arr [], _, _ => rfl
  | .arr [v], stack, ts => by
    have behind := foldlM_itemTokens [v] (by simp) [] stack ts
    rw [itemTokens, List.append_assoc, ← foldlM_firstItem] at behind
    rw [tokens, itemTokens, List.cons_append, List.append_assoc]
    exact behind
  | .arr (v :: w :: more), stack, ts => by
    have behind := foldlM_itemTokens (v :: w :: more) (by simp) [] stack ts
    rw [itemTokens_cons, List.append_assoc, ← foldlM_firstItem] at behind
    rw [tokens, itemTokens_cons, List.cons_append, List.append_assoc]
    exact behind
  | .obj [], _, _ => rfl
  | .obj [(k, v)], stack, ts => foldlM_memberTokens [(k, v)] (by simp) [] stack ts
  | .obj ((k, v) :: w :: more), stack, ts => by
    have behind := foldlM_memberTokens ((k, v) :: w :: more) (by simp) [] stack ts
    rw [memberTokens_cons] at behind
    rw [tokens, memberTokens_cons]
    exact behind

theorem foldlM_itemTokens : (items : List Json) → items ≠ [] → (done : List Spelling) →
    (stack : List Frame) → (ts : List Token) →
    (itemTokens items ++ ts).foldlM Place.step (.value (.items done :: stack)) =
      ts.foldlM Place.step (.after (.arr (done.reverse ++ ofItems items)) stack)
  | [], some_, _, _, _ => absurd rfl some_
  | [v], _, done, stack, ts => by
    have closes : done.reverse ++ ofItems [v] = (ofJson v :: done).reverse := by
      simp [ofItems]
    rw [itemTokens, List.append_assoc, foldlM_tokens v, closes]
    rfl
  | v :: w :: more, _, done, stack, ts => by
    have goesOn : done.reverse ++ ofItems (v :: w :: more) =
        (ofJson v :: done).reverse ++ ofItems (w :: more) := by
      simp [ofItems]
    rw [itemTokens_cons, List.append_assoc, foldlM_tokens v, goesOn]
    exact foldlM_itemTokens (w :: more) (by simp) _ stack ts

theorem foldlM_memberTokens : (members : Members) → members ≠ [] →
    (done : List (Except Fault String × Spelling)) → (stack : List Frame) → (ts : List Token) →
    (memberTokens members ++ ts).foldlM Place.step (.key done stack) =
      ts.foldlM Place.step (.after (.obj (done.reverse ++ ofMembers members)) stack)
  | [], some_, _, _, _ => absurd rfl some_
  | [(k, v)], _, done, stack, ts => by
    have closes : done.reverse ++ ofMembers [(k, v)] = ((.ok k, ofJson v) :: done).reverse := by
      simp [ofMembers]
    have value := foldlM_tokens v (.members done (.ok k) :: stack) (.mark .closeObject :: ts)
    rw [memberTokens, closes, List.append_assoc]
    exact value
  | (k, v) :: w :: more, _, done, stack, ts => by
    have goesOn : done.reverse ++ ofMembers ((k, v) :: w :: more) =
        ((.ok k, ofJson v) :: done).reverse ++ ofMembers (w :: more) := by
      simp [ofMembers]
    have value := foldlM_tokens v (.members done (.ok k) :: stack)
      (.mark .comma :: (memberTokens (w :: more) ++ ts))
    rw [memberTokens_cons, goesOn, List.append_assoc]
    exact value.trans (foldlM_memberTokens (w :: more) (by simp) _ stack ts)

end

end Machine

section Limit

mutual

/-- A value that is not nested too deeply is spelt without a fault. -/
theorem limit_ofJson : (v : Json) → (room : Nat) → v.depth ≤ room → (ofJson v).limit room = ofJson v
  | .null, _, _ | .bool _, _, _ | .int _, _, _ | .float _, _, _ | .str _, _, _ => by
    simp [ofJson, limit]
  | .arr items, room + 1, within => by
    rw [ofJson, limit, limitItems_ofItems items room (Nat.le_of_succ_le_succ within)]
  | .obj members, room + 1, within => by
    rw [ofJson, limit, limitMembers_ofMembers members room (Nat.le_of_succ_le_succ within)]

theorem limitItems_ofItems : (items : List Json) → (room : Nat) → depthOfAll items ≤ room →
    limitItems room (ofItems items) = ofItems items
  | [], _, _ => rfl
  | v :: rest, room, within => by
    obtain ⟨first, others⟩ := Nat.max_le.mp within
    rw [ofItems, limitItems, limit_ofJson v room first, limitItems_ofItems rest room others]

theorem limitMembers_ofMembers : (members : Members) → (room : Nat) → depthOfMembers members ≤ room →
    limitMembers room (ofMembers members) = ofMembers members
  | [], _, _ => rfl
  | (_, v) :: rest, room, within => by
    obtain ⟨first, others⟩ := Nat.max_le.mp within
    rw [ofMembers, limitMembers, limit_ofJson v room first, limitMembers_ofMembers rest room others]

end

mutual

/-- Where there is not room enough for a value, no value is left. -/
theorem value_limit_ofJson : (v : Json) → (room : Nat) →
    ((ofJson v).limit room).value = if v.depth ≤ room then .ok v else .error .tooDeep
  | .null, _ | .bool _, _ | .int _, _ | .float _, _ | .str _, _ => by
    simp [ofJson, limit, value, depth]
  | .arr _, 0 | .obj _, 0 => by simp [ofJson, limit, value, depth]
  | .arr items, room + 1 => by
    simp only [ofJson, limit, value, itemValues_limitItems items room, depth,
      Nat.add_le_add_iff_right]
    split <;> rfl
  | .obj members, room + 1 => by
    simp only [ofJson, limit, value, memberValues_limitMembers members room, depth,
      Nat.add_le_add_iff_right]
    split <;> rfl

theorem itemValues_limitItems : (items : List Json) → (room : Nat) →
    itemValues (limitItems room (ofItems items)) =
      if depthOfAll items ≤ room then .ok items else .error .tooDeep
  | [], room => by simp [ofItems, limitItems, itemValues, depthOfAll]
  | v :: rest, room => by
    rw [ofItems, limitItems, itemValues, value_limit_ofJson v room, itemValues_limitItems rest room,
      depthOfAll]
    simp only [Nat.max_le]
    by_cases first : v.depth ≤ room
    · by_cases others : depthOfAll rest ≤ room <;>
        simp [-Nat.not_le, first, others, bind, Except.bind, pure, Except.pure]
    · simp [-Nat.not_le, first, bind, Except.bind]

theorem memberValues_limitMembers : (members : Members) → (room : Nat) →
    memberValues (limitMembers room (ofMembers members)) =
      if depthOfMembers members ≤ room then .ok members else .error .tooDeep
  | [], room => by simp [ofMembers, limitMembers, memberValues, depthOfMembers]
  | (_, v) :: rest, room => by
    rw [ofMembers, limitMembers, memberValues, value_limit_ofJson v room,
      memberValues_limitMembers rest room, depthOfMembers]
    simp only [Nat.max_le]
    by_cases first : v.depth ≤ room
    · by_cases others : depthOfMembers rest ≤ room <;>
        simp [-Nat.not_le, first, others, bind, Except.bind, pure, Except.pure]
    · simp [-Nat.not_le, first, bind, Except.bind]

end

end Limit

variable {v : Json}

/-- A text spells the value that is printed in it, with faults where that is nested too deeply. -/
theorem spelling?_text_eq_limit (plain : v.Plain) :
    spelling? v.text = some ((ofJson v).limit (depthLimit - 1)) := by
  have printed : tokens? v.chars = some v.tokens := by
    have apart : Apart [] := by rintro c ⟨⟩
    have whole := tokens?_chars v plain apart
    simpa [tokens?] using whole
  have machine : ofTokens? v.tokens = some (ofJson v) := by
    have whole := foldlM_tokens v [] []
    rw [List.append_nil] at whole
    rw [ofTokens?, whole]
    rfl
  rw [spelling?, text, String.toList_ofList, printed]
  simp only [Option.bind_eq_bind, Option.bind_some, machine]
  rfl

theorem spelling?_text (plain : v.Plain) (shallow : v.depth < depthLimit) :
    spelling? v.text = some (ofJson v) := by
  rw [spelling?_text_eq_limit plain, limit_ofJson v _ (Nat.le_sub_one_of_lt shallow)]

/-- What is printed is read back. -/
theorem read?_text (plain : v.Plain) (shallow : v.depth < depthLimit) : read? v.text = some v := by
  rw [read?, spelling?_text plain shallow]
  simp only [Option.bind_eq_bind, Option.bind_some, value_ofJson]
  rfl

end EntityFeed.Json
