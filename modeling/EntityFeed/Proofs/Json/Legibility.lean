import EntityFeed.Proofs.Binary64.Layout
import EntityFeed.Proofs.Json.Printing
import EntityFeed.Proofs.Json.Values

/-! A text tells its value: two values whose numbers are finite have the same text only if they are one,
down to the order of members and the signs of zeros. A text is no beginning of another one either, since
what may follow it is seen to be no part of it. -/
namespace EntityFeed.Json

section Strings

variable {s t : String} {rest other : List Char}

theorem quoted_append_inj (same : quoted s ++ rest = quoted t ++ other) : s = t ∧ rest = other := by
  have text (u : String) (cs : List Char) :
      quoted u ++ cs = '"' :: (u.toList.flatMap escapeChar ++ '"' :: cs) := by
    simp [quoted]
  rw [text, text, List.cons.injEq] at same
  have split := splitQuote_flatMap s.toList rest
  rw [same.2, splitQuote_flatMap, Option.some.injEq, Prod.mk.injEq] at split
  obtain ⟨units, printed, joined⟩ := exists_units s.toList
  obtain ⟨units', printed', joined'⟩ := exists_units t.toList
  rw [split.1, printed, Option.some.injEq] at printed'
  rw [← printed', joined, Except.ok.injEq] at joined'
  exact ⟨String.toList_inj.mp joined', split.2.symm⟩

end Strings

section Words

/-- The mark that the text of a value begins with; none if the text is a word. -/
def opening : Json → Option Char
  | .str _ => some '"'
  | .arr _ => some '['
  | .obj _ => some '{'
  | _ => none

def isNumber : Json → Bool
  | .int _ | .float _ => true
  | _ => false

variable {v w : Json}

theorem chars_ofNat (m : Nat) : chars (.int (Int.ofNat m)) = Nat.toDigits 10 m := Text.toList_ofNat m

theorem chars_negSucc (m : Nat) : chars (.int (Int.negSucc m)) = '-' :: Nat.toDigits 10 (m + 1) :=
  Text.toList_negSucc m

theorem chars_int (n : Int) : chars (.int n) ≠ [] ∧
    ∀ c ∈ chars (.int n), c = '-' ∨ c.isDigit = true := by
  cases n with
  | ofNat m =>
    rw [chars_ofNat]
    exact ⟨Nat.toDigits_ne_nil, fun c hc => .inr (Text.isDigit_toDigits m c hc)⟩
  | negSucc m =>
    rw [chars_negSucc]
    exact ⟨List.cons_ne_nil _ _, List.forall_mem_cons.mpr
      ⟨.inl rfl, fun c hc => .inr (Text.isDigit_toDigits (m + 1) c hc)⟩⟩

theorem int_inj {n m : Int} (same : chars (.int n) = chars (.int m)) : n = m := by
  have signless (k : Nat) (cs : List Char) : Nat.toDigits 10 k ≠ '-' :: cs := fun h =>
    absurd (Text.isDigit_toDigits k '-' (h ▸ List.mem_cons_self)) (by decide)
  cases n <;> cases m <;> simp only [chars_ofNat, chars_negSucc] at same
  · rw [Text.toDigits_inj same]
  · exact absurd same (signless _ _)
  · exact absurd same.symm (signless _ _)
  · rw [Nat.succ.inj (Text.toDigits_inj (List.cons.inj same).2)]

theorem chars_number (number : v.isNumber = true) (finite : v.IsFinite) :
    chars v ≠ [] ∧ ∀ c ∈ chars v, Binary64.inNumber c = true := by
  cases v <;> try contradiction
  case int n =>
    obtain ⟨some_, digits⟩ := chars_int n
    refine ⟨some_, fun c hc => ?_⟩
    rcases digits c hc with rfl | digit
    · decide
    · exact Binary64.inNumber_of_isDigit digit
  case float x =>
    obtain ⟨marked, characters⟩ := Binary64.mem_render numberLayout (x := x) finite
    rw [chars]
    exact ⟨marked.elim List.ne_nil_of_mem List.ne_nil_of_mem, characters⟩

/-- A name has a letter that no number has. -/
theorem chars_name (word : v.opening = none) (name : v.isNumber = false) :
    (∀ c ∈ chars v, inWord c = true) ∧ ∃ c ∈ chars v, Binary64.inNumber c = false := by
  rcases v with _ | (_ | _) | _ | _ | _ | _ | _ <;> try contradiction
  · exact ⟨List.all_eq_true.mp rfl, 'n', by decide, rfl⟩
  · exact ⟨List.all_eq_true.mp rfl, 'f', by decide, rfl⟩
  · exact ⟨List.all_eq_true.mp rfl, 't', by decide, rfl⟩

theorem inWord_of_inNumber {c : Char} (h : Binary64.inNumber c = true) : inWord c = true := by
  simp only [Binary64.inNumber, Bool.or_eq_true, beq_iff_eq] at h
  rcases h with (((digit | rfl) | rfl) | rfl) | rfl
  · exact inWord_of_isDigit digit
  all_goals decide

theorem chars_word (word : v.opening = none) (finite : v.IsFinite) :
    chars v ≠ [] ∧ ∀ c ∈ chars v, inWord c = true := by
  cases number : v.isNumber with
  | true =>
    obtain ⟨some_, characters⟩ := chars_number number finite
    exact ⟨some_, fun c hc => inWord_of_inNumber (characters c hc)⟩
  | false =>
    obtain ⟨characters, c, hc, -⟩ := chars_name word number
    exact ⟨List.ne_nil_of_mem hc, characters⟩

/-- An integer is written without point and exponent. -/
theorem chars_int_ne_float (n : Int) {x : Binary64} (finite : x.isFinite = true) :
    chars (.int n) ≠ chars (.float x) := by
  intro same
  obtain ⟨-, digits⟩ := chars_int n
  obtain ⟨marked, -⟩ := Binary64.mem_render numberLayout finite
  rw [same] at digits
  rcases marked with marked | marked
  · exact absurd (digits _ marked) (by decide)
  · exact absurd (digits _ marked) (by decide)

theorem eq_of_word (hv : v.opening = none) (hw : w.opening = none) (fv : v.IsFinite)
    (fw : w.IsFinite) (same : chars v = chars w) : v = w := by
  cases nv : v.isNumber <;> cases nw : w.isNumber
  · rcases v with _ | (_ | _) | _ | _ | _ | _ | _ <;> try contradiction
    all_goals
      rcases w with _ | (_ | _) | _ | _ | _ | _ | _ <;> first | contradiction | rfl
  · obtain ⟨-, c, hc, letter⟩ := chars_name hv nv
    have number := (chars_number nw fw).2 c (same ▸ hc)
    rw [letter] at number
    contradiction
  · obtain ⟨-, c, hc, letter⟩ := chars_name hw nw
    have number := (chars_number nv fv).2 c (same ▸ hc)
    rw [letter] at number
    contradiction
  · cases v <;> try contradiction
    case int n =>
      cases w <;> try contradiction
      case int m => rw [int_inj same]
      case float y => exact absurd same (chars_int_ne_float n fw)
    case float x =>
      cases w <;> try contradiction
      case int m => exact absurd same.symm (chars_int_ne_float m fv)
      case float y =>
        rw [chars, chars, String.toList_inj] at same
        rw [Binary64.render_inj numberLayout fv fw same]

/-- The first character tells what kind of text follows. -/
theorem opening_eq (finite : v.IsFinite) {c : Char} {cs rest : List Char}
    (text : chars v ++ rest = c :: cs) : v.opening = if inWord c then none else some c := by
  cases word : v.opening with
  | none =>
    obtain ⟨some_, characters⟩ := chars_word word finite
    cases first : chars v with
    | nil => exact absurd first some_
    | cons x xs =>
      rw [first, List.cons_append, List.cons.injEq] at text
      rw [← text.1, if_pos (characters x (by simp [first]))]
  | some mark =>
    cases v <;> cases word <;> cases text <;> rfl

end Words

section Texts

theorem itemChars_cons (v : Json) (items : List Json) :
    itemChars (v :: items) =
      chars v ++ if items.isEmpty then [']'] else ',' :: itemChars items := by
  cases items with
  | nil => rw [itemChars]; rfl
  | cons w more =>
    rw [itemChars]
    · rfl
    · rintro ⟨⟩

theorem memberChars_cons (m : String × Json) (members : Members) :
    memberChars (m :: members) = quoted m.1 ++ ':' ::
      (chars m.2 ++ if members.isEmpty then ['}'] else ',' :: memberChars members) := by
  cases members with
  | nil => simp [memberChars]
  | cons w more =>
    rw [memberChars]
    · simp
    · rintro ⟨⟩

/-- Behind an item stands the closing mark, or a comma and more items. -/
theorem behind_inj {α : Type} {write : List α → List Char} {close : Char} (mark : close ≠ ',')
    {items others : List α} {rest other : List Char}
    (later : write items ++ rest = write others ++ other → items = others ∧ rest = other)
    (same : (if items.isEmpty then [close] else ',' :: write items) ++ rest =
      (if others.isEmpty then [close] else ',' :: write others) ++ other) :
    items = others ∧ rest = other := by
  cases items <;> cases others
  · exact ⟨rfl, (List.cons.inj same).2⟩
  · exact absurd (List.cons.inj same).1 mark
  · exact absurd (List.cons.inj same).1.symm mark
  · exact later (List.cons.inj same).2

end Texts

/-- That no other text begins with a value's text, if what follows is no part of it. -/
def Legible (v : Json) : Prop :=
  ∀ w : Json, w.IsFinite → ∀ rest other : List Char, Apart rest → Apart other →
    chars v ++ rest = chars w ++ other → v = w ∧ rest = other

theorem opening_congr {v w : Json} (fv : v.IsFinite) (fw : w.IsFinite) {rest other : List Char}
    (same : chars v ++ rest = chars w ++ other) : v.opening = w.opening := by
  cases text : chars v ++ rest with
  | nil =>
    have none : chars v = [] := (List.append_eq_nil_iff.mp text).1
    cases word : v.opening with
    | none => exact absurd none (chars_word word fv).1
    | some mark => cases v <;> cases word <;> cases none
  | cons c cs => rw [opening_eq fv text, opening_eq fw (same.symm.trans text)]

theorem legible_word {v : Json} (word : v.opening = none) (fv : v.IsFinite) : v.Legible := by
  intro w fw rest other hr ho same
  have opening := (opening_congr fv fw same).symm.trans word
  -- Where nothing marks the end, the text ends with the last character that words have.
  obtain ⟨textV, restV⟩ := span_of_apart (chars_word word fv).2 hr
  obtain ⟨textW, restW⟩ := span_of_apart (chars_word opening fw).2 ho
  rw [same, textW] at textV
  rw [same, restW] at restV
  exact ⟨eq_of_word word opening fv fw textV.symm, restV.symm⟩

theorem apart_ite {p : Bool} {a b : Char} (ha : inWord a = false) (hb : inWord b = false)
    (cs rest : List Char) : Apart ((if p then [a] else b :: cs) ++ rest) := by
  cases p <;> rintro c ⟨⟩
  · exact hb
  · exact ha

theorem chars_ne_close {v : Json} (fv : v.IsFinite) (rest cs : List Char) :
    chars v ++ rest ≠ ']' :: cs := by
  intro text
  have mark := opening_eq fv text
  rw [if_neg (by decide)] at mark
  cases v <;> simp [opening] at mark

theorem legible_items {items others : List Json} (legible : ∀ v ∈ items, v.Legible)
    (fi : AllFinite items) (fo : AllFinite others) {rest other : List Char}
    (same : itemChars items ++ rest = itemChars others ++ other) : items = others ∧ rest = other := by
  induction items generalizing others with
  | nil =>
    cases others with
    | nil => exact ⟨rfl, (List.cons.inj same).2⟩
    | cons w more =>
      rw [itemChars_cons, List.append_assoc] at same
      exact absurd same.symm (chars_ne_close fo.1 _ _)
  | cons v items ih =>
    cases others with
    | nil =>
      rw [itemChars_cons, List.append_assoc] at same
      exact absurd same (chars_ne_close fi.1 _ _)
    | cons w others =>
      obtain ⟨first, behind⟩ := List.forall_mem_cons.mp legible
      rw [itemChars_cons, itemChars_cons, List.append_assoc, List.append_assoc] at same
      obtain ⟨rfl, tail⟩ := first w fo.1 _ _ (apart_ite rfl rfl _ _) (apart_ite rfl rfl _ _) same
      obtain ⟨rfl, rfl⟩ := behind_inj (by decide) (ih behind fi.2 fo.2) tail
      exact ⟨rfl, rfl⟩

theorem legible_members {members others : Members} (legible : ∀ m ∈ members, m.2.Legible)
    (finite : MembersFinite others) {rest other : List Char}
    (same : memberChars members ++ rest = memberChars others ++ other) :
    members = others ∧ rest = other := by
  induction members generalizing others with
  | nil =>
    cases others with
    | nil => exact ⟨rfl, (List.cons.inj same).2⟩
    | cons n more =>
      rw [memberChars_cons, quoted] at same
      cases same
  | cons m members ih =>
    cases others with
    | nil =>
      rw [memberChars_cons, quoted] at same
      cases same
    | cons n others =>
      obtain ⟨key, v⟩ := m
      obtain ⟨key', w⟩ := n
      obtain ⟨first, behind⟩ := List.forall_mem_cons.mp legible
      rw [memberChars_cons, memberChars_cons, List.append_assoc, List.append_assoc] at same
      obtain ⟨rfl, same⟩ := quoted_append_inj same
      rw [List.cons_append, List.cons_append, List.append_assoc, List.append_assoc] at same
      obtain ⟨rfl, tail⟩ := first w finite.1 _ _ (apart_ite rfl rfl _ _) (apart_ite rfl rfl _ _)
        (List.cons.inj same).2
      obtain ⟨rfl, rfl⟩ := behind_inj (by decide) (ih behind finite.2) tail
      exact ⟨rfl, rfl⟩

theorem legible_of_finite {v : Json} (fv : v.IsFinite) : v.Legible := by
  induction v using parts_induction with
  | str s =>
    intro w fw rest other _ _ same
    have mark := opening_congr fv fw same
    cases w <;> simp [opening] at mark
    rw [chars, chars] at same
    obtain ⟨rfl, tail⟩ := quoted_append_inj same
    exact ⟨rfl, tail⟩
  | arr items ih =>
    intro w fw rest other _ _ same
    have mark := opening_congr fv fw same
    cases w <;> simp [opening] at mark
    rw [chars, chars] at same
    obtain ⟨rfl, tail⟩ := legible_items (fun v hv => ih v hv (allFinite_iff.mp fv v hv)) fv fw
      (List.cons.inj same).2
    exact ⟨rfl, tail⟩
  | obj members ih =>
    intro w fw rest other _ _ same
    have mark := opening_congr fv fw same
    cases w <;> simp [opening] at mark
    rw [chars, chars] at same
    obtain ⟨rfl, tail⟩ := legible_members (fun m hm => ih m hm (membersFinite_iff.mp fv m hm)) fw
      (List.cons.inj same).2
    exact ⟨rfl, tail⟩
  | _ => exact legible_word rfl fv

/-- A text tells its value. -/
theorem text_inj {v w : Json} (fv : v.IsFinite) (fw : w.IsFinite) : v.text = w.text ↔ v = w := by
  constructor
  · intro same
    have chars := String.ofList_injective same
    exact (legible_of_finite fv w fw [] [] (by rintro c ⟨⟩) (by rintro c ⟨⟩) (by rw [chars])).1
  · rintro rfl
    rfl

end EntityFeed.Json
