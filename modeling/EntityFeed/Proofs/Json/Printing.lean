import EntityFeed.Proofs.Json.Quotation
import EntityFeed.Proofs.Text.Runs

/-! The tokens that are read from a printed value: they are those of the value, unless it has a number
whose text does not tell it exactly. -/
namespace EntityFeed.Json

section Words

variable {cs rest : List Char} {v : Json}

/-- Whether what follows a word is seen to be no part of it. -/
def Apart (rest : List Char) : Prop := ∀ c ∈ rest.head?, inWord c = false

theorem span_of_apart (inside : ∀ c ∈ cs, inWord c = true) (apart : Apart rest) :
    (cs ++ rest).takeWhile inWord = cs ∧ (cs ++ rest).dropWhile inWord = rest :=
  Text.span_of_all rest inside apart

theorem of_inWord {c : Char} (h : inWord c = true) : isSpace c = false ∧ c ≠ '"' ∧ mark? c = none := by
  have other {x : Char} (hx : inWord x = false) : c ≠ x := by
    rintro rfl
    rw [hx] at h
    cases h
  refine ⟨?_, other (by decide), ?_⟩
  · simp [isSpace, other (x := ' ') (by decide), other (x := '\t') (by decide),
      other (x := '\n') (by decide), other (x := '\r') (by decide)]
  · unfold mark?
    split <;> first | exact absurd rfl (other (by decide)) | rfl

theorem tokens?_word (some_ : cs ≠ []) (inside : ∀ c ∈ cs, inWord c = true)
    (word : word? cs = some (.ok v)) (apart : Apart rest) :
    tokens? (cs ++ rest) = (tokens? rest).map (.scalar (.ok v) :: ·) := by
  cases cs with
  | nil => exact absurd rfl some_
  | cons c cs =>
    obtain ⟨space, quote, mark⟩ := of_inWord (inside c List.mem_cons_self)
    have within : ∀ x ∈ cs, inWord x = true := fun x hx => inside x (List.mem_cons_of_mem c hx)
    obtain ⟨taken, dropped⟩ := span_of_apart within apart
    rw [List.cons_append, tokens?, space, if_neg Bool.false_ne_true, if_neg quote, mark]
    simp only [inside c List.mem_cons_self, if_true, taken, dropped, word, Option.map_eq_bind]
    rfl

theorem tokens?_mark {c : Char} {m : Mark} (h : mark? c = some m) (rest : List Char) :
    tokens? (c :: rest) = (tokens? rest).map (.mark m :: ·) := by
  have apart : isSpace c = false ∧ c ≠ '"' := by
    unfold mark? at h
    split at h <;> first | decide | cases h
  rw [tokens?, apart.1, if_neg Bool.false_ne_true, if_neg apart.2, h]

end Words

section Integers

theorem digits?_of_isDigit {cs : List Char} (some_ : cs ≠ []) (all : ∀ c ∈ cs, c.isDigit = true) :
    digits? cs = some (cs.map fun c => c.toNat - 48) := by
  rw [digits?, if_neg (by simpa using some_)]
  clear some_
  induction cs with
  | nil => rfl
  | cons c rest ih =>
    have digits := ih fun x hx => all x (List.mem_cons_of_mem c hx)
    rw [List.mapM_cons, if_pos (all c List.mem_cons_self), digits]
    rfl

theorem takeWhile_digits {cs : List Char} {p : Char → Bool} (all : ∀ c ∈ cs, c.isDigit = true)
    (h : ∀ c : Char, c.isDigit = true → p c = true) : cs.takeWhile p = cs ∧ cs.dropWhile p = [] :=
  ⟨List.takeWhile_eq_self_iff.mpr fun c hc => h c (all c hc),
    List.dropWhile_eq_nil_iff.mpr fun c hc => h c (all c hc)⟩

/-- Digits with no needless zero in front are a literal, with a sign or without. -/
theorem read?_of_isDigit {cs : List Char} (some_ : cs ≠ []) (all : ∀ c ∈ cs, c.isDigit = true)
    (plain : cs.length = 1 ∨ cs.head? ≠ some '0') :
    Literal.read? cs = some ⟨false, cs.map fun c => c.toNat - 48, none, none⟩ ∧
      Literal.read? ('-' :: cs) = some ⟨true, cs.map fun c => c.toNat - 48, none, none⟩ := by
  have whole := digits?_of_isDigit some_ all
  have mantissa : cs.takeWhile (fun c => !(c == 'e' || c == 'E')) = cs ∧
      cs.dropWhile (fun c => !(c == 'e' || c == 'E')) = [] :=
    takeWhile_digits all fun c hc => by
      simp [Text.ne_of_isDigit hc (x := 'e') (by decide),
        Text.ne_of_isDigit hc (x := 'E') (by decide)]
  have point : cs.takeWhile (· != '.') = cs ∧ cs.dropWhile (· != '.') = [] :=
    takeWhile_digits all fun c hc => by simp [Text.ne_of_isDigit hc (x := '.') (by decide)]
  have lead : (cs.map fun c => c.toNat - 48).length = 1 ∨
      (cs.map fun c => c.toNat - 48).head? ≠ some 0 := by
    refine plain.imp (by simp) fun h zero => ?_
    cases cs with
    | nil => exact some_ rfl
    | cons c rest =>
      have value : c.toNat - 48 = 0 := by simpa using zero
      have low : 48 ≤ c.toNat := (Char.isDigit_iff_toNat.mp (all c List.mem_cons_self)).1
      have code : c.toNat = '0'.toNat := by
        change c.toNat = 48
        omega
      exact h (congrArg some (Char.toNat_inj.mp code))
  have guarded : (guard ((cs.map fun c => c.toNat - 48).length = 1 ∨
      (cs.map fun c => c.toNat - 48).head? ≠ some 0) : Option Unit) = some () :=
    if_pos lead
  constructor
  · have sign : cs.head? ≠ some '-' := fun h =>
      absurd (all '-' (List.mem_of_mem_head? h)) (by decide)
    unfold Literal.read?
    split
    rename_i negative unsigned found
    have signless : negative = false ∧ unsigned = cs := by
      split at found
      · exact absurd rfl sign
      · cases found
        exact ⟨rfl, rfl⟩
    obtain ⟨rfl, rfl⟩ := signless
    dsimp only
    rw [mantissa.1, mantissa.2, point.1, point.2, whole]
    exact congrArg (Option.bind · fun _ => some (Literal.mk _ _ _ _)) guarded
  · unfold Literal.read?
    split
    rename_i negative unsigned found
    cases found
    dsimp only
    rw [mantissa.1, mantissa.2, point.1, point.2, whole]
    exact congrArg (Option.bind · fun _ => some (Literal.mk _ _ _ _)) guarded

theorem ofDigits_toDigits (n : Nat) : ofDigits ((Nat.toDigits 10 n).map fun c => c.toNat - 48) = n := by
  rw [ofDigits, List.foldl_map]
  exact Nat.ofDigitChars_ten_toDigits

theorem inWord_of_isDigit {c : Char} (h : c.isDigit = true) : inWord c = true := by
  simp [inWord, Char.isAlphanum, h]

theorem word?_of_read? {cs : List Char} {l : Literal} {v : Json}
    (number : ∀ c ∈ cs.head?, c = '-' ∨ c.isDigit = true)
    (read : Literal.read? cs = some l) (value : l.value? = some v) : word? cs = some (.ok v) := by
  have other {name : String} {c : Char} (first : name.toList.head? = some c)
      (letter : ¬(c = '-' ∨ c.isDigit = true)) : cs ≠ name.toList := by
    rintro rfl
    exact letter (number c first)
  rw [word?, if_neg (other (c := 'n') (by decide) (by decide)),
    if_neg (other (c := 't') (by decide) (by decide)),
    if_neg (other (c := 'f') (by decide) (by decide)), read]
  simp only [Option.bind_eq_bind, Option.bind_some, value]
  rfl

/-- An integer that fits 64 bits, with or without a sign, is read as itself. -/
theorem word?_toString {n : Int} (low : -(Nat.pow 2 63 : Int) ≤ n)
    (high : n < (Nat.pow 2 64 : Int)) :
    (toString n).toList ≠ [] ∧ (∀ c ∈ (toString n).toList, inWord c = true) ∧
      word? (toString n).toList = some (.ok (.int n)) := by
  have digits := Text.isDigit_toDigits
  have plain (m : Nat) : (Nat.toDigits 10 m).length = 1 ∨ (Nat.toDigits 10 m).head? ≠ some '0' := by
    rcases Nat.eq_zero_or_pos m with rfl | positive
    · exact .inl rfl
    · exact .inr (Text.head?_toDigits positive)
  have read (m : Nat) := read?_of_isDigit Nat.toDigits_ne_nil (digits m) (plain m)
  cases n with
  | ofNat m =>
    rw [Text.toList_ofNat]
    refine ⟨Nat.toDigits_ne_nil, fun c hc => inWord_of_isDigit (digits m c hc),
      word?_of_read? ?_ (read m).1 ?_⟩
    · exact fun c hc => .inr (digits m c (List.mem_of_mem_head? hc))
    · have below : m < Nat.pow 2 64 := Int.ofNat_lt.mp high
      simp [Literal.value?, ofDigits_toDigits, below]
  | negSucc m =>
    rw [Text.toList_negSucc]
    refine ⟨List.cons_ne_nil _ _, ?_, word?_of_read? ?_ (read (m + 1)).2 ?_⟩
    · exact List.forall_mem_cons.mpr
        ⟨by decide, fun c hc => inWord_of_isDigit (digits (m + 1) c hc)⟩
    · rintro c ⟨⟩
      exact .inl rfl
    · have within : m + 1 ≤ Nat.pow 2 63 := by
        rw [Int.negSucc_eq] at low
        omega
      simp [Literal.value?, ofDigits_toDigits, within]
      omega

end Integers

mutual

/-- That a value has no number whose text may be read as another one. -/
def Plain : Json → Prop
  | .int n => -(Nat.pow 2 63 : Int) ≤ n ∧ n < (Nat.pow 2 64 : Int)
  | .float _ => False
  | .arr items => AllPlain items
  | .obj members => MembersPlain members
  | _ => True

def AllPlain : List Json → Prop
  | [] => True
  | v :: rest => Plain v ∧ AllPlain rest

def MembersPlain : Members → Prop
  | [] => True
  | (_, v) :: rest => Plain v ∧ MembersPlain rest

end

mutual

/-- The tokens that a value is printed in. -/
def tokens : Json → List Token
  | .str s => [.str (.ok s)]
  | .arr items => .mark .openArray :: itemTokens items
  | .obj members => .mark .openObject :: memberTokens members
  | v => [.scalar (.ok v)]

def itemTokens : List Json → List Token
  | [] => [.mark .closeArray]
  | [v] => tokens v ++ [.mark .closeArray]
  | v :: rest => tokens v ++ .mark .comma :: itemTokens rest

def memberTokens : Members → List Token
  | [] => [.mark .closeObject]
  | [(k, v)] => .str (.ok k) :: .mark .colon :: tokens v ++ [.mark .closeObject]
  | (k, v) :: rest => .str (.ok k) :: .mark .colon :: tokens v ++ .mark .comma :: memberTokens rest

end

theorem itemTokens_cons (v w : Json) (more : List Json) :
    itemTokens (v :: w :: more) = tokens v ++ .mark .comma :: itemTokens (w :: more) :=
  itemTokens.eq_3 v (w :: more) (by rintro ⟨⟩)

theorem memberTokens_cons (k : String) (v : Json) (w : String × Json) (more : Members) :
    memberTokens ((k, v) :: w :: more) =
      .str (.ok k) :: .mark .colon :: tokens v ++ .mark .comma :: memberTokens (w :: more) :=
  memberTokens.eq_3 k v (w :: more) (by rintro ⟨⟩)

mutual

theorem tokens?_chars : (v : Json) → v.Plain → {rest : List Char} → Apart rest →
    tokens? (chars v ++ rest) = (tokens? rest).map (tokens v ++ ·)
  | .null, _, rest, apart => tokens?_word (by decide) (List.all_eq_true.mp rfl) rfl apart
  | .bool true, _, rest, apart => tokens?_word (by decide) (List.all_eq_true.mp rfl) rfl apart
  | .bool false, _, rest, apart => tokens?_word (by decide) (List.all_eq_true.mp rfl) rfl apart
  | .int n, plain, rest, apart => by
    obtain ⟨some_, inside, word⟩ := word?_toString plain.1 plain.2
    exact tokens?_word some_ inside word apart
  | .float _, plain, _, _ => plain.elim
  | .str s, _, rest, _ => tokens?_quoted s rest
  | .arr items, plain, rest, _ => by
    rw [chars, List.cons_append, tokens?_mark rfl, tokens?_itemChars items plain, Option.map_map]
    rfl
  | .obj members, plain, rest, _ => by
    rw [chars, List.cons_append, tokens?_mark rfl, tokens?_memberChars members plain, Option.map_map]
    rfl

theorem tokens?_itemChars : (items : List Json) → AllPlain items → {rest : List Char} →
    tokens? (itemChars items ++ rest) = (tokens? rest).map (itemTokens items ++ ·)
  | [], _, rest => tokens?_mark rfl rest
  | [v], plain, rest => by
    have apart : Apart (']' :: rest) := by rintro c ⟨⟩; decide
    rw [itemChars, List.append_assoc, List.singleton_append, tokens?_chars v plain.1 apart,
      tokens?_mark rfl, Option.map_map, itemTokens]
    simp [Function.comp_def]
  | v :: w :: more, plain, rest => by
    have apart : Apart (',' :: (itemChars (w :: more) ++ rest)) := by rintro c ⟨⟩; decide
    rw [itemChars, List.append_assoc, List.cons_append, tokens?_chars v plain.1 apart,
      tokens?_mark rfl, tokens?_itemChars (w :: more) plain.2, Option.map_map, Option.map_map,
      itemTokens_cons]
    · simp [Function.comp_def]
    · rintro ⟨⟩

theorem tokens?_memberChars : (members : Members) → MembersPlain members → {rest : List Char} →
    tokens? (memberChars members ++ rest) = (tokens? rest).map (memberTokens members ++ ·)
  | [], _, rest => tokens?_mark rfl rest
  | [(k, v)], plain, rest => by
    have apart : Apart ('}' :: rest) := by rintro c ⟨⟩; decide
    have text : memberChars [(k, v)] ++ rest = quoted k ++ ':' :: (chars v ++ '}' :: rest) := by
      simp [memberChars]
    rw [text, tokens?_quoted, tokens?_mark rfl, tokens?_chars v plain.1 apart, tokens?_mark rfl,
      Option.map_map, Option.map_map, Option.map_map, memberTokens]
    simp [Function.comp_def]
  | (k, v) :: w :: more, plain, rest => by
    have apart : Apart (',' :: (memberChars (w :: more) ++ rest)) := by rintro c ⟨⟩; decide
    have text : memberChars ((k, v) :: w :: more) ++ rest =
        quoted k ++ ':' :: (chars v ++ ',' :: (memberChars (w :: more) ++ rest)) := by
      simp [memberChars]
    rw [text, tokens?_quoted, tokens?_mark rfl, tokens?_chars v plain.1 apart, tokens?_mark rfl,
      tokens?_memberChars (w :: more) plain.2, Option.map_map, Option.map_map, Option.map_map,
      Option.map_map, memberTokens_cons]
    simp [Function.comp_def]

end

end EntityFeed.Json
