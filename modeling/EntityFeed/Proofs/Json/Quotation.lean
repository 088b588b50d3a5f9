import EntityFeed.Json.Printer
import EntityFeed.Json.Reader

/-! A string that is printed in JSON text is read back, whatever its characters are. -/
namespace EntityFeed.Json

/-- A digit of a number in an escape is neither a quote nor a backslash. -/
theorem isAlphanum_splits {c : Char} (h : c.isAlphanum) : c ≠ '"' ∧ c ≠ '\\' := by
  constructor
  · rintro rfl
    exact absurd h (by decide)
  · rintro rfl
    exact absurd h (by decide)

theorem splitQuote_plain {c : Char} (quote : c ≠ '"') (backslash : c ≠ '\\') (rest : List Char) :
    splitQuote (c :: rest) = (splitQuote rest).map fun (body, after) => (c :: body, after) :=
  splitQuote.eq_4 c rest quote fun _ _ same _ => backslash same

/-- A unit that is no surrogate stands for a character by itself. -/
theorem joinUnits_code {n : Nat} (h : n < 0xD800) (rest : List StringUnit) :
    joinUnits (.code n :: rest) = (joinUnits rest).map (Char.ofNat n :: ·) := by
  have low : ¬(0xDC00 ≤ n ∧ n ≤ 0xDFFF) := by omega
  have high : ¬(0xD800 ≤ n ∧ n ≤ 0xDBFF) := by omega
  rcases rest with _ | ⟨_ | _, rest⟩
  · rw [joinUnits.eq_4 _ _ (by rintro _ _ ⟨⟩), if_neg low, if_neg high]
    rfl
  · rw [joinUnits.eq_4 _ _ (by rintro _ _ ⟨⟩), if_neg low, if_neg high]
    rfl
  · rw [joinUnits.eq_3, if_neg low, if_neg high]
    rfl

/-- How a character is printed in a string, and the unit that is read there. -/
inductive Escapes (c : Char) : List Char → StringUnit → Prop
  | short {mark : Char} (named : mark ≠ 'u') (stands : escaped? mark = some c) :
    Escapes c ['\\', mark] (.char c)
  | code {a b : Char} (control : c.toNat < 0x20) (hex : fourHex? ['0', '0', a, b] = some c.toNat)
    (digits : a.isAlphanum ∧ b.isAlphanum) : Escapes c ['\\', 'u', '0', '0', a, b] (.code c.toNat)
  | plain (quote : c ≠ '"') (backslash : c ≠ '\\') (shown : ¬c.toNat < 0x20) :
    Escapes c [c] (.char c)

theorem fourHex?_control : ∀ n, n < 0x20 →
    fourHex? ['0', '0', Nat.digitChar (n / 16), Nat.digitChar (n % 16)] = some n ∧
      (Nat.digitChar (n / 16)).isAlphanum ∧ (Nat.digitChar (n % 16)).isAlphanum := by
  decide

theorem exists_escapes (c : Char) : ∃ u, Escapes c (escapeChar c) u := by
  unfold escapeChar
  repeat' split
  all_goals first
    | (subst c; exact ⟨_, .short (by decide) rfl⟩)
    | exact ⟨_, .code ‹_› (fourHex?_control _ ‹_›).1 (fourHex?_control _ ‹_›).2⟩
    | exact ⟨_, .plain ‹_› ‹_› ‹_›⟩

namespace Escapes

variable {c : Char} {cs : List Char} {u : StringUnit}

theorem splitQuote_append (h : Escapes c cs u) (rest : List Char) :
    splitQuote (cs ++ rest) = (splitQuote rest).map fun (body, after) => (cs ++ body, after) := by
  cases h with
  | short => simp [splitQuote]
  | code _ _ digits =>
    obtain ⟨ha, ha'⟩ := isAlphanum_splits digits.1
    obtain ⟨hb, hb'⟩ := isAlphanum_splits digits.2
    simp [splitQuote, splitQuote_plain ha ha', splitQuote_plain hb hb', Function.comp_def]
  | plain quote backslash _ => exact splitQuote_plain quote backslash rest

theorem units?_append (h : Escapes c cs u) (rest : List Char) :
    units? (cs ++ rest) = (units? rest).map (u :: ·) := by
  cases h with
  | @short mark named stands =>
    have apart := units?.eq_3 mark rest fun _ _ _ _ _ same _ => named same
    rw [List.cons_append, List.cons_append, List.nil_append, apart, stands]
    cases units? rest <;> rfl
  | code _ hex =>
    simp only [List.cons_append, List.nil_append, units?, hex]
    cases units? rest <;> rfl
  | plain _ backslash shown =>
    have apart := units?.eq_4 c rest (fun _ _ _ _ _ same _ => backslash same)
      fun _ _ same _ => backslash same
    rw [List.cons_append, List.nil_append, apart, if_neg (by simp [backslash, shown])]

theorem joinUnits_cons (h : Escapes c cs u) (rest : List StringUnit) :
    joinUnits (u :: rest) = (joinUnits rest).map (c :: ·) := by
  cases h with
  | code control =>
    rw [joinUnits_code (Nat.lt_trans control (by decide)), Char.ofNat_toNat]
  | _ => rfl

end Escapes

variable (cs : List Char)

/-- The quote at the end of a string is the first one that is not part of an escape. -/
theorem splitQuote_flatMap (after : List Char) :
    splitQuote (cs.flatMap escapeChar ++ '"' :: after) = some (cs.flatMap escapeChar, after) := by
  induction cs with
  | nil => rfl
  | cons c rest ih =>
    obtain ⟨u, escapes⟩ := exists_escapes c
    rw [List.flatMap_cons, List.append_assoc, escapes.splitQuote_append, ih]
    rfl

theorem exists_units :
    ∃ units, units? (cs.flatMap escapeChar) = some units ∧ joinUnits units = .ok cs := by
  induction cs with
  | nil => exact ⟨[], rfl, rfl⟩
  | cons c rest ih =>
    obtain ⟨u, escapes⟩ := exists_escapes c
    obtain ⟨units, printed, joined⟩ := ih
    refine ⟨u :: units, ?_, ?_⟩
    · rw [List.flatMap_cons, escapes.units?_append, printed]
      rfl
    · rw [escapes.joinUnits_cons, joined]
      rfl

/-- A printed string is one token, which stands for the string. -/
theorem tokens?_quoted (s : String) (rest : List Char) :
    tokens? (quoted s ++ rest) = (tokens? rest).map (.str (.ok s) :: ·) := by
  obtain ⟨units, printed, joined⟩ := exists_units s.toList
  have text : quoted s ++ rest = '"' :: (s.toList.flatMap escapeChar ++ '"' :: rest) := by
    simp [quoted]
  have split := splitQuote_flatMap s.toList rest
  rw [text, tokens?, if_neg (by decide), if_pos rfl]
  split
  · rename_i none
    rw [split] at none
    cases none
  · rename_i body after found
    rw [split] at found
    cases found
    have read : (joinUnits units).map String.ofList = .ok s := by
      rw [joined, Except.map, String.ofList_toList]
    simp only [printed, Option.bind_eq_bind, Option.bind_some, read, Option.map_eq_bind]
    rfl

end EntityFeed.Json
