import EntityFeed.Proofs.Sql.Template
import EntityFeed.Proofs.Text.Hex

/-! Replacing a token in a text that was put together from parts. The digits of a token are hexadecimal
and the marks around them are not, so besides the marks a token shares nothing with another token, with
a placeholder or with a quoted literal. What is replaced is therefore what was put in, as long as the
token is not in the texts around the places, with the marks of other tokens beside them. -/
namespace EntityFeed

theorem prefix_within_or_past {α : Type} {p y x : List α} (h : p <+: y ++ x) :
    p <+: y ∨ ∃ r, r ≠ [] ∧ p = y ++ r ∧ r <+: x := by
  obtain inside | ⟨r, rfl⟩ := List.prefix_or_prefix_of_prefix h (List.prefix_append y x)
  · exact .inl inside
  · by_cases empty : r = []
    · exact .inl (by simp [empty])
    · exact .inr ⟨r, empty, rfl, (List.prefix_append_right_inj y).mp h⟩

theorem suffix_within_or_past {α : Type} {y a b : List α} (h : y <:+ a ++ b) :
    y <:+ b ∨ ∃ r, r ≠ [] ∧ r <:+ a ∧ y = r ++ b := by
  obtain inside | ⟨r, rfl⟩ := List.suffix_or_suffix_of_suffix h (List.suffix_append a b)
  · exact .inl inside
  · by_cases empty : r = []
    · exact .inl (by simp [empty])
    · exact .inr ⟨r, empty, List.suffix_append_self_iff.mp h, rfl⟩

/-- A pattern does not reach a character that is not in it. -/
theorem prefix_of_notMem {α : Type} {p y z : List α} {c : α} (other : c ∉ p)
    (h : p <+: y ++ c :: z) : p <+: y := by
  obtain inside | ⟨r, ne, rfl, ⟨w, hw⟩⟩ := prefix_within_or_past h
  · exact inside
  · cases r with
    | nil => exact absurd rfl ne
    | cons d r => simp_all

/-- A pattern that starts in a list does not run past a character at its end that is not in it. -/
theorem not_prefix_of_ends {α : Type} {p x y w z : List α} {c : α} (back : x = w ++ [c])
    (other : c ∉ p) (absent : ¬ p <:+: x) (ne : y ≠ []) (behind : y <:+ x) : ¬ p <+: y ++ z := by
  intro h
  have within := behind
  rw [back] at within
  obtain rfl | ⟨y, rfl, -⟩ := List.suffix_concat_iff.mp within
  · exact ne rfl
  · rw [List.append_assoc, List.singleton_append] at h
    exact absent (((prefix_of_notMem other h).trans (List.prefix_append _ _)).isInfix.trans
      behind.isInfix)

theorem not_infix_append {α : Type} {p x z : List α}
    (nowhere : ∀ y, y ≠ [] → y <:+ x → ¬ p <+: y ++ z) (behind : ¬ p <:+: z) :
    ¬ p <:+: x ++ z := by
  intro h
  obtain ⟨w, starts, within⟩ := List.infix_iff_prefix_suffix.mp h
  obtain inside | ⟨y, ne, past, rfl⟩ := suffix_within_or_past within
  · exact behind (starts.isInfix.trans inside.isInfix)
  · exact nowhere y ne past starts

namespace Text

variable {pattern value : List Char}

theorem replaceAll_append {x z : List Char}
    (nowhere : ∀ y, y ≠ [] → y <:+ x → ¬ pattern <+: y ++ z) :
    replaceAll pattern value (x ++ z) = x ++ replaceAll pattern value z := by
  induction x with
  | nil => rfl
  | cons c x ih =>
    have here : ¬ pattern <+: c :: (x ++ z) := nowhere (c :: x) (by simp) (List.suffix_refl _)
    rw [List.cons_append, replaceAll, if_neg (by simpa using here),
      ih fun y ne behind => nowhere y ne (behind.trans (List.suffix_cons c x)), List.cons_append]

theorem replaceAll_pattern_append (ne : pattern ≠ []) (z : List Char) :
    replaceAll pattern value (pattern ++ z) = value ++ replaceAll pattern value z := by
  cases pattern with
  | nil => exact absurd rfl ne
  | cons c p =>
    rw [List.cons_append, replaceAll, if_pos (by simp)]
    simp

end Text

namespace Sql
namespace Token

/-- A token up to the marks at its end. -/
def stem (t : Token) : List Char := '_' :: '_' :: 'q' :: 'b' :: '_' :: t.digits

theorem toList_text (t : Token) : t.text.toList = t.stem ++ ['_', '_'] := by
  have front : "__qb_".toList = ['_', '_', 'q', 'b', '_'] := by simp
  have back : "__".toList = ['_', '_'] := by simp
  unfold text stem
  simp only [String.toList_ofList, front, back, List.cons_append, List.nil_append]

theorem toList_text_ne_nil (t : Token) : t.text.toList ≠ [] := by
  simp [toList_text, stem, -String.toList_eq_nil_iff]

theorem stem_prefix_text (t : Token) : t.stem <+: t.text.toList := by
  rw [toList_text]
  exact List.prefix_append _ _

theorem digits_infix_text (t : Token) : t.digits <:+: t.text.toList := by
  have within : t.digits <:+ t.stem := List.suffix_append ['_', '_', 'q', 'b', '_'] t.digits
  exact within.isInfix.trans t.stem_prefix_text.isInfix

theorem length_digits (t : Token) : t.digits.length = 32 := by
  rw [digits, Text.length_hexOfBytes, t.id.length_bytes]

theorem digits_ne_nil (t : Token) : t.digits ≠ [] :=
  List.ne_nil_of_length_pos (by simp [length_digits])

theorem digits_inj {t u : Token} (h : t.digits = u.digits) : t = u := by
  have same : some t.id.bytes = some u.id.bytes := by
    rw [← Text.bytesOfHex?_hexOfBytes, ← Text.bytesOfHex?_hexOfBytes]
    exact congrArg Text.bytesOfHex? h
  obtain ⟨⟨_, _⟩⟩ := t
  obtain ⟨⟨_, _⟩⟩ := u
  simpa using same

theorem notMem_digits (t : Token) {c : Char} (other : ∀ n : Fin 16, c ≠ Text.hexDigit n) :
    c ∉ t.digits :=
  Text.notMem_hexOfBytes other t.id.bytes

theorem underscore_notMem_digits (t : Token) : '_' ∉ t.digits := t.notMem_digits (by decide)

theorem not_digits_prefix_underscore (t : Token) {z : List Char} : ¬ t.digits <+: '_' :: z := by
  intro h
  have empty : t.digits <+: [] := prefix_of_notMem t.underscore_notMem_digits (y := []) h
  exact t.digits_ne_nil (List.eq_nil_of_prefix_nil empty)

theorem notMem_stem (t : Token) {c : Char} (mark : c ∉ ['_', 'q', 'b'])
    (other : ∀ n : Fin 16, c ≠ Text.hexDigit n) : c ∉ t.stem := by
  have := t.notMem_digits other
  simp_all [stem]

theorem notMem_text (t : Token) {c : Char} (mark : c ∉ ['_', 'q', 'b'])
    (other : ∀ n : Fin 16, c ≠ Text.hexDigit n) : c ∉ t.text.toList := by
  have := t.notMem_stem mark other
  simp_all [toList_text]

theorem eq_of_stem_starts {t u : Token} {z : List Char} (h : t.stem <+: u.text.toList ++ z) :
    t = u := by
  have : t.digits <+: u.digits ++ '_' :: '_' :: z := by
    simpa [toList_text, stem] using h
  have inside := prefix_of_notMem t.underscore_notMem_digits this
  exact digits_inj (inside.eq_of_length (by simp [length_digits]))

/-- A token in front of a text does not run into it. -/
def Enters (t : Token) (x : String) : Prop :=
  ∀ y z, y ≠ [] → t.stem <+: y ++ (x.toList ++ z) → t.stem <+: y

/-- A token that starts inside a text starts with the marks at the end of another one. -/
def Leaves (t : Token) (x : String) : Prop :=
  ∀ y z, y ≠ [] → y <:+ x.toList → t.text.toList <+: y ++ z → y <:+ ['_', '_']

theorem enters_of_notMem {t : Token} {x : String} {c : Char} {w : List Char} (hx : x.toList = c :: w)
    (mark : c ∉ ['_', 'q', 'b']) (other : ∀ n : Fin 16, c ≠ Text.hexDigit n) : Enters t x := by
  intro y z _ h
  rw [hx, List.cons_append] at h
  exact prefix_of_notMem (t.notMem_stem mark other) h

/-- Of a token without the marks at its end only the first two characters are marks next to each
other. -/
theorem enters_of_marks {t : Token} {x : String} {w : List Char} (hx : x.toList = '_' :: '_' :: w) :
    Enters t x := by
  intro y z ne h
  obtain inside | ⟨r, rne, split, ahead⟩ := prefix_within_or_past h
  · exact inside
  · exfalso
    obtain ⟨c, y, rfl⟩ := List.exists_cons_of_ne_nil ne
    obtain ⟨-, split⟩ := List.cons_eq_cons.mp split
    have behind : r <:+ '_' :: 'q' :: 'b' :: '_' :: t.digits := split ▸ List.suffix_append y r
    obtain ⟨d, r, rfl⟩ := List.exists_cons_of_ne_nil rne
    rw [hx] at ahead
    simp only [List.cons_append, List.cons_prefix_cons] at ahead
    obtain ⟨rfl, ahead⟩ := ahead
    simp only [List.suffix_cons_iff, List.cons.injEq] at behind
    obtain ⟨-, rfl⟩ | ⟨bad, -⟩ | ⟨bad, -⟩ | ⟨-, rfl⟩ | within := behind
    · simp [List.cons_prefix_cons] at ahead
    · exact absurd bad (by decide)
    · exact absurd bad (by decide)
    · exact t.not_digits_prefix_underscore ahead
    · exact t.underscore_notMem_digits (within.mem (.head _))

theorem enters_text (t u : Token) : Enters t u.text :=
  enters_of_marks (by rw [toList_text, stem]; rfl)

theorem leaves_of_notMem {t : Token} {x : String} (other : '_' ∉ x.toList) : Leaves t x := by
  intro y z ne behind h
  obtain ⟨c, y, rfl⟩ := List.exists_cons_of_ne_nil ne
  have starts := t.stem_prefix_text.trans h
  simp only [stem, List.cons_append, List.cons_prefix_cons] at starts
  exact absurd (behind.mem (starts.1 ▸ .head _)) other

theorem leaves_text {t u : Token} (different : t ≠ u) : Leaves t u.text := by
  intro y z ne behind h
  replace h := t.stem_prefix_text.trans h
  have notDigit {r w : List Char} (ne : r ≠ []) (within : r <:+ u.digits) :
      ¬ '_' :: w <+: r ++ ('_' :: '_' :: z) := by
    obtain ⟨c, r, rfl⟩ := List.exists_cons_of_ne_nil ne
    rw [List.cons_append, List.cons_prefix_cons]
    rintro ⟨rfl, -⟩
    exact u.underscore_notMem_digits (within.mem (.head _))
  rw [toList_text, stem] at behind
  simp only [List.cons_append, List.suffix_cons_iff] at behind
  obtain rfl | rfl | rfl | rfl | rfl | behind := behind
  · exact absurd (eq_of_stem_starts (by simpa [toList_text, stem] using h)) different
  · simp [stem, List.cons_prefix_cons] at h
  · simp [stem, List.cons_prefix_cons] at h
  · simp [stem, List.cons_prefix_cons] at h
  · simp only [stem, List.cons_append, List.append_assoc, List.cons_prefix_cons, List.nil_append,
      true_and] at h
    exact absurd h (notDigit u.digits_ne_nil (List.suffix_refl _))
  · obtain marks | ⟨r, rne, within, rfl⟩ := suffix_within_or_past behind
    · exact marks
    · simp only [List.append_assoc, List.cons_append, List.nil_append] at h
      exact absurd h (notDigit rne within)

theorem toList_quoteLiteral (value : String) :
    (quoteLiteral value).toList = '\'' :: (doubled '\'' value.toList ++ ['\'']) := by
  simp [quoteLiteral, delimited]

theorem enters_quoteLiteral (t : Token) (value : String) : Enters t (quoteLiteral value) :=
  enters_of_notMem (toList_quoteLiteral value) (by decide) (by decide)

/-- A literal ends in a character that no token has, so what starts in it ends in it. -/
theorem leaves_quoteLiteral {t : Token} {value : String}
    (absent : ¬ t.text.toList <:+: (quoteLiteral value).toList) : Leaves t (quoteLiteral value) := by
  intro y z ne behind h
  have none : '\'' ∉ t.text.toList := t.notMem_text (by decide) (by decide)
  exact absurd h (not_prefix_of_ends (w := '\'' :: doubled '\'' value.toList)
    (toList_quoteLiteral value) none absent ne behind)

theorem toList_placeholder (n : Nat) :
    ("$" ++ toString n).toList = '$' :: Nat.toDigits 10 n := by
  simp [Nat.toString_eq_repr, Nat.toList_repr]

theorem enters_placeholder (t : Token) (n : Nat) : Enters t ("$" ++ toString n) :=
  enters_of_notMem (toList_placeholder n) (by decide) (by decide)

theorem leaves_placeholder (t : Token) (n : Nat) : Leaves t ("$" ++ toString n) := by
  apply leaves_of_notMem
  rw [toList_placeholder]
  simp [Nat.underscore_not_in_toDigits]

end Token

section Scan

variable {κ : Type} {t : Token}

/-- The marks that tokens begin and end with. They stand in the gaps of a text whose places are open. -/
def gap : String := "__"

theorem toList_gap : gap.toList = ['_', '_'] := by simp [gap]

theorem Token.enters_gap (t : Token) : t.Enters gap := enters_of_marks toList_gap

/-- A token that starts in front of what it does not run into ends with it or in its first two
characters. -/
theorem Token.Enters.prefix_gap {x : String} (enters : t.Enters x) {y z : List Char} (ne : y ≠ [])
    (h : t.text.toList <+: y ++ (x.toList ++ z)) : t.text.toList <+: y ++ gap.toList := by
  obtain ⟨w, rfl⟩ := enters y z ne (t.stem_prefix_text.trans h)
  rw [toList_text, List.append_assoc, List.prefix_append_right_inj] at h
  rw [toList_text, toList_gap, List.append_assoc, List.prefix_append_right_inj]
  match w with
  | [] => exact List.prefix_refl _
  | [c] =>
    have first : '_' = c := (List.cons_prefix_cons.mp h).1
    simp [← first]
  | c :: d :: w =>
    simp only [List.cons_append, List.cons_prefix_cons] at h
    simp [← h.1, ← h.2.1]

/-- What a token that starts in front of a text covers, it covers with gaps for the places as well. -/
theorem text_prefix_gaps {spelled : κ → String} {parts : List (Part κ)}
    (enters : ∀ k, .value k ∈ parts → t.Enters (spelled k)) {y : List Char} (ne : y ≠ [])
    (h : t.text.toList <+: y ++ (fill spelled parts).toList) :
    t.text.toList <+: y ++ (fill (fun _ => gap) parts).toList := by
  induction parts generalizing y with
  | nil => simpa using h
  | cons p rest ih =>
    have later : ∀ k, .value k ∈ rest → t.Enters (spelled k) := fun k hk => enters k (.tail _ hk)
    cases p with
    | text s =>
      rw [fill_text, String.toList_append, ← List.append_assoc] at h ⊢
      exact ih later (by simp [ne]) h
    | value k =>
      rw [fill_value, String.toList_append] at h ⊢
      rw [← List.append_assoc]
      exact ((enters k (.head _)).prefix_gap ne h).trans (List.prefix_append _ _)

/-- That a token is nowhere in a text with gaps for the places. -/
def Token.Absent (t : Token) (parts : List (Part κ)) : Prop :=
  ¬ t.text.toList <:+: (fill (fun _ => gap) parts).toList

theorem Token.Absent.tail {p : Part κ} {parts : List (Part κ)} (absent : t.Absent (p :: parts)) :
    t.Absent parts := by
  refine fun within => absent (within.trans ?_)
  cases p <;> simp only [fill_text, fill_value, String.toList_append]
  all_goals exact (List.suffix_append _ _).isInfix

theorem Token.Absent.not_starts_in_text {s : String} {parts : List (Part κ)} {spelled : κ → String}
    (absent : t.Absent (.text s :: parts)) (enters : ∀ k, .value k ∈ parts → t.Enters (spelled k))
    (y : List Char) (ne : y ≠ []) (behind : y <:+ s.toList) :
    ¬ t.text.toList <+: y ++ (fill spelled parts).toList := by
  refine fun h => absent ((text_prefix_gaps enters ne h).isInfix.trans ?_)
  rw [fill_text, String.toList_append]
  exact (List.suffix_append_self_iff.mpr behind).isInfix

theorem Token.Absent.not_starts_in_value {k : κ} {x : String} {parts : List (Part κ)}
    {spelled : κ → String} (absent : t.Absent (.value k :: parts))
    (enters : ∀ k, .value k ∈ parts → t.Enters (spelled k)) (leaves : t.Leaves x) (y : List Char)
    (ne : y ≠ []) (behind : y <:+ x.toList) :
    ¬ t.text.toList <+: y ++ (fill spelled parts).toList := by
  intro h
  have ends : y <:+ gap.toList := toList_gap ▸ leaves y _ ne behind h
  refine absent ((text_prefix_gaps enters ne h).isInfix.trans ?_)
  rw [fill_value, String.toList_append]
  exact (List.suffix_append_self_iff.mpr ends).isInfix

/-- Replacing a token changes the places where it was put in, and no others. -/
theorem replace_fill {spelled spelled' : κ → String} {value : String} {parts : List (Part κ)}
    (absent : t.Absent parts) (enters : ∀ k, .value k ∈ parts → t.Enters (spelled k))
    (places : ∀ k, .value k ∈ parts →
      spelled k = t.text ∧ spelled' k = value ∨ t.Leaves (spelled k) ∧ spelled' k = spelled k) :
    Text.replace t.text value (fill spelled parts) = fill spelled' parts := by
  apply String.toList_inj.mp
  rw [Text.replace, String.toList_ofList]
  induction parts with
  | nil => simp [Text.replaceAll]
  | cons p rest ih =>
    have later : ∀ k, .value k ∈ rest → t.Enters (spelled k) := fun k hk => enters k (.tail _ hk)
    have behind := ih absent.tail later fun k hk => places k (.tail _ hk)
    cases p with
    | text s =>
      rw [fill_text, fill_text, String.toList_append, String.toList_append,
        Text.replaceAll_append (absent.not_starts_in_text later), behind]
    | value k =>
      rw [fill_value, fill_value, String.toList_append, String.toList_append]
      obtain ⟨here, new⟩ | ⟨leaves, same⟩ := places k (.head _)
      · rw [here, new, Text.replaceAll_pattern_append t.toList_text_ne_nil, behind]
      · rw [same, Text.replaceAll_append (absent.not_starts_in_value later leaves), behind]

/-- A token that is in none of the places is nowhere. -/
theorem not_infix_fill {spelled : κ → String} {parts : List (Part κ)} (absent : t.Absent parts)
    (enters : ∀ k, .value k ∈ parts → t.Enters (spelled k))
    (leaves : ∀ k, .value k ∈ parts → t.Leaves (spelled k)) :
    ¬ t.text.toList <:+: (fill spelled parts).toList := by
  induction parts with
  | nil => simpa [-String.toList_eq_nil_iff] using t.toList_text_ne_nil
  | cons p rest ih =>
    have later : ∀ k, .value k ∈ rest → t.Enters (spelled k) := fun k hk => enters k (.tail _ hk)
    have behind := ih absent.tail later fun k hk => leaves k (.tail _ hk)
    cases p with
    | text s =>
      rw [fill_text, String.toList_append]
      exact not_infix_append (absent.not_starts_in_text later) behind
    | value k =>
      rw [fill_value, String.toList_append]
      exact not_infix_append (absent.not_starts_in_value later (leaves k (.head _))) behind

end Scan

section Digits

variable {κ : Type} {t : Token}

theorem prefix_fill_of_gaps {parts : List (Part κ)} (other : κ → String) {p : List Char}
    (none : '_' ∉ p) (h : p <+: (fill (fun _ => gap) parts).toList) :
    p <+: (fill other parts).toList := by
  induction parts generalizing p with
  | nil => exact h
  | cons part rest ih =>
    cases part with
    | text s =>
      rw [fill_text, String.toList_append] at h ⊢
      obtain inside | ⟨r, -, rfl, ahead⟩ := prefix_within_or_past h
      · exact inside.trans (List.prefix_append _ _)
      · rw [List.mem_append, not_or] at none
        exact (List.prefix_append_right_inj _).mpr (ih none.2 ahead)
    | value k =>
      rw [fill_value, String.toList_append, toList_gap] at h
      exact (prefix_of_notMem none (y := []) h).trans List.nil_prefix

/-- What has no marks in it does not reach from one text around the places into another. -/
theorem infix_fill_of_gaps {parts : List (Part κ)} (other : κ → String) {p : List Char}
    (none : '_' ∉ p) (h : p <:+: (fill (fun _ => gap) parts).toList) :
    p <:+: (fill other parts).toList := by
  induction parts with
  | nil => exact h
  | cons part rest ih =>
    cases part with
    | text s =>
      rw [fill_text, String.toList_append] at h ⊢
      obtain inside | behind | ⟨y, r, rfl, ends, starts⟩ := List.infix_append_iff.mp h
      · exact inside.trans (List.prefix_append _ _).isInfix
      · exact (ih behind).trans (List.suffix_append _ _).isInfix
      · rw [List.mem_append, not_or] at none
        exact List.infix_append_iff.mpr
          (.inr (.inr ⟨y, r, rfl, ends, prefix_fill_of_gaps other none.2 starts⟩))
    | value k =>
      rw [fill_value, String.toList_append, toList_gap, List.cons_append, List.cons_append,
        List.nil_append] at h
      have nothing {z : List Char} (here : p <+: '_' :: z) : p <:+: (fill other (.value k :: rest)).toList :=
        ((prefix_of_notMem none (y := []) here).trans List.nil_prefix).isInfix
      obtain here | behind := List.infix_cons_iff.mp h
      · exact nothing here
      · obtain here | behind := List.infix_cons_iff.mp behind
        · exact nothing here
        · rw [fill_value, String.toList_append]
          exact (ih behind).trans (List.suffix_append _ _).isInfix

/-- A token whose digits are not in a text is not in it with gaps for the places either. -/
theorem Token.absent_of_digits {parts : List (Part κ)} (other : κ → String)
    (absent : ¬ t.digits <:+: (fill other parts).toList) : t.Absent parts :=
  fun h => absent (infix_fill_of_gaps other t.underscore_notMem_digits (t.digits_infix_text.trans h))

end Digits

section Barred

variable {κ : Type} {t : Token}

/-- That a token neither starts in a text nor runs into it. -/
structure Token.Barred (t : Token) (x : String) : Prop where
  enters : t.Enters x
  outside : ∀ y z, y ≠ [] → y <:+ x.toList → ¬ t.text.toList <+: y ++ z

/-- So it is if the text begins and ends with characters that are in no token. -/
theorem Token.barred_of_ends {x : String} {c d : Char} {v w : List Char} (front : x.toList = c :: v)
    (back : x.toList = w ++ [d]) (first : c ∉ ['_', 'q', 'b'])
    (notDigit : ∀ n : Fin 16, c ≠ Text.hexDigit n) (last : d ∉ t.text.toList)
    (absent : ¬ t.text.toList <:+: x.toList) : t.Barred x := by
  exact ⟨enters_of_notMem front first notDigit, fun y z ne behind =>
    not_prefix_of_ends back last absent ne behind⟩

/-- Whether a character is no hexadecimal digit. -/
def Token.isOther (c : Char) : Bool := decide (∀ n : Fin 16, c ≠ Text.hexDigit n)

/-- Whether a character is in no token. -/
def Token.isForeign (c : Char) : Bool := isOther c && decide (c ∉ ['_', 'q', 'b'])

theorem Token.foreign {c : Char} (h : isForeign c = true) :
    c ∉ ['_', 'q', 'b'] ∧ ∀ n : Fin 16, c ≠ Text.hexDigit n := by
  simpa [isForeign, isOther, and_comm] using h

theorem Token.barred_of_all {x : String} (front : x.toList.head?.any isForeign = true)
    (back : x.toList.getLast?.any isForeign = true) (all : x.toList.all isOther = true) :
    t.Barred x := by
  obtain ⟨c, hc, first⟩ := (Option.any_eq_true _ _).mp front
  obtain ⟨d, hd, last⟩ := (Option.any_eq_true _ _).mp back
  obtain ⟨v, front⟩ := List.head?_eq_some_iff.mp hc
  obtain ⟨w, back⟩ := List.getLast?_eq_some_iff.mp hd
  refine barred_of_ends front back (foreign first).1 (foreign first).2
    (t.notMem_text (foreign last).1 (foreign last).2) fun h => ?_
  obtain ⟨e, ds, digits⟩ := List.exists_cons_of_ne_nil t.digits_ne_nil
  have mem : e ∈ t.digits := digits ▸ List.mem_cons_self
  obtain ⟨n, hn⟩ := Text.exists_of_mem_hexOfBytes mem
  exact of_decide_eq_true (List.all_eq_true.mp all e ((t.digits_infix_text.trans h).mem mem)) n hn

theorem Token.Barred.append {x x' : String} (h : t.Barred x) (h' : t.Barred x') :
    t.Barred (x ++ x') := by
  refine ⟨fun y z ne starts => ?_, fun y z ne behind => ?_⟩
  · rw [String.toList_append, List.append_assoc] at starts
    exact h.enters y _ ne starts
  · rw [String.toList_append] at behind
    obtain inside | ⟨r, rne, past, rfl⟩ := suffix_within_or_past behind
    · exact h'.outside y z ne inside
    · rw [List.append_assoc]
      exact h.outside r _ rne past

/-- A token that all texts around the places bar is nowhere. -/
theorem Token.absent_of_barred {parts : List (Part κ)} (barred : ∀ x, .text x ∈ parts → t.Barred x) :
    t.Absent parts := by
  induction parts with
  | nil => simpa [Absent, -String.toList_eq_nil_iff] using t.toList_text_ne_nil
  | cons p rest ih =>
    have behind : t.Absent rest := ih fun x hx => barred x (.tail _ hx)
    unfold Absent at behind ⊢
    cases p with
    | text x =>
      rw [fill_text, String.toList_append]
      exact not_infix_append (fun y ne within => (barred x (.head _)).outside y _ ne within) behind
    | value k =>
      rw [fill_value, String.toList_append]
      refine not_infix_append (fun y ne within h => ?_) behind
      have whole : t.stem <+: y := by
        have starts := t.stem_prefix_text.trans h
        match rest with
        | [] => simpa using starts
        | .text x :: rest =>
          rw [fill_text, String.toList_append] at starts
          exact (barred x (.tail _ (.head _))).enters y _ ne starts
        | .value k :: rest =>
          rw [fill_value, String.toList_append] at starts
          exact t.enters_gap y _ ne starts
      -- The gap is shorter than a token.
      have short := Nat.le_trans whole.length_le within.length_le
      simp [toList_gap, stem, length_digits] at short

end Barred

end Sql
end EntityFeed
