import EntityFeed.Proofs.Text.Runs
import Mathlib.Data.Int.Cast.Defs
import Mathlib.Data.List.Basic
import Mathlib.Data.List.Induction

/-! Integers in decimal: the texts that spell one, and the one of them in which it is written. -/
namespace EntityFeed.Text

/-- That a text is not empty and has nothing but digits. -/
structure IsDigits (cs : List Char) : Prop where
  ne_nil : cs ≠ []
  digit : ∀ c ∈ cs, c.isDigit = true

/-- That a text spells an integer: in decimal digits, with a sign in front or without one. -/
inductive Spells : List Char → Int → Prop where
  | plain {digits : List Char} : IsDigits digits → Spells digits (Nat.ofDigitChars 10 digits 0)
  | plus {digits : List Char} : IsDigits digits → Spells ('+' :: digits) (Nat.ofDigitChars 10 digits 0)
  | minus {digits : List Char} : IsDigits digits → Spells ('-' :: digits) (-Nat.ofDigitChars 10 digits 0)

section Spelling

variable {cs digits : List Char} {i : Int}

theorem IsDigits.head?_ne (h : IsDigits cs) {c : Char} (hc : c.isDigit = false) : cs.head? ≠ some c := by
  intro front
  have digit := h.digit c (List.mem_of_head? front)
  rw [hc] at digit
  cases digit

theorem spells_minus_iff :
    Spells ('-' :: digits) i ↔ IsDigits digits ∧ i = -Nat.ofDigitChars 10 digits 0 := by
  constructor
  · intro h
    cases h with
    | plain all => exact absurd rfl (all.head?_ne (c := '-') (by decide))
    | minus all => exact ⟨all, rfl⟩
  · rintro ⟨all, rfl⟩
    exact .minus all

theorem spells_plus_iff :
    Spells ('+' :: digits) i ↔ IsDigits digits ∧ i = Nat.ofDigitChars 10 digits 0 := by
  constructor
  · intro h
    cases h with
    | plain all => exact absurd rfl (all.head?_ne (c := '+') (by decide))
    | plus all => exact ⟨all, rfl⟩
  · rintro ⟨all, rfl⟩
    exact .plus all

theorem spells_iff_of_signless (minus : cs.head? ≠ some '-') (plus : cs.head? ≠ some '+') :
    Spells cs i ↔ IsDigits cs ∧ i = Nat.ofDigitChars 10 cs 0 := by
  constructor
  · intro h
    cases h with
    | plain all => exact ⟨all, rfl⟩
    | plus all => exact absurd rfl plus
    | minus all => exact absurd rfl minus
  · rintro ⟨all, rfl⟩
    exact .plain all

theorem Spells.unique {j : Int} (h : Spells cs i) (other : Spells cs j) : i = j := by
  cases h with
  | plain all =>
    have alone := (spells_iff_of_signless (all.head?_ne (by decide)) (all.head?_ne (by decide))).mp other
    exact alone.2.symm
  | plus all => exact (spells_plus_iff.mp other).2.symm
  | minus all => exact (spells_minus_iff.mp other).2.symm

end Spelling

theorem le_ofDigitChars (cs : List Char) (n : Nat) : n ≤ Nat.ofDigitChars 10 cs n := by
  induction cs generalizing n with
  | nil => simp
  | cons c cs ih =>
    rw [Nat.ofDigitChars_cons]
    have := ih (10 * n + (c.toNat - '0'.toNat))
    omega

section Printing

variable {digits cs : List Char} {i : Int}

theorem toNat_of_isDigit {c : Char} (h : c.isDigit = true) : 48 ≤ c.toNat ∧ c.toNat ≤ 57 :=
  Char.isDigit_iff_toNat.mp h

theorem digitChar_of_isDigit {c : Char} (h : c.isDigit = true) : Nat.digitChar (c.toNat - 48) = c := by
  have written : ∀ n < 10, Nat.digitChar n = Char.ofNat (48 + n) := by decide
  obtain ⟨low, high⟩ := toNat_of_isDigit h
  rw [written _ (by omega), Nat.add_sub_cancel' low, Char.ofNat_toNat]

theorem ofDigitChars_pos (all : IsDigits digits) (front : digits.head? ≠ some '0') :
    0 < Nat.ofDigitChars 10 digits 0 := by
  cases digits with
  | nil => exact absurd rfl all.ne_nil
  | cons c digits =>
    have digit := toNat_of_isDigit (all.digit c List.mem_cons_self)
    have other : c.toNat ≠ 48 := fun zero => front (congrArg some (Char.toNat_inj.mp zero))
    have least := le_ofDigitChars digits (10 * 0 + (c.toNat - '0'.toNat))
    rw [Nat.ofDigitChars_cons]
    have : '0'.toNat = 48 := rfl
    omega

/-- The digits that a number is written in are those that stand for it and have no zero in front. -/
theorem toDigits_eq_iff (all : IsDigits digits) (positive : 0 < Nat.ofDigitChars 10 digits 0) :
    Nat.toDigits 10 (Nat.ofDigitChars 10 digits 0) = digits ↔ digits.head? ≠ some '0' := by
  constructor
  · intro same
    exact same ▸ head?_toDigits positive
  · intro front
    induction digits using List.reverseRecOn with
    | nil => exact absurd rfl all.ne_nil
    | append_singleton ds c ih =>
      have digit := all.digit c (List.mem_append_right ds List.mem_cons_self)
      have small : c.toNat - 48 < 10 := by
        have := (toNat_of_isDigit digit).2
        omega
      have last (n : Nat) : Nat.ofDigitChars 10 [c] n = 10 * n + (c.toNat - 48) := by
        rw [Nat.ofDigitChars_cons, Nat.ofDigitChars_nil]
        rfl
      rw [Nat.ofDigitChars_append, last]
      by_cases none : ds = []
      · rw [none, Nat.ofDigitChars_nil, Nat.mul_zero, Nat.zero_add, Nat.toDigits_of_lt_base small,
          digitChar_of_isDigit digit]
        rfl
      · have before : IsDigits ds := ⟨none, fun x hx => all.digit x (List.mem_append_left [c] hx)⟩
        have front : ds.head? ≠ some '0' := by
          rwa [List.head?_append_of_ne_nil _ none] at front
        have some_ := ofDigitChars_pos before front
        rw [← Nat.toDigits_append_toDigits (by decide) some_ small, ih before some_ front,
          Nat.toDigits_of_lt_base small, digitChar_of_isDigit digit]

/-- The spelling in which integers are written: there is no plus sign, no zero in front of other digits, and
no sign in front of zero. -/
def IsNormal (cs : List Char) : Prop :=
  cs = ['0'] ∨ cs.head? ≠ some '+' ∧ (cs.dropWhile (· == '-')).head? ≠ some '0'

instance (cs : List Char) : Decidable (IsNormal cs) := inferInstanceAs (Decidable (_ ∨ _))

theorem IsDigits.dropWhile_minus (all : IsDigits digits) : digits.dropWhile (· == '-') = digits := by
  cases digits with
  | nil => rfl
  | cons c digits =>
    refine List.dropWhile_cons_of_neg fun minus => ?_
    exact absurd (congrArg some (beq_iff_eq.mp minus)) (all.head?_ne (c := '-') (by decide))

theorem toList_natCast (n : Nat) : (toString (n : Int)).toList = Nat.toDigits 10 n := toList_ofNat n

theorem toList_neg_succ (n : Nat) :
    (toString (-((n + 1 : Nat) : Int))).toList = '-' :: Nat.toDigits 10 (n + 1) := toList_negSucc n

theorem IsDigits.isNormal_iff (all : IsDigits digits) :
    IsNormal digits ↔ digits = ['0'] ∨ digits.head? ≠ some '0' := by
  rw [IsNormal, all.dropWhile_minus, and_iff_right (all.head?_ne (by decide))]

theorem IsDigits.isNormal_minus_iff (all : IsDigits digits) :
    IsNormal ('-' :: digits) ↔ digits.head? ≠ some '0' := by
  rw [IsNormal, List.dropWhile_cons_of_pos (by decide), all.dropWhile_minus]
  simp

theorem not_isNormal_plus (digits : List Char) : ¬IsNormal ('+' :: digits) := by
  simp [IsNormal]

theorem isDigits_toDigits (n : Nat) : IsDigits (Nat.toDigits 10 n) :=
  ⟨Nat.toDigits_ne_nil, isDigit_toDigits n⟩

/-- The text of an integer spells it. -/
theorem spells_toString (i : Int) : Spells (toString i).toList i := by
  cases i with
  | ofNat n =>
    have spelt := Spells.plain (isDigits_toDigits n)
    rwa [Nat.ofDigitChars_ten_toDigits, ← toList_natCast] at spelt
  | negSucc n =>
    have spelt := Spells.minus (isDigits_toDigits (n + 1))
    rwa [Nat.ofDigitChars_ten_toDigits, ← toList_neg_succ] at spelt

/-- An integer is written as a text spells it exactly if the spelling is normal. -/
theorem Spells.toString_eq_iff (h : Spells cs i) : (toString i).toList = cs ↔ IsNormal cs := by
  have zero {digits : List Char} (all : IsDigits digits) (none : Nat.ofDigitChars 10 digits 0 = 0) :
      digits.head? = some '0' := by
    by_contra front
    exact absurd none (ofDigitChars_pos all front).ne'
  cases h with
  | plain all =>
    rw [all.isNormal_iff, toList_natCast]
    rcases Nat.eq_zero_or_pos (Nat.ofDigitChars 10 cs 0) with none | positive
    · rw [none, Nat.toDigits_zero, or_iff_left (not_not_intro (zero all none))]
      exact eq_comm
    · rw [toDigits_eq_iff all positive, or_iff_right]
      rintro rfl
      exact absurd positive (by decide)
  | @plus digits all =>
    refine iff_of_false ?_ (not_isNormal_plus digits)
    rw [toList_natCast]
    intro same
    have plus := isDigit_toDigits _ '+' (same ▸ List.mem_cons_self)
    exact absurd plus (by decide)
  | @minus digits all =>
    rw [all.isNormal_minus_iff]
    rcases number : Nat.ofDigitChars 10 digits 0 with _ | m
    · refine iff_of_false ?_ (not_not_intro (zero all number))
      simp [Int.repr]
    · have positive : 0 < Nat.ofDigitChars 10 digits 0 := by omega
      rw [← toDigits_eq_iff all positive, number, toList_neg_succ, List.cons.injEq, and_iff_right rfl]

end Printing

end EntityFeed.Text
