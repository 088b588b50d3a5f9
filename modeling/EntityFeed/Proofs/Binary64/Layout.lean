import EntityFeed.Binary64.Layout
import EntityFeed.Proofs.Binary64.Shortest

/-! The text of a finite number tells it from every other. Whatever the layout, the decimal that is read
off the text is the shortest one, and the sign stands in front. -/
namespace EntityFeed.Binary64

section Reading

/-- The exponent that a text ends in, which begins with its mark. -/
def speltPower : List Char → Int
  | _ :: '-' :: digits => -Nat.ofDigitChars 10 digits 0
  | _ :: _ :: digits => Nat.ofDigitChars 10 digits 0
  | _ => 0

/-- The decimal that a text without a sign spells. -/
def spelt (cs : List Char) : ℚ :=
  let mantissa := cs.takeWhile (· != 'e')
  let whole := mantissa.takeWhile (· != '.')
  let decimals := (mantissa.dropWhile (· != '.')).drop 1
  let power := speltPower (cs.dropWhile (· != 'e'))
  Nat.ofDigitChars 10 (whole ++ decimals) 0 * 10 ^ (power - decimals.length)

theorem speltPower_eq (c : Char) (e : Int) :
    speltPower (c :: (if e < 0 then '-' else '+') :: Nat.toDigits 10 e.natAbs) = e := by
  split
  · rw [speltPower, Nat.ofDigitChars_ten_toDigits]
    omega
  · rw [speltPower, Nat.ofDigitChars_ten_toDigits]
    · omega
    · decide

variable {whole decimals : List Char}

theorem bne_of_isDigit {c x : Char} (h : c.isDigit = true) (hx : x.isDigit = false) :
    (c != x) = true :=
  bne_iff_ne.mpr (Text.ne_of_isDigit h hx)

theorem isDigit_zeros (k : Nat) : ∀ c ∈ List.replicate k '0', c.isDigit = true := by
  intro c hc
  rw [List.eq_of_mem_replicate hc]
  decide

theorem spelt_fixed (hw : ∀ c ∈ whole, c.isDigit = true) (hd : ∀ c ∈ decimals, c.isDigit = true) :
    spelt (whole ++ '.' :: decimals) =
      Nat.ofDigitChars 10 (whole ++ decimals) 0 * 10 ^ (-decimals.length : Int) := by
  have plain : ∀ c ∈ whole ++ '.' :: decimals, (c != 'e') = true := by
    simp only [List.mem_append, List.mem_cons]
    rintro c (hc | rfl | hc)
    · exact bne_of_isDigit (hw c hc) (by decide)
    · decide
    · exact bne_of_isDigit (hd c hc) (by decide)
  obtain ⟨mantissa, none⟩ := Text.span_of_all [] plain (by simp)
  rw [List.append_nil] at mantissa none
  obtain ⟨front, back⟩ := Text.span_of_all (p := (· != '.')) ('.' :: decimals)
    (fun c hc => bne_of_isDigit (hw c hc) (by decide)) (by simp)
  rw [spelt]
  simp only [mantissa, none, front, back, List.drop_one, List.tail_cons, speltPower, zero_sub]

theorem spelt_power (hw : ∀ c ∈ whole, c.isDigit = true) (hd : ∀ c ∈ decimals, c.isDigit = true)
    (e : Int) :
    spelt (whole ++ (if decimals.isEmpty then [] else '.' :: decimals) ++
        'e' :: (if e < 0 then '-' else '+') :: Nat.toDigits 10 e.natAbs) =
      Nat.ofDigitChars 10 (whole ++ decimals) 0 * 10 ^ (e - decimals.length) := by
  have plain : ∀ c ∈ whole ++ (if decimals.isEmpty then [] else '.' :: decimals), (c != 'e') = true := by
    intro c hc
    rcases List.mem_append.mp hc with hc | hc
    · exact bne_of_isDigit (hw c hc) (by decide)
    · split at hc
      · contradiction
      · rcases List.mem_cons.mp hc with rfl | hc
        · decide
        · exact bne_of_isDigit (hd c hc) (by decide)
  obtain ⟨mantissa, power⟩ := Text.span_of_all
    ('e' :: (if e < 0 then '-' else '+') :: Nat.toDigits 10 e.natAbs) plain (by simp)
  obtain ⟨front, back⟩ := Text.span_of_all (p := (· != '.'))
    (if decimals.isEmpty then [] else '.' :: decimals)
    (fun c hc => bne_of_isDigit (hw c hc) (by decide)) (by split <;> simp)
  have behind : (if decimals.isEmpty then [] else '.' :: decimals).drop 1 = decimals := by
    split
    · simp_all
    · rfl
  rw [spelt]
  simp only [mantissa, power, front, back, behind, speltPower_eq]

end Reading

namespace Digits

variable {d : Digits}

/-- The text of the digits in a layout. -/
def laidOut (l : Layout) (d : Digits) : List Char :=
  if l.first ≤ d.point - 1 ∧ d.point - 1 < l.last then d.positional else d.scientific

/-- What stands before and behind the point of a positional number. -/
structure Fixed (d : Digits) (whole decimals : List Char) : Prop where
  text : d.positional = whole ++ '.' :: decimals
  front : ∀ c ∈ whole, c.isDigit = true
  behind : ∀ c ∈ decimals, c.isDigit = true
  value : Nat.ofDigitChars 10 (whole ++ decimals) 0 * 10 ^ (-decimals.length : Int) = d.value

/-- Below one, zeros stand between the point and the digits. -/
theorem fixed_of_nonpos (digits : ∀ c ∈ d.digits, c.isDigit = true) (small : d.point ≤ 0) :
    d.Fixed ['0'] (List.replicate (-d.point).toNat '0' ++ d.digits) where
  text := by simp [positional, small]
  front := isDigit_zeros 1
  behind c hc := (List.mem_append.mp hc).elim (isDigit_zeros _ c) (digits c)
  value := by
    have places : (-((List.replicate (-d.point).toNat '0' ++ d.digits).length) : Int) =
        d.point - d.digits.length := by
      rw [List.length_append, List.length_replicate]
      omega
    rw [places, Digits.value, Nat.ofDigitChars_append, Nat.ofDigitChars_append, ofDigitChars_zeros]
    simp [Nat.ofDigitChars]

/-- In a whole number, zeros stand between the digits and the point. -/
theorem fixed_of_length_le (digits : ∀ c ∈ d.digits, c.isDigit = true) (large : 0 < d.point)
    (whole : d.digits.length ≤ d.point.toNat) :
    d.Fixed (d.digits ++ List.replicate (d.point.toNat - d.digits.length) '0') ['0'] where
  text := by
    simp [positional, Int.not_le.mpr large, List.take_of_length_le whole,
      List.drop_of_length_le whole]
  front c hc := (List.mem_append.mp hc).elim (digits c) (isDigit_zeros _ c)
  behind := isDigit_zeros 1
  value := by
    have places : d.point - d.digits.length = (d.point.toNat - d.digits.length : Nat) := by omega
    rw [Digits.value, places, zpow_natCast, Nat.ofDigitChars_append, Nat.ofDigitChars_append,
      ofDigitChars_zeros, ← List.replicate_one, ofDigitChars_zeros]
    push_cast
    simp [mul_assoc]

/-- The point of any other number stands among its digits. -/
theorem fixed_of_lt_length (digits : ∀ c ∈ d.digits, c.isDigit = true) (large : 0 < d.point)
    (among : d.point.toNat < d.digits.length) :
    d.Fixed (d.digits.take d.point.toNat) (d.digits.drop d.point.toNat) where
  text := by simp [positional, Int.not_le.mpr large, Nat.min_eq_left among.le, among]
  front c hc := digits c (List.mem_of_mem_take hc)
  behind c hc := digits c (List.mem_of_mem_drop hc)
  value := by
    have places : (-(d.digits.drop d.point.toNat).length : Int) = d.point - d.digits.length := by
      rw [List.length_drop]
      omega
    rw [List.take_append_drop, places, Digits.value]

theorem exists_fixed (digits : ∀ c ∈ d.digits, c.isDigit = true) :
    ∃ whole decimals, d.Fixed whole decimals := by
  by_cases small : d.point ≤ 0
  · exact ⟨_, _, fixed_of_nonpos digits small⟩
  · by_cases whole : d.digits.length ≤ d.point.toNat
    · exact ⟨_, _, fixed_of_length_le digits (by omega) whole⟩
    · exact ⟨_, _, fixed_of_lt_length digits (by omega) (by omega)⟩

theorem spelt_scientific (digits : ∀ c ∈ d.digits, c.isDigit = true) :
    spelt d.scientific = d.value := by
  rw [scientific, spelt_power (fun c hc => digits c (List.mem_of_mem_take hc))
    (fun c hc => digits c (List.mem_of_mem_drop hc)), List.take_append_drop, value]
  cases first : d.digits with
  | nil => simp [Nat.ofDigitChars]
  | cons c rest =>
    have places : d.point - 1 - ((c :: rest).drop 1).length = d.point - (c :: rest).length := by
      simp only [List.drop_one, List.tail_cons, List.length_cons]
      omega
    rw [places]

/-- From the text in any layout the number of the digits is read off. -/
theorem spelt_laidOut (l : Layout) (digits : ∀ c ∈ d.digits, c.isDigit = true) :
    spelt (d.laidOut l) = d.value := by
  rw [laidOut]
  split
  · obtain ⟨whole, decimals, fixed⟩ := exists_fixed digits
    rw [fixed.text, spelt_fixed fixed.front fixed.behind, fixed.value]
  · exact spelt_scientific digits

end Digits

/-- The characters behind the first digits of a number. -/
def inNumber (c : Char) : Bool := c.isDigit || c == '.' || c == 'e' || c == '+' || c == '-'

theorem inNumber_of_isDigit {c : Char} (h : c.isDigit = true) : inNumber c = true := by
  simp [inNumber, h]

/-- A text that begins with digits and goes on with a point or the mark of an exponent. -/
def Fractional (cs : List Char) : Prop :=
  ∃ whole mark rest, cs = whole ++ mark :: rest ∧ (∀ c ∈ whole, c.isDigit = true) ∧
    (mark = '.' ∨ mark = 'e') ∧ ∀ c ∈ rest, inNumber c = true

theorem Digits.fractional_laidOut {d : Digits} (l : Layout) (digits : ∀ c ∈ d.digits, c.isDigit = true) :
    Fractional (d.laidOut l) := by
  rw [laidOut]
  split
  · obtain ⟨whole, decimals, fixed⟩ := exists_fixed digits
    exact ⟨whole, '.', decimals, fixed.text, fixed.front, .inl rfl,
      fun c hc => inNumber_of_isDigit (fixed.behind c hc)⟩
  · have first : ∀ c ∈ d.digits.take 1, c.isDigit = true := fun c hc =>
      digits c (List.mem_of_mem_take hc)
    have power : ∀ c ∈ (if d.point - 1 < 0 then '-' else '+') :: Nat.toDigits 10 (d.point - 1).natAbs,
        inNumber c = true := by
      refine List.forall_mem_cons.mpr ⟨by split <;> decide, fun c hc => inNumber_of_isDigit ?_⟩
      exact Text.isDigit_toDigits _ c hc
    rw [scientific]
    cases tail : d.digits.drop 1 with
    | nil => exact ⟨_, 'e', _, by simp, first, .inr rfl, power⟩
    | cons c rest =>
      refine ⟨_, '.', _, List.append_assoc .., first, .inl rfl, fun x hx => ?_⟩
      rcases List.mem_append.mp hx with hx | hx
      · exact inNumber_of_isDigit (digits x (List.mem_of_mem_drop (tail ▸ hx)))
      · rcases List.mem_cons.mp hx with rfl | hx
        · decide
        · exact power x hx

section Rendering

variable (l : Layout) {x y : Binary64}

/-- The text of a finite number without its sign. -/
def unsigned (l : Layout) (x : Binary64) : List Char :=
  if x.isZero then "0.0".toList else x.shortest.laidOut l

theorem toList_render (finite : x.isFinite = true) :
    (x.render l).toList = if x.negative then '-' :: x.unsigned l else x.unsigned l := by
  simp [render, isNaN, finite, unsigned, Digits.laidOut]

theorem isZero_eq_false_iff : x.isZero = false ↔ 0 < x.magnitude := by
  rw [isZero, beq_eq_false_iff_ne, Nat.pos_iff_ne_zero]

theorem fractional_unsigned (finite : x.isFinite = true) : Fractional (x.unsigned l) := by
  cases zero : x.isZero with
  | true =>
    rw [unsigned, if_pos zero]
    exact ⟨['0'], '.', ['0'], rfl, isDigit_zeros 1, .inl rfl,
      fun c hc => inNumber_of_isDigit (isDigit_zeros 1 c hc)⟩
  | false =>
    rw [unsigned, zero, if_neg Bool.false_ne_true]
    exact Digits.fractional_laidOut l (isDigit_shortest finite (isZero_eq_false_iff.mp zero))

theorem spelt_unsigned (finite : x.isFinite = true) :
    spelt (x.unsigned l) = if x.isZero then 0 else x.shortest.value := by
  cases zero : x.isZero with
  | true =>
    have text : "0.0".toList = ['0'] ++ '.' :: ['0'] := rfl
    have digit : ∀ c ∈ ['0'], c.isDigit = true := isDigit_zeros 1
    rw [unsigned, if_pos zero, text, spelt_fixed digit digit]
    simp [Nat.ofDigitChars]
  | false =>
    rw [unsigned, zero, if_neg Bool.false_ne_true, if_neg Bool.false_ne_true]
    exact Digits.spelt_laidOut l (isDigit_shortest finite (isZero_eq_false_iff.mp zero))

/-- Apart from the sign, the text tells the number. -/
theorem magnitude_eq_of_unsigned (hx : x.isFinite = true) (hy : y.isFinite = true)
    (same : x.unsigned l = y.unsigned l) : x.magnitude = y.magnitude := by
  have decimal := spelt_unsigned l hx
  rw [same, spelt_unsigned l hy] at decimal
  cases zx : x.isZero <;> cases zy : y.isZero <;>
    simp only [zx, zy, if_true, Bool.false_eq_true, if_false] at decimal
  · rw [isZero_eq_false_iff] at zx zy
    have inX := contains_value_shortest hx zx
    rw [← decimal] at inX
    exact magnitude_eq_of_contains zx zy inX (contains_value_shortest hy zy)
  · exact absurd decimal (value_shortest_pos hx (isZero_eq_false_iff.mp zx)).ne
  · exact absurd decimal (value_shortest_pos hy (isZero_eq_false_iff.mp zy)).ne'
  · rw [isZero, beq_iff_eq] at zx zy
    rw [zx, zy]

/-- A number is told by its sign and its magnitude. -/
theorem eq_of_magnitude (sign : x.negative = y.negative) (magnitude : x.magnitude = y.magnitude) :
    x = y := by
  obtain ⟨a⟩ := x
  obtain ⟨b⟩ := y
  have ha := a.toNat_lt
  have hb := b.toNat_lt
  simp only [negative, Binary64.magnitude, Nat.pow_eq, decide_eq_decide] at sign magnitude
  congr 1
  exact UInt64.toNat_inj.mp (by omega)

theorem Fractional.head?_ne_minus {cs : List Char} (h : Fractional cs) : cs.head? ≠ some '-' := by
  obtain ⟨whole, mark, rest, rfl, digits, marked, -⟩ := h
  cases whole with
  | nil => rcases marked with rfl | rfl <;> simp
  | cons c whole =>
    rintro ⟨⟩
    exact absurd (digits _ (.head _)) (by decide)

/-- Two finite numbers that are written alike are one. -/
theorem render_inj (hx : x.isFinite = true) (hy : y.isFinite = true)
    (same : x.render l = y.render l) : x = y := by
  have texts := congrArg String.toList same
  rw [toList_render l hx, toList_render l hy] at texts
  have px := (fractional_unsigned l hx).head?_ne_minus
  have py := (fractional_unsigned l hy).head?_ne_minus
  cases sx : x.negative <;> cases sy : y.negative <;>
    simp only [sx, sy, if_true, Bool.false_eq_true, if_false] at texts
  · exact eq_of_magnitude (sx.trans sy.symm) (magnitude_eq_of_unsigned l hx hy texts)
  · exact absurd (by rw [texts]; rfl) px
  · exact absurd (by rw [← texts]; rfl) py
  · exact eq_of_magnitude (sx.trans sy.symm)
      (magnitude_eq_of_unsigned l hx hy (List.cons.inj texts).2)

/-- The text of a finite number has a point or an exponent, and no character but those of numbers. -/
theorem mem_render (finite : x.isFinite = true) :
    ('.' ∈ (x.render l).toList ∨ 'e' ∈ (x.render l).toList) ∧
      ∀ c ∈ (x.render l).toList, inNumber c = true := by
  obtain ⟨whole, mark, rest, text, digits, marked, others⟩ := fractional_unsigned l finite
  have mem : ∀ c ∈ whole ++ mark :: rest, inNumber c = true := by
    intro c hc
    rcases List.mem_append.mp hc with hc | hc
    · exact inNumber_of_isDigit (digits c hc)
    · rcases List.mem_cons.mp hc with rfl | hc
      · rcases marked with rfl | rfl <;> decide
      · exact others c hc
  rw [toList_render l finite, text]
  constructor
  · rcases marked with rfl | rfl
    · exact .inl (by split <;> simp)
    · exact .inr (by split <;> simp)
  · split
    · exact List.forall_mem_cons.mpr ⟨by decide, mem⟩
    · exact mem

end Rendering

end EntityFeed.Binary64
