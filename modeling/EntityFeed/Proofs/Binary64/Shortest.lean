import EntityFeed.Binary64.Shortest
import EntityFeed.Proofs.Text.Runs
import Mathlib.Algebra.Order.Field.Power
import Mathlib.Algebra.Order.Ring.Rat
import Mathlib.Tactic.FieldSimp
import Mathlib.Tactic.Linarith
import Mathlib.Tactic.NormNum
import Mathlib.Tactic.Ring

/-! The shortest decimal tells a number from every other. The decimal lies in the interval of the reals
that round to the number, of seventeen digits one always does, and no two numbers of one sign share a
real. -/
namespace EntityFeed.Binary64

theorem zpow_of_nonneg {z : Int} (g : ℚ) (h : 0 ≤ z) : g ^ z = g ^ z.toNat := by
  rw [← zpow_natCast, Int.toNat_of_nonneg h]

theorem zpow_of_neg {z : Int} (g : ℚ) (h : ¬0 ≤ z) : g ^ z = (g ^ (-z).toNat)⁻¹ := by
  rw [← zpow_natCast, Int.toNat_of_nonneg (by omega), zpow_neg, inv_inv]

namespace Interval

/-- That a number lies in an interval. -/
def Contains (i : Interval) (q : ℚ) : Prop :=
  i.low * (2 : ℚ) ^ i.unit < q ∧ q < i.high * (2 : ℚ) ^ i.unit ∨
    i.closed = true ∧ (q = i.low * (2 : ℚ) ^ i.unit ∨ q = i.high * (2 : ℚ) ^ i.unit)

section Steps

variable (i : Interval) (p : Int)

theorem steps_pos : 0 < (i.steps p).1 ∧ 0 < (i.steps p).2 := by
  unfold steps
  dsimp only
  split_ifs <;> simp

/-- The steps of a grid are as many as the quotient of the two units. -/
theorem steps_mul : ((i.steps p).1 : ℚ) * 10 ^ p = (i.steps p).2 * 2 ^ i.unit := by
  by_cases hu : 0 ≤ i.unit <;> by_cases hp : 0 ≤ p
  all_goals
    simp only [steps, hu, hp, if_true, if_false, zpow_of_nonneg, zpow_of_neg, not_false_eq_true,
      Nat.pow_eq, Nat.cast_mul, Nat.cast_pow, Nat.cast_one, Nat.cast_ofNat]
    field_simp

/-- In a common unit, lengths in quarter places and in steps are whole numbers. -/
theorem exists_scale : ∃ r : ℚ, 0 < r ∧
    (∀ m : Nat, ((m * (i.steps p).1 : Nat) : ℚ) = r * (m * 2 ^ i.unit)) ∧
      ∀ n : Nat, ((n * (i.steps p).2 : Nat) : ℚ) = r * (n * 10 ^ p) := by
  have grid := i.steps_mul p
  obtain ⟨-, hb⟩ := i.steps_pos p
  generalize (i.steps p).1 = a, (i.steps p).2 = b at *
  have power : (0 : ℚ) < 10 ^ p := by positivity
  have hb' : (0 : ℚ) < b := by exact_mod_cast hb
  refine ⟨b / 10 ^ p, div_pos hb' power, fun m => ?_, fun n => ?_⟩
  · push_cast
    rw [div_mul_eq_mul_div, eq_div_iff power.ne', mul_assoc, grid]
    ring
  · push_cast
    field_simp

theorem le_steps_iff {m n : Nat} :
    n * (i.steps p).2 ≤ m * (i.steps p).1 ↔ (n : ℚ) * 10 ^ p ≤ m * 2 ^ i.unit := by
  obtain ⟨r, hr, quarters, steps⟩ := i.exists_scale p
  rw [← Nat.cast_le (α := ℚ), quarters, steps, mul_le_mul_iff_right₀ hr]

/-- A point of a grid is found in an interval exactly if it lies in it. -/
theorem holds_iff {c : Nat} :
    i.holds (i.steps p).1 (i.steps p).2 c = true ↔ i.Contains (c * 10 ^ p) := by
  obtain ⟨r, hr, quarters, steps⟩ := i.exists_scale p
  have lt (m n : Nat) : m * (i.steps p).1 < n * (i.steps p).2 ↔
      (m : ℚ) * 2 ^ i.unit < n * 10 ^ p := by
    rw [← Nat.cast_lt (α := ℚ), quarters, steps, mul_lt_mul_iff_right₀ hr]
  have gt (m n : Nat) : n * (i.steps p).2 < m * (i.steps p).1 ↔
      (n : ℚ) * 10 ^ p < m * 2 ^ i.unit := by
    rw [← Nat.cast_lt (α := ℚ), quarters, steps, mul_lt_mul_iff_right₀ hr]
  have eq (m n : Nat) : n * (i.steps p).2 = m * (i.steps p).1 ↔
      (n : ℚ) * 10 ^ p = m * 2 ^ i.unit := by
    rw [← Nat.cast_inj (R := ℚ), quarters, steps, mul_right_inj' hr.ne']
  simp only [holds, Contains, Bool.or_eq_true, Bool.and_eq_true, decide_eq_true_eq, beq_iff_eq, lt, gt,
    eq, @eq_comm _ (i.low * (i.steps p).1)]

end Steps

end Interval

section Ends

/-- The significand of the numbers of a magnitude. -/
def significandOf (m : Nat) : Nat := if m / 2 ^ 52 = 0 then m % 2 ^ 52 else 2 ^ 52 + m % 2 ^ 52

/-- The real between the numbers of one magnitude and the next, in units of `2 ^ -1076`. -/
def endAbove (m : Nat) : Nat := (2 * significandOf m + 1) * 2 ^ max 1 (m / 2 ^ 52)

theorem significandOf_mod_two (m : Nat) : significandOf m % 2 = m % 2 := by
  unfold significandOf
  split <;> omega

theorem endAbove_lt_succ (m : Nat) : endAbove m < endAbove (m + 1) := by
  have next : max 1 ((m + 1) / 2 ^ 52) = max 1 (m / 2 ^ 52) ∧
        significandOf m < significandOf (m + 1) ∨
      max 1 ((m + 1) / 2 ^ 52) = max 1 (m / 2 ^ 52) + 1 ∧
        significandOf m < 2 * significandOf (m + 1) := by
    unfold significandOf
    split_ifs <;> omega
  unfold endAbove
  generalize max 1 (m / 2 ^ 52) = k at *
  rcases next with ⟨same, more⟩ | ⟨same, more⟩
  · rw [same]
    exact Nat.mul_lt_mul_of_pos_right (by omega) (by positivity)
  · rw [same, Nat.pow_succ', ← Nat.mul_assoc]
    exact Nat.mul_lt_mul_of_pos_right (by omega) (by positivity)

theorem endAbove_strictMono : StrictMono endAbove := strictMono_nat_of_lt_succ endAbove_lt_succ

variable (x : Binary64)

theorem significand_eq : x.significand = significandOf x.magnitude := rfl

theorem closed_iff : x.interval.closed = true ↔ x.magnitude % 2 = 0 := by
  rw [interval, significand_eq, decide_eq_true_eq, significandOf_mod_two]

theorem exponentField_eq : x.exponentField = x.magnitude / 2 ^ 52 := by
  rw [exponentField, Nat.pow_eq]

/-- Quarter places in units of `2 ^ -1076`. -/
theorem mul_unit_interval (n : Nat) : (n : ℚ) * 2 ^ x.interval.unit =
    (n * 2 ^ max 1 (x.magnitude / 2 ^ 52) : Nat) / 2 * 2 ^ (-1076 : Int) := by
  have unit : x.interval.unit = (max 1 (x.magnitude / 2 ^ 52) : Nat) + -1076 - 1 := by
    rw [interval, exponent, exponentField_eq]
    dsimp only
    omega
  rw [unit, zpow_sub_one₀ two_ne_zero, zpow_add₀ two_ne_zero, zpow_natCast]
  generalize (2 : ℚ) ^ (-1076 : Int) = u, max 1 (x.magnitude / 2 ^ 52) = k
  push_cast
  ring

theorem high_interval : (x.interval.high : ℚ) * 2 ^ x.interval.unit =
    endAbove x.magnitude * 2 ^ (-1076 : Int) := by
  have high : x.interval.high = 2 * (2 * significandOf x.magnitude + 1) := by
    change 4 * significandOf x.magnitude + 2 = _
    omega
  rw [mul_unit_interval, high, endAbove]
  generalize (2 : ℚ) ^ (-1076 : Int) = u
  push_cast
  ring

theorem low_interval (positive : 0 < x.magnitude) : (x.interval.low : ℚ) * 2 ^ x.interval.unit =
    endAbove (x.magnitude - 1) * 2 ^ (-1076 : Int) := by
  have low : x.interval.low * 2 ^ max 1 (x.magnitude / 2 ^ 52) = 2 * endAbove (x.magnitude - 1) := by
    have before : max 1 (x.magnitude / 2 ^ 52) = max 1 ((x.magnitude - 1) / 2 ^ 52) + 1 ∧
          x.interval.low = 2 * significandOf (x.magnitude - 1) + 1 ∨
        max 1 (x.magnitude / 2 ^ 52) = max 1 ((x.magnitude - 1) / 2 ^ 52) ∧
          x.interval.low = 2 * (2 * significandOf (x.magnitude - 1) + 1) := by
      rw [interval, significand_eq, exponentField_eq, fraction, Nat.pow_eq]
      dsimp only
      generalize x.magnitude = m at *
      unfold significandOf
      split_ifs <;> omega
    unfold endAbove
    generalize max 1 ((x.magnitude - 1) / 2 ^ 52) = k at *
    rcases before with ⟨same, low⟩ | ⟨same, low⟩
    · rw [same, low, Nat.pow_succ]
      ring
    · rw [same, low]
      ring
  rw [mul_unit_interval, low]
  generalize (2 : ℚ) ^ (-1076 : Int) = u
  push_cast
  ring

/-- A real in a number's interval is between its ends, and at one of them only if the significand is
even. -/
theorem between_of_contains {x : Binary64} {q : ℚ} (positive : 0 < x.magnitude)
    (h : x.interval.Contains q) :
    (q < endAbove x.magnitude * 2 ^ (-1076 : Int) ∨
        q = endAbove x.magnitude * 2 ^ (-1076 : Int) ∧ x.magnitude % 2 = 0) ∧
      (endAbove (x.magnitude - 1) * 2 ^ (-1076 : Int) < q ∨
        endAbove (x.magnitude - 1) * 2 ^ (-1076 : Int) = q ∧ x.magnitude % 2 = 0) := by
  have u : (0 : ℚ) < 2 ^ (-1076 : Int) := by positivity
  have ends : (endAbove (x.magnitude - 1) : ℚ) * 2 ^ (-1076 : Int) <
      endAbove x.magnitude * 2 ^ (-1076 : Int) := by
    have less := endAbove_strictMono (Nat.sub_lt positive Nat.one_pos)
    exact mul_lt_mul_of_pos_right (by exact_mod_cast less) u
  rw [Interval.Contains, closed_iff, low_interval x positive, high_interval] at h
  rcases h with ⟨low, high⟩ | ⟨even, rfl | rfl⟩
  · exact ⟨.inl high, .inl low⟩
  · exact ⟨.inl ends, .inr ⟨rfl, even⟩⟩
  · exact ⟨.inr ⟨rfl, even⟩, .inl ends⟩

/-- Numbers whose intervals share a real differ at most in their signs. -/
theorem magnitude_eq_of_contains {x y : Binary64} {q : ℚ} (hx : 0 < x.magnitude)
    (hy : 0 < y.magnitude) (inX : x.interval.Contains q) (inY : y.interval.Contains q) :
    x.magnitude = y.magnitude := by
  wlog below : x.magnitude < y.magnitude generalizing x y
  · rcases (Nat.le_of_not_lt below).eq_or_lt with same | above
    · exact same.symm
    · exact (this hy hx inY inX above).symm
  have u : (0 : ℚ) < 2 ^ (-1076 : Int) := by positivity
  have order : (endAbove x.magnitude : ℚ) * 2 ^ (-1076 : Int) ≤
      endAbove (y.magnitude - 1) * 2 ^ (-1076 : Int) := by
    have le := endAbove_strictMono.monotone (Nat.le_sub_one_of_lt below)
    exact mul_le_mul_of_nonneg_right (by exact_mod_cast le) u.le
  -- The real is where the first interval ends and the second begins, so both ends belong to them.
  obtain ⟨upper, -⟩ := between_of_contains hx inX
  obtain ⟨-, lower⟩ := between_of_contains hy inY
  rcases upper with upper | ⟨atEnd, even⟩
  · rcases lower with lower | ⟨atStart, -⟩ <;> linarith
  · rcases lower with lower | ⟨atStart, even'⟩
    · linarith
    · have touch : endAbove x.magnitude = endAbove (y.magnitude - 1) := by
        exact_mod_cast mul_right_cancel₀ u.ne' (atEnd.symm.trans atStart.symm)
      have next := endAbove_strictMono.injective touch
      omega

end Ends

section Grids

theorem pow_ten_checked : ∀ n < 1101, 10 ^ (n * 30103 / 100000) ≤ 10 * 2 ^ n ∧
    2 ^ n ≤ 10 ^ ((n * 30103 + 99999) / 100000 + 1) := by
  decide +kernel

/-- The estimate of the decimal exponent is too large by one at most. -/
theorem pow_estimate_le {e : Int} (low : -1100 ≤ e) (high : e ≤ 1100) :
    (10 : ℚ) ^ ((e * 30103).fdiv 100000 - 1) ≤ 2 ^ e := by
  rw [Int.fdiv_eq_ediv_of_nonneg _ (by decide)]
  obtain ⟨n, rfl | rfl⟩ := e.eq_nat_or_neg
  · have estimate : (n * 30103 : Int) / 100000 = ((n * 30103 / 100000 : Nat) : Int) := by omega
    have checked : ((10 ^ (n * 30103 / 100000) : Nat) : ℚ) ≤ (10 * 2 ^ n : Nat) :=
      Nat.cast_le.mpr (pow_ten_checked n (by omega)).1
    rw [estimate, zpow_sub_one₀ (by norm_num), zpow_natCast, zpow_natCast]
    push_cast at checked
    linarith
  · have estimate : (-n * 30103 : Int) / 100000 - 1 =
        -(((n * 30103 + 99999) / 100000 + 1 : Nat) : Int) := by omega
    have checked : ((2 ^ n : Nat) : ℚ) ≤ (10 ^ ((n * 30103 + 99999) / 100000 + 1) : Nat) :=
      Nat.cast_le.mpr (pow_ten_checked n (by omega)).2
    rw [estimate, zpow_neg, zpow_neg, zpow_natCast, zpow_natCast]
    push_cast at checked
    exact inv_anti₀ (by positivity) checked

/-- The decimal exponent is small enough, if the binary one is in range. -/
theorem Interval.pow_decade_le {i : Interval} (positive : i.centre ≠ 0)
    (low : -1100 ≤ (Nat.log2 i.centre : Int) + i.unit) (high : Nat.log2 i.centre + i.unit ≤ 1100) :
    (10 : ℚ) ^ i.decade ≤ i.centre * 2 ^ i.unit := by
  have reaches (k : Int) : (i.steps k).2 ≤ i.centre * (i.steps k).1 ↔
      (10 : ℚ) ^ k ≤ i.centre * 2 ^ i.unit := by
    simpa using i.le_steps_iff k (m := i.centre) (n := 1)
  unfold decade
  dsimp only
  split_ifs with first second
  · exact (reaches _).mp (of_decide_eq_true first)
  · exact (reaches _).mp (of_decide_eq_true second)
  · have below : ((2 ^ Nat.log2 i.centre : Nat) : ℚ) ≤ i.centre :=
      Nat.cast_le.mpr (Nat.log2_self_le positive)
    calc (10 : ℚ) ^ ((((Nat.log2 i.centre : Int) + i.unit) * 30103).fdiv 100000 - 1)
      _ ≤ 2 ^ ((Nat.log2 i.centre : Int) + i.unit) := pow_estimate_le low high
      _ = (2 ^ Nat.log2 i.centre : Nat) * 2 ^ i.unit := by
        rw [zpow_add₀ two_ne_zero, zpow_natCast]
        push_cast
        rfl
      _ ≤ i.centre * 2 ^ i.unit := mul_le_mul_of_nonneg_right below (by positivity)

/-- What is found on a grid is a point of it in the interval. -/
theorem Interval.of_onGrid? {i : Interval} {p : Int} {c : Nat} (h : i.onGrid? p = some c) :
    0 < c ∧ i.Contains (c * 10 ^ p) := by
  rw [← holds_iff]
  unfold onGrid? at h
  split at h
  rename_i a b steps
  rw [steps]
  dsimp only at h ⊢
  have here (inside : (i.holds a b (i.centre * a / b) && i.centre * a / b != 0) = true) :
      0 < i.centre * a / b ∧ i.holds a b (i.centre * a / b) = true := by
    rw [Bool.and_eq_true, bne_iff_ne] at inside
    exact ⟨Nat.pos_of_ne_zero inside.2, inside.1⟩
  split at h
  · rename_i inside next
    rw [Option.some.injEq] at h
    split at h
    · exact h ▸ here inside
    · exact h ▸ ⟨Nat.succ_pos _, next⟩
  · rename_i inside _
    cases h
    exact here inside
  · rename_i next
    cases h
    exact ⟨Nat.succ_pos _, next⟩
  · cases h

/-- On a grid of at least `10 ^ 16` steps to the centre there is a point. -/
theorem Interval.exists_onGrid? {i : Interval} {p : Int} (centre : i.centre < 2 ^ 55)
    (wide : i.low + 2 ≤ i.centre ∧ i.centre + 2 ≤ i.high ∨
      i.centre = 2 ^ 54 ∧ i.low + 1 = i.centre ∧ i.centre + 2 = i.high)
    (fine : (10 ^ 16 * 10 ^ p : ℚ) ≤ i.centre * 2 ^ i.unit) : ∃ c, i.onGrid? p = some c := by
  have steps : 10 ^ 16 * (i.steps p).2 ≤ i.centre * (i.steps p).1 := by
    rw [i.le_steps_iff p]
    exact_mod_cast fine
  obtain ⟨ha, hb⟩ := i.steps_pos p
  unfold onGrid?
  generalize i.steps p = ab at *
  obtain ⟨a, b⟩ := ab
  dsimp only at *
  have below := Nat.div_mul_le_self (i.centre * a) b
  have above := Nat.lt_div_mul_add (a := i.centre * a) hb
  have many : 10 ^ 16 ≤ i.centre * a / b := (Nat.le_div_iff_mul_le hb).mpr steps
  generalize i.centre * a / b = c at *
  have inside : i.holds a b c = true ∨ i.holds a b (c + 1) = true := by
    by_contra none
    obtain ⟨first, second⟩ := not_or.mp none
    simp only [holds, Bool.or_eq_true, Bool.and_eq_true, decide_eq_true_eq] at first second
    -- Then the whole interval lies between the two points, so the centre is fewer steps away.
    have low : i.low * a ≤ i.centre * a := Nat.mul_le_mul_right a (by omega)
    have high : i.centre * a < i.high * a := Nat.mul_lt_mul_of_pos_right (by omega) ha
    rw [Nat.add_mul, Nat.one_mul] at second
    have width : i.high * a ≤ i.low * a + b := by omega
    rcases wide with wide | wide
    · have four := Nat.mul_le_mul_right a (show i.low + 4 ≤ i.high by omega)
      have far := Nat.mul_lt_mul_of_pos_right centre ha
      rw [Nat.add_mul] at four
      omega
    · have three := Nat.mul_le_mul_right a (show i.low + 3 ≤ i.high by omega)
      rw [Nat.add_mul] at three
      rw [wide.1] at steps
      omega
  have nonzero : (c != 0) = true := by
    rw [bne_iff_ne]
    omega
  rw [nonzero, Bool.and_true]
  split
  · exact ⟨_, rfl⟩
  · exact ⟨_, rfl⟩
  · exact ⟨_, rfl⟩
  · simp_all

end Grids

section Shortest

/-- Digits without the zeros behind. -/
def trimmed (digits : List Char) : List Char := (digits.reverse.dropWhile (· == '0')).reverse

variable {x y : Binary64}

theorem significand_bounds (positive : 0 < x.magnitude) :
    0 < x.significand ∧ x.significand < 2 ^ 53 := by
  rw [significand_eq, significandOf]
  split_ifs <;> omega

/-- A number that is not zero is written with digits of a decimal in its interval. -/
theorem exists_shortest (finite : x.isFinite = true) (positive : 0 < x.magnitude) :
    ∃ (c : Nat) (p : Int), 0 < c ∧ x.interval.Contains (c * 10 ^ p) ∧
      x.shortest = ⟨trimmed (Nat.toDigits 10 c), (Nat.toDigits 10 c).length + p⟩ := by
  obtain ⟨some_, bounded⟩ := significand_bounds positive
  have centre : x.interval.centre = 4 * x.significand := rfl
  have wide : x.interval.low + 2 ≤ x.interval.centre ∧ x.interval.centre + 2 ≤ x.interval.high ∨
      x.interval.centre = 2 ^ 54 ∧ x.interval.low + 1 = x.interval.centre ∧
        x.interval.centre + 2 = x.interval.high := by
    by_cases least : x.fraction = 0 ∧ 1 < x.exponentField
    · have power : x.significand = 2 ^ 52 := by
        rw [significand, if_neg (by omega), least.1, Nat.pow_eq, Nat.add_zero]
      refine .inr ⟨by omega, ?_⟩
      simp only [interval, if_pos least, and_true]
      omega
    · simp only [interval, if_neg least]
      omega
  have range : -1100 ≤ (Nat.log2 x.interval.centre : Int) + x.interval.unit ∧
      Nat.log2 x.interval.centre + x.interval.unit ≤ 1100 := by
    have field : x.exponentField < 0x7FF := of_decide_eq_true finite
    have unit : x.interval.unit = (max 1 x.exponentField : Nat) - 1075 - 2 := rfl
    have log : Nat.log2 x.interval.centre < 55 := (Nat.log2_lt (by omega)).mpr (by omega)
    omega
  have decade := Interval.pow_decade_le (by omega) range.1 range.2
  obtain ⟨c, hc⟩ := Interval.exists_onGrid? (p := x.interval.decade - (16 : Nat)) (by omega) wide <| by
    rwa [zpow_sub₀ (by norm_num), zpow_natCast, mul_div_cancel₀ _ (by positivity)]
  cases found : (List.range 17).findSome? fun (n : Nat) =>
      (x.interval.onGrid? (x.interval.decade - n)).map fun c => (c, x.interval.decade - n) with
  | none =>
    have last := List.findSome?_eq_none_iff.mp found 16 (by decide)
    rw [hc] at last
    cases last
  | some best =>
    obtain ⟨n, -, hn⟩ := List.exists_of_findSome?_eq_some found
    obtain ⟨d, hd, rfl⟩ := Option.map_eq_some_iff.mp hn
    obtain ⟨nonzero, inside⟩ := Interval.of_onGrid? hd
    refine ⟨d, _, nonzero, inside, ?_⟩
    unfold shortest
    dsimp only
    rw [found]
    rfl

/-- The number that digits stand for. -/
def Digits.value (d : Digits) : ℚ := Nat.ofDigitChars 10 d.digits 0 * 10 ^ (d.point - d.digits.length)

theorem exists_trimmed (digits : List Char) :
    ∃ k, digits = trimmed digits ++ List.replicate k '0' := by
  have split := List.takeWhile_append_dropWhile (p := (· == '0')) (l := digits.reverse)
  have zeros : digits.reverse.takeWhile (· == '0') =
      List.replicate (digits.reverse.takeWhile (· == '0')).length '0' :=
    List.eq_replicate_of_mem fun c hc => by simpa using List.mem_takeWhile_imp hc
  refine ⟨(digits.reverse.takeWhile (· == '0')).length, ?_⟩
  rw [trimmed, ← List.reverse_replicate, ← zeros, ← List.reverse_append, split, List.reverse_reverse]

theorem ofDigitChars_zeros (k n : Nat) :
    Nat.ofDigitChars 10 (List.replicate k '0') n = n * 10 ^ k := by
  induction k generalizing n with
  | zero => simp [Nat.ofDigitChars]
  | succ k ih =>
    rw [List.replicate_succ, Nat.ofDigitChars_cons, ih, Nat.pow_succ']
    simp only [Nat.sub_self, Nat.add_zero]
    ring

/-- Zeros behind add nothing to the number. -/
theorem value_trimmed (c : Nat) (p : Int) :
    Digits.value ⟨trimmed (Nat.toDigits 10 c), (Nat.toDigits 10 c).length + p⟩ = c * 10 ^ p := by
  obtain ⟨k, split⟩ := exists_trimmed (Nat.toDigits 10 c)
  have number : c = Nat.ofDigitChars 10 (trimmed (Nat.toDigits 10 c)) 0 * 10 ^ k := by
    conv_lhs => rw [← Nat.ofDigitChars_ten_toDigits (n := c), split, Nat.ofDigitChars_append]
    rw [ofDigitChars_zeros]
  have length : (Nat.toDigits 10 c).length = (trimmed (Nat.toDigits 10 c)).length + k := by
    conv_lhs => rw [split]
    simp
  have shift : (((Nat.toDigits 10 c).length : Int) + p - (trimmed (Nat.toDigits 10 c)).length) =
      k + p := by
    omega
  rw [Digits.value]
  dsimp only
  rw [shift, zpow_add₀ (by norm_num), zpow_natCast]
  conv_rhs => rw [number]
  push_cast
  ring

theorem contains_value_shortest (finite : x.isFinite = true) (positive : 0 < x.magnitude) :
    x.interval.Contains x.shortest.value := by
  obtain ⟨c, p, -, inside, shortest⟩ := exists_shortest finite positive
  rwa [shortest, value_trimmed]

theorem value_shortest_pos (finite : x.isFinite = true) (positive : 0 < x.magnitude) :
    0 < x.shortest.value := by
  obtain ⟨c, p, some_, -, shortest⟩ := exists_shortest finite positive
  rw [shortest, value_trimmed]
  exact mul_pos (Nat.cast_pos.mpr some_) (zpow_pos (by norm_num) p)

theorem isDigit_shortest (finite : x.isFinite = true) (positive : 0 < x.magnitude) :
    ∀ c ∈ x.shortest.digits, c.isDigit = true := by
  obtain ⟨n, p, -, -, shortest⟩ := exists_shortest finite positive
  intro c hc
  rw [shortest, trimmed, List.mem_reverse] at hc
  have within := List.mem_reverse.mp ((List.dropWhile_sublist _).subset hc)
  exact Text.isDigit_toDigits n c within

end Shortest

end EntityFeed.Binary64
