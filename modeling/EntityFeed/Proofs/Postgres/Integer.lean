import EntityFeed.Postgres.Integer
import EntityFeed.Proofs.Text.Decimal
import Mathlib.Data.Nat.Digits.Lemmas

/-! The bytes of integers, and the texts that are read as integers: what is written for a text are the bytes
that denote the integer it spells, as long as the type has it. -/
namespace EntityFeed.Postgres
open Text

section Bytes

variable {t : IntegerType} {bytes : List UInt8} {i : Int}

/-- The integer that bytes denote in two's complement, the most significant of them first. -/
def denoted (bytes : List UInt8) : Int :=
  (BitVec.ofNat (8 * bytes.length) (Nat.ofDigits 256 (bytes.reverse.map UInt8.toNat))).toInt

example : denoted [0xff, 0xfe] = -2 := by decide

theorem ofBigEndian_eq (bytes : List UInt8) :
    ofBigEndian bytes = Nat.ofDigits 256 (bytes.reverse.map UInt8.toNat) := by
  induction bytes using List.reverseRecOn with
  | nil => rfl
  | append_singleton bytes b ih =>
    rw [ofBigEndian] at ih
    rw [ofBigEndian, List.foldl_concat, ih, List.reverse_concat, List.map_cons, Nat.ofDigits_cons]
    exact Nat.add_comm _ _

theorem toNat_lt_of_mem {n : Nat} (h : n ∈ bytes.reverse.map UInt8.toNat) : n < 256 := by
  obtain ⟨b, -, rfl⟩ := List.mem_map.mp h
  exact b.toNat_lt

theorem ofBigEndian_lt (bytes : List UInt8) : ofBigEndian bytes < 2 ^ (8 * bytes.length) := by
  have small (n : Nat) (h : n ∈ bytes.reverse.map UInt8.toNat) : n < 256 := toNat_lt_of_mem h
  rw [ofBigEndian_eq, Nat.pow_mul]
  simpa using Nat.ofDigits_lt_base_pow_length (by decide : 1 < 256) small

theorem ofBigEndian_inj {other : List UInt8} (length : bytes.length = other.length)
    (same : ofBigEndian bytes = ofBigEndian other) : bytes = other := by
  rw [ofBigEndian_eq, ofBigEndian_eq] at same
  have digits := Nat.ofDigits_inj_of_len_eq (by decide : 1 < 256) (by simpa using length)
    (fun _ => toNat_lt_of_mem) (fun _ => toNat_lt_of_mem) same
  exact List.reverse_injective ((List.map_injective_iff.mpr fun _ _ => UInt8.toNat_inj.mp) digits)

namespace IntegerType

theorem two_mul_bound (t : IntegerType) : 2 * t.bound = 2 ^ (8 * t.width) := by
  cases t <;> rfl

theorem ofBigEndian_lt_bound (length : bytes.length = t.width) : ofBigEndian bytes < 2 * t.bound := by
  rw [two_mul_bound, ← length]
  exact ofBigEndian_lt bytes

theorem denoted_eq (length : bytes.length = t.width) :
    denoted bytes =
      if ofBigEndian bytes < t.bound then (ofBigEndian bytes : Int)
      else (ofBigEndian bytes : Int) - (2 * t.bound : Nat) := by
  have below := ofBigEndian_lt_bound length
  rw [denoted, ← ofBigEndian_eq, BitVec.toInt_eq_toNat_cond, BitVec.toNat_ofNat, length, ← two_mul_bound,
    Nat.mod_eq_of_lt below]
  split <;> split <;> first | rfl | omega

theorem decode?_eq (length : bytes.length = t.width) : t.decode? bytes = some (denoted bytes) := by
  rw [decode?, if_pos length, denoted_eq length]

theorem holds_iff (t : IntegerType) (i : Int) : t.holds i = true ↔ -(t.bound : Int) ≤ i ∧ i < t.bound := by
  rw [holds, Bool.and_eq_true, decide_eq_true_iff, decide_eq_true_iff]

theorem holds_denoted (length : bytes.length = t.width) : t.holds (denoted bytes) = true := by
  have below := ofBigEndian_lt_bound length
  rw [holds_iff, denoted_eq length]
  split <;> omega

theorem ofBigEndian_encode (t : IntegerType) (i : Int) :
    (ofBigEndian (t.encode i) : Int) = i % (2 * t.bound : Nat) := by
  have positive : 0 < 2 * t.bound := by rw [two_mul_bound]; exact Nat.two_pow_pos _
  have power : Nat.pow 256 t.width = 2 * t.bound := by cases t <;> rfl
  have low : 0 ≤ i % (2 * t.bound : Nat) := Int.emod_nonneg _ (by omega)
  have high : i % (2 * t.bound : Nat) < (2 * t.bound : Nat) := Int.emod_lt_of_pos _ (by omega)
  rw [encode, ofBigEndian_bigEndian, power, Nat.mod_eq_of_lt (by omega), Int.toNat_of_nonneg low]

theorem denoted_emod (length : bytes.length = t.width) :
    denoted bytes % (2 * t.bound : Nat) = (ofBigEndian bytes : Int) := by
  have below := ofBigEndian_lt_bound length
  rw [denoted_eq length]
  split
  · exact Int.emod_eq_of_lt (by omega) (by omega)
  · rw [Int.sub_emod_right]
    exact Int.emod_eq_of_lt (by omega) (by omega)

theorem length_encode (t : IntegerType) (i : Int) : (t.encode i).length = t.width := length_bigEndian _ _

theorem denoted_encode (held : t.holds i = true) : denoted (t.encode i) = i := by
  obtain ⟨low, high⟩ := (t.holds_iff i).mp held
  have number := t.ofBigEndian_encode i
  rw [denoted_eq (t.length_encode i)]
  rcases lt_or_ge i 0 with negative | positive
  · have wrapped : i % (2 * t.bound : Nat) = i + (2 * t.bound : Nat) := by
      rw [← Int.add_emod_right, Int.emod_eq_of_lt (by omega) (by omega)]
    split <;> omega
  · rw [Int.emod_eq_of_lt positive (by omega)] at number
    split <;> omega

/-- The bytes that an integer is written as are those that denote it. -/
theorem encode_eq_iff (held : t.holds i = true) :
    t.encode i = bytes ↔ bytes.length = t.width ∧ denoted bytes = i := by
  constructor
  · rintro rfl
    exact ⟨t.length_encode i, denoted_encode held⟩
  · rintro ⟨length, rfl⟩
    refine ofBigEndian_inj ((t.length_encode _).trans length.symm) ?_
    have number := t.ofBigEndian_encode (denoted bytes)
    rw [denoted_emod length] at number
    exact_mod_cast number

end IntegerType

end Bytes

section Texts

namespace IntegerType

variable {limit n m : Nat} {beyond : IntegerFault} {cs : List Char}

/-- Digits are read as the number they stand for, if it is within the limit. -/
theorem readDigits_eq (digits : ∀ c ∈ cs, c.isDigit = true) (within : n ≤ limit) :
    readDigits limit beyond n cs =
      if Nat.ofDigitChars 10 cs n ≤ limit then .ok (Nat.ofDigitChars 10 cs n) else .error beyond := by
  induction cs generalizing n with
  | nil => simp [readDigits, within]
  | cons c cs ih =>
    have digit : c.isDigit = true := digits c List.mem_cons_self
    have grows := le_ofDigitChars cs (10 * n + (c.toNat - 48))
    rw [readDigits, digit, Nat.ofDigitChars_cons]
    simp only [Bool.not_true, Bool.false_eq_true, if_false]
    by_cases more : 10 * n + (c.toNat - 48) ≤ limit
    · rw [if_pos more]
      exact ih (fun x hx => digits x (List.mem_cons_of_mem c hx)) more
    · rw [if_neg more]
      exact (if_neg fun fits => more (grows.trans fits)).symm

theorem digits_of_readDigits (read : readDigits limit beyond n cs = .ok m) : ∀ c ∈ cs, c.isDigit = true := by
  induction cs generalizing n with
  | nil => simp
  | cons c cs ih =>
    rw [readDigits] at read
    cases digit : c.isDigit with
    | false => simp [digit] at read
    | true =>
      simp only [digit, Bool.not_true, Bool.false_eq_true, if_false] at read
      split at read
      · exact List.forall_mem_cons.mpr ⟨digit, ih read⟩
      · cases read

theorem readDigits_eq_ok_iff (within : n ≤ limit) : readDigits limit beyond n cs = .ok m ↔
    (∀ c ∈ cs, c.isDigit = true) ∧ Nat.ofDigitChars 10 cs n = m ∧ m ≤ limit := by
  constructor
  · intro read
    have digits := digits_of_readDigits read
    rw [readDigits_eq digits within] at read
    split at read
    · next fits =>
      cases read
      exact ⟨digits, rfl, fits⟩
    · cases read
  · rintro ⟨digits, rfl, fits⟩
    rw [readDigits_eq digits within, if_pos fits]

variable {t : IntegerType} {i : Int} {text : String}

/-- What is read behind a sign, or where there is none. -/
theorem bind_readDigits_eq_ok_iff {digits : List Char} (some_ : digits ≠ []) (f : Nat → Int) :
    (readDigits limit beyond 0 digits >>= fun m => pure (f m)) = .ok i ↔
      IsDigits digits ∧ Nat.ofDigitChars 10 digits 0 ≤ limit ∧ i = f (Nat.ofDigitChars 10 digits 0) := by
  constructor
  · intro read
    cases number : readDigits limit beyond 0 digits with
    | error e => rw [number] at read; cases read
    | ok m =>
      obtain ⟨all, rfl, fits⟩ := (readDigits_eq_ok_iff (Nat.zero_le _)).mp number
      rw [number] at read
      cases read
      exact ⟨⟨some_, all⟩, fits, rfl⟩
  · rintro ⟨all, fits, rfl⟩
    rw [(readDigits_eq_ok_iff (Nat.zero_le _)).mpr ⟨all.digit, rfl, fits⟩]
    rfl

/-- A text is read as the integer it spells, if the type has that. -/
theorem parse_eq_ok_iff (t : IntegerType) (text : String) (i : Int) :
    t.parse text = .ok i ↔ Spells text.toList i ∧ t.holds i = true := by
  have positive : 0 < t.bound := Nat.two_pow_pos _
  rw [parse, holds_iff]
  generalize text.toList = cs
  -- The cases of the reader: nothing, a sign alone, a text behind a sign, and any other text.
  split
  · refine iff_of_false (by simp) fun h => ?_
    cases h.1 with
    | plain all => exact all.ne_nil rfl
  · exact iff_of_false (by simp) fun h => (spells_plus_iff.mp h.1).1.ne_nil rfl
  · exact iff_of_false (by simp) fun h => (spells_minus_iff.mp h.1).1.ne_nil rfl
  · next digits some_ =>
    rw [bind_readDigits_eq_ok_iff some_, spells_minus_iff, and_assoc]
    refine and_congr_right fun _ => ?_
    omega
  · next digits some_ =>
    rw [bind_readDigits_eq_ok_iff some_, spells_plus_iff, and_assoc]
    refine and_congr_right fun _ => ?_
    omega
  · next some_ _ _ minus plus =>
    have signless (c : Char) (other : ∀ digits, cs = c :: digits → False) : cs.head? ≠ some c := fun front =>
      other cs.tail (List.eq_cons_of_mem_head? front)
    rw [bind_readDigits_eq_ok_iff some_, spells_iff_of_signless (signless _ minus) (signless _ plus),
      and_assoc]
    refine and_congr_right fun _ => ?_
    omega

end IntegerType

end Texts

end EntityFeed.Postgres
