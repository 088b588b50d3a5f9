import EntityFeed.Text.Hex
import Mathlib.Data.Nat.Basic

/-! The digits of bytes, and the texts that are read as them. -/
namespace EntityFeed.Text

theorem length_hexOfBytes (bytes : List UInt8) : (hexOfBytes bytes).length = 2 * bytes.length := by
  induction bytes with
  | nil => rfl
  | cons b rest ih =>
    have pair : (hexOfBytes (b :: rest)).length = (hexOfBytes rest).length + 2 := rfl
    rw [pair, ih, List.length_cons, Nat.mul_succ]

theorem exists_of_mem_hexOfBytes {bytes : List UInt8} {c : Char} (h : c ∈ hexOfBytes bytes) :
    ∃ n : Fin 16, c = hexDigit n := by
  obtain ⟨b, -, mem⟩ := List.mem_flatMap.mp h
  have : b.toNat < 256 := b.toNat_lt
  simp only [hexByte, List.mem_cons, List.not_mem_nil, or_false] at mem
  obtain rfl | rfl := mem
  · exact ⟨⟨b.toNat / 16, by omega⟩, rfl⟩
  · exact ⟨⟨b.toNat % 16, by omega⟩, rfl⟩

theorem notMem_hexOfBytes {c : Char} (other : ∀ n : Fin 16, c ≠ hexDigit n) (bytes : List UInt8) :
    c ∉ hexOfBytes bytes := by
  intro h
  obtain ⟨n, hn⟩ := exists_of_mem_hexOfBytes h
  exact other n hn

theorem le_iff_toNat_le {a b : Char} : a ≤ b ↔ a.toNat ≤ b.toNat := UInt32.le_iff_toNat_le

theorem hexDigit_of_lt {n : Nat} (h : n < 10) : hexDigit n = Char.ofNat (48 + n) := if_pos h

theorem hexDigit_of_le {n : Nat} (h : 10 ≤ n) : hexDigit n = Char.ofNat (87 + n) := if_neg (by omega)

/-- A digit is written again as it is, unless it is a capital letter. -/
theorem hexDigit_of_hexValue? {c : Char} {n : Nat} (h : hexValue? c = some n) :
    n < 16 ∧ (c.isUpper = false → hexDigit n = c) := by
  simp only [hexValue?, le_iff_toNat_le, Char.reduceToNat] at h
  split at h
  · cases h
    refine ⟨by omega, fun _ => ?_⟩
    rw [hexDigit_of_lt (by omega), Nat.add_sub_cancel' (by omega), Char.ofNat_toNat]
  · split at h
    · cases h
      refine ⟨by omega, fun _ => ?_⟩
      rw [hexDigit_of_le (by omega), Nat.add_sub_cancel' (by omega), Char.ofNat_toNat]
    · split at h
      · next upper =>
        cases h
        refine ⟨by omega, fun small => ?_⟩
        have capital : 'A' ≤ c ∧ c ≤ 'Z' :=
          ⟨le_iff_toNat_le.mpr upper.1, le_iff_toNat_le.mpr (Nat.le_trans upper.2 (by decide))⟩
        exact absurd capital (of_decide_eq_false small)
      · cases h

/-- Digits that are read as bytes are those of the bytes if they have no capital letters. -/
theorem hexOfBytes_of_bytesOfHex? {cs : List Char} {bytes : List UInt8}
    (read : bytesOfHex? cs = some bytes) (small : ∀ c ∈ cs, c.isUpper = false) :
    hexOfBytes bytes = cs := by
  fun_induction bytesOfHex? cs generalizing bytes with
  | case1 =>
    cases read
    rfl
  | case2 => cases read
  | case3 high low rest ih =>
    simp only [List.forall_mem_cons] at small
    simp only [Option.bind_eq_bind, Option.bind_eq_some_iff, Option.pure_def, Option.some.injEq] at read
    obtain ⟨h, hh, l, hl, tail, ht, rfl⟩ := read
    obtain ⟨hbelow, hdigit⟩ := hexDigit_of_hexValue? hh
    obtain ⟨lbelow, ldigit⟩ := hexDigit_of_hexValue? hl
    have byte : (UInt8.ofNat (16 * h + l)).toNat = 16 * h + l := UInt8.toNat_ofNat_of_lt (by
      have : UInt8.size = 256 := rfl
      omega)
    have first : (16 * h + l) / 16 = h := by omega
    have second : (16 * h + l) % 16 = l := by omega
    have pair : hexByte (UInt8.ofNat (16 * h + l)) = [high, low] := by
      rw [hexByte, byte, first, second, hdigit small.1, ldigit small.2.1]
    rw [hexOfBytes, List.flatMap_cons, pair, ← hexOfBytes, ih ht small.2.2]
    rfl

end EntityFeed.Text
