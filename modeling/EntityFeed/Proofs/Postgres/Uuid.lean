import EntityFeed.Postgres.Uuid
import EntityFeed.Proofs.Text.Hex
import EntityFeed.Proofs.Text.Separation

/-! The text that a UUID is written as, and the texts that are read as it. -/
namespace EntityFeed.Postgres.Uuid

section Groups

variable {α : Type} {lengths : List Nat} {xs : List α} {parts : List (List α)}

theorem flatten_cut (whole : xs.length = lengths.sum) : (cut lengths xs).flatten = xs := by
  induction lengths generalizing xs with
  | nil => exact (List.length_eq_zero_iff.mp whole).symm
  | cons n lengths ih =>
    rw [List.sum_cons] at whole
    rw [cut, List.flatten_cons, ih (by rw [List.length_drop]; omega), List.take_append_drop]

theorem length_cut (whole : xs.length = lengths.sum) : (cut lengths xs).map List.length = lengths := by
  induction lengths generalizing xs with
  | nil => rfl
  | cons n lengths ih =>
    rw [List.sum_cons] at whole
    rw [cut, List.map_cons, ih (by rw [List.length_drop]; omega), List.length_take, min_eq_left (by omega)]

theorem cut_flatten (parts : List (List α)) : cut (parts.map List.length) parts.flatten = parts := by
  induction parts with
  | nil => rfl
  | cons part parts ih =>
    rw [List.map_cons, List.flatten_cons, cut, List.take_left, List.drop_left, ih]

end Groups

variable {u : Uuid} {cs : List Char}

theorem ofBytes?_eq_some_iff {bytes : List UInt8} : ofBytes? bytes = some u ↔ u.bytes = bytes := by
  constructor
  · intro h
    rw [ofBytes?] at h
    split at h
    · cases h
      rfl
    · cases h
  · rintro rfl
    exact dif_pos u.length_bytes

theorem length_hex (u : Uuid) : (Text.hexOfBytes u.bytes).length = groups.sum := by
  rw [Text.length_hexOfBytes, u.length_bytes]
  rfl

theorem toList_text (u : Uuid) :
    u.text.toList = List.intercalate ['-'] (cut groups (Text.hexOfBytes u.bytes)) :=
  String.toList_ofList

theorem ofDigits?_hex (u : Uuid) : ofDigits? (Text.hexOfBytes u.bytes) = some u := by
  rw [ofDigits?, Text.bytesOfHex?_hexOfBytes]
  exact ofBytes?_eq_some_iff.mpr rfl

theorem hyphenated?_eq_some_iff : hyphenated? cs = some u ↔
    (cs.splitOn '-').map List.length = groups ∧ ofDigits? (cs.splitOn '-').flatten = some u := by
  rw [hyphenated?]
  split
  · next h => rw [and_iff_right h]
  · next h => exact iff_of_false (by simp) fun both => h both.1

theorem splitOn_text (u : Uuid) :
    u.text.toList.splitOn '-' = cut groups (Text.hexOfBytes u.bytes) := by
  rw [toList_text]
  refine List.splitOn_intercalate '-' (fun part hpart inside => ?_) (List.cons_ne_nil _ _)
  have whole : '-' ∈ (cut groups (Text.hexOfBytes u.bytes)).flatten :=
    List.mem_flatten.mpr ⟨part, hpart, inside⟩
  rw [flatten_cut u.length_hex] at whole
  exact Text.notMem_hexOfBytes (by decide) _ whole

theorem hyphenated?_text (u : Uuid) : hyphenated? u.text.toList = some u := by
  rw [hyphenated?_eq_some_iff, splitOn_text, length_cut u.length_hex, flatten_cut u.length_hex]
  exact ⟨rfl, u.ofDigits?_hex⟩

/-- A text in groups has four hyphens. -/
theorem length_of_hyphenated? (h : hyphenated? cs = some u) : cs.length = 36 := by
  have lengths := (hyphenated?_eq_some_iff.mp h).1
  cases parts : cs.splitOn '-' with
  | nil => rw [parts] at lengths; cases lengths
  | cons part rest =>
    have whole := Text.length_intercalate '-' part rest
    have each : (part :: rest).map (·.length + 1) = groups.map (· + 1) := by
      rw [← lengths, parts, List.map_map]
      rfl
    rw [← parts, List.intercalate_splitOn, parts, each] at whole
    exact Nat.succ.inj whole

theorem mem_text {c : Char} (h : c ∈ u.text.toList) : c = '-' ∨ ∃ n : Fin 16, c = Text.hexDigit n := by
  rw [toList_text] at h
  refine (Text.of_mem_intercalate h).imp List.mem_singleton.mp fun inside => ?_
  rw [← List.mem_flatten, flatten_cut u.length_hex] at inside
  exact Text.exists_of_mem_hexOfBytes inside

theorem parse?_text (u : Uuid) : parse? u.text = some u := by
  have length := length_of_hyphenated? (hyphenated?_text u)
  have other {c : Char} (h : ∀ n : Fin 16, c ≠ Text.hexDigit n) (hyphen : c ≠ '-') :
      c ∉ u.text.toList := by
    intro inside
    obtain rfl | ⟨n, hn⟩ := mem_text inside
    · exact hyphen rfl
    · exact h n hn
  rw [parse?]
  split
  · next front => exact absurd (front ▸ List.mem_cons_self) (other (c := '\x7b') (by decide) (by decide))
  · next front => exact absurd (front ▸ List.mem_cons_self) (other (c := 'u') (by decide) (by decide))
  · rw [if_neg (by omega), hyphenated?_text]

/-- A UUID is written as the text it has been read from exactly if that has groups and no capital letters. -/
theorem text_eq_iff {s : String} (h : parse? s = some u) :
    u.text = s ↔ s.length = 36 ∧ ∀ c ∈ s.toList, c.isUpper = false := by
  rw [← String.length_toList]
  constructor
  · rintro rfl
    refine ⟨length_of_hyphenated? (hyphenated?_text u), fun c hc => ?_⟩
    obtain rfl | ⟨n, rfl⟩ := mem_text hc
    · decide
    · exact (by decide : ∀ n : Fin 16, (Text.hexDigit n).isUpper = false) n
  · rintro ⟨length, small⟩
    rw [← String.toList_inj, toList_text]
    rw [parse?] at h
    split at h
    · next rest front =>
      -- Braces make the text longer.
      split at h
      · have inner := length_of_hyphenated? h
        rw [front] at length
        rw [List.length_dropLast] at inner
        rw [List.length_cons] at length
        omega
      · cases h
    · next rest front =>
      have inner := length_of_hyphenated? h
      rw [front] at length
      simp only [List.length_cons] at length
      omega
    · rw [if_neg (by omega), hyphenated?_eq_some_iff] at h
      obtain ⟨lengths, digits⟩ := h
      obtain ⟨bytes, read, made⟩ := Option.bind_eq_some_iff.mp digits
      have kept : ∀ c ∈ (s.toList.splitOn '-').flatten, c.isUpper = false := by
        intro c hc
        refine small c ?_
        obtain ⟨part, hpart, inside⟩ := List.mem_flatten.mp hc
        rw [← s.toList.intercalate_splitOn '-']
        exact Text.mem_intercalate_of_mem hpart inside
      rw [ofBytes?_eq_some_iff.mp made, Text.hexOfBytes_of_bytesOfHex? read kept, ← lengths, cut_flatten,
        List.intercalate_splitOn]

end EntityFeed.Postgres.Uuid
