import EntityFeed.Postgres.Query
import EntityFeed.Proofs.Feed.Verdict
import EntityFeed.Proofs.Postgres.Integer
import EntityFeed.Proofs.Postgres.Uuid

/-! Keys as ids and back. An id is bound as the bytes of its key, and the key that is found is read as an
id again: it is the same id if that is spelled as keys are written. -/
namespace EntityFeed.Postgres
open Text

/-- The id that is read from a key column of this type. -/
def readId? (type : String) (bytes : List UInt8) : Option String :=
  (decodeColumn? type (some bytes)).bind Json.idText?

section Columns

variable {t : IntegerType} {id : String} {bytes : List UInt8}

theorem readId?_of_named {name : String} {c : ColumnType} (named : ColumnType.ofName? name = some c)
    (bytes : List UInt8) : readId? name bytes = (c.decode? bytes).bind Json.idText? := by
  rw [readId?, decodeColumn?.eq_def, named]

theorem readId?_integer (t : IntegerType) (bytes : List UInt8) :
    readId? t.name bytes = (t.decode? bytes).map toString := by
  have named : ColumnType.ofName? t.name = some (.integer t) := by cases t <;> rfl
  rw [readId?_of_named named, ColumnType.decode?]
  cases t.decode? bytes <;> rfl

theorem readId?_uuid (bytes : List UInt8) : readId? "uuid" bytes = (Uuid.ofBytes? bytes).map Uuid.text := by
  rw [readId?_of_named (c := .uuid) rfl, ColumnType.decode?]
  cases Uuid.ofBytes? bytes <;> rfl

theorem readId?_text (bytes : List UInt8) : readId? "text" bytes = utf8? bytes := by
  rw [readId?_of_named (c := .text) rfl, ColumnType.decode?]
  cases utf8? bytes <;> rfl

theorem encodeParameter_integer : encodeParameter t.name id = .ok bytes ↔
    ∃ i, t.parse id = .ok i ∧ t.encode i = bytes := by
  have named : ParameterType.ofName? t.name = some (.integer t) := by cases t <;> rfl
  rw [encodeParameter, named]
  simp only [ParameterType.encode]
  cases t.parse id <;> simp

theorem encodeParameter_uuid : encodeParameter "uuid" id = .ok bytes ↔
    ∃ u, Uuid.parse? id = some u ∧ u.bytes = bytes := by
  rw [encodeParameter, ParameterType.ofName?]
  simp only [ParameterType.encode]
  cases Uuid.parse? id <;> simp

theorem encodeParameter_text : encodeParameter "text" id = .ok id.toUTF8.toList := rfl

end Columns

section Stored

variable {t : IntegerType} {id : String} {bytes : List UInt8} {i : Int}

theorem readId?_stored (length : bytes.length = t.width) :
    readId? t.name bytes = some (toString (denoted bytes)) := by
  rw [readId?_integer, IntegerType.decode?_eq length, Option.map_some]

/-- What is bound to an integer are the bytes that denote the number that the text spells. -/
theorem encodeParameter_integer_iff : encodeParameter t.name id = .ok bytes ↔
    bytes.length = t.width ∧ Spells id.toList (denoted bytes) := by
  rw [encodeParameter_integer]
  constructor
  · rintro ⟨i, read, written⟩
    obtain ⟨spelt, held⟩ := (t.parse_eq_ok_iff id i).mp read
    obtain ⟨length, rfl⟩ := (IntegerType.encode_eq_iff held).mp written
    exact ⟨length, spelt⟩
  · rintro ⟨length, spelt⟩
    have held := IntegerType.holds_denoted length
    exact ⟨denoted bytes, (t.parse_eq_ok_iff id _).mpr ⟨spelt, held⟩,
      (IntegerType.encode_eq_iff held).mpr ⟨length, rfl⟩⟩

/-- The integers of a type are those that its bytes denote. -/
theorem holds_iff_exists_denoted : t.holds i = true ↔ ∃ bytes, bytes.length = t.width ∧ denoted bytes = i := by
  constructor
  · intro held
    exact ⟨t.encode i, t.length_encode i, IntegerType.denoted_encode held⟩
  · rintro ⟨bytes, length, rfl⟩
    exact IntegerType.holds_denoted length

theorem holds_iff_pow : t.holds i = true ↔ -2 ^ (8 * t.width - 1) ≤ i ∧ i < 2 ^ (8 * t.width - 1) := by
  rw [IntegerType.holds_iff]
  cases t <;> rfl

/-- A stored key survives the way through its id. From the bytes of an integer its number is read in decimal,
and from those of a UUID its digits in groups; either id is bound as just these bytes. The bytes of an
integer type denote the numbers in its range. What a text is bound to it as are bytes that denote the
number it spells, and a number out of the range is refused. -/
theorem keys_bound_as_stored :
    (∀ (t : IntegerType) (bytes : List UInt8), bytes.length = t.width →
      readId? t.name bytes = some (toString (denoted bytes)) ∧
        encodeParameter t.name (toString (denoted bytes)) = .ok bytes) ∧
    (∀ (t : IntegerType) (i : Int), (-2 ^ (8 * t.width - 1) ≤ i ∧ i < 2 ^ (8 * t.width - 1)) ↔
      ∃ bytes, bytes.length = t.width ∧ denoted bytes = i) ∧
    (∀ bytes : List UInt8, bytes.length = 16 → ∃ id, readId? "uuid" bytes = some id ∧
      (id.toList.splitOn '-').map List.length = [8, 4, 4, 4, 12] ∧
      (id.toList.splitOn '-').flatten = hexOfBytes bytes ∧ encodeParameter "uuid" id = .ok bytes) ∧
    (∀ (t : IntegerType) (text : String) (bytes : List UInt8), encodeParameter t.name text = .ok bytes ↔
      bytes.length = t.width ∧ Spells text.toList (denoted bytes)) ∧
    ∀ (t : IntegerType) (text : String) (i : Int), Spells text.toList i →
      ¬(-2 ^ (8 * t.width - 1) ≤ i ∧ i < 2 ^ (8 * t.width - 1)) →
      ∃ e, encodeParameter t.name text = .error e := by
  refine ⟨?integers, ?range, ?uuids, fun _ _ _ => encodeParameter_integer_iff, ?refused⟩
  case integers =>
    intro t bytes length
    exact ⟨readId?_stored length, encodeParameter_integer_iff.mpr ⟨length, spells_toString _⟩⟩
  case range =>
    intro t i
    rw [← holds_iff_pow, holds_iff_exists_denoted]
  case uuids =>
    intro bytes length
    let u : Uuid := ⟨bytes, length⟩
    refine ⟨u.text, ?_, ?_, ?_, ?_⟩
    · rw [readId?_uuid, Uuid.ofBytes?_eq_some_iff.mpr (rfl : u.bytes = bytes), Option.map_some]
    · rw [u.splitOn_text, Uuid.length_cut u.length_hex]
      rfl
    · rw [u.splitOn_text, Uuid.flatten_cut u.length_hex]
    · exact encodeParameter_uuid.mpr ⟨u, u.parse?_text, rfl⟩
  case refused =>
    intro t text i spelt outside
    cases written : encodeParameter t.name text with
    | error e => exact ⟨e, rfl⟩
    | ok bytes =>
      obtain ⟨length, own⟩ := encodeParameter_integer_iff.mp written
      have same : i = denoted bytes := spelt.unique own
      exact absurd (holds_iff_pow.mp (IntegerType.holds_denoted length)) (same ▸ outside)

theorem least_key_bound_as_stored :
    readId? "int2" [0x80, 0] = some "-32768" ∧ encodeParameter "int2" "-32768" = .ok [0x80, 0] ∧
      (∃ e, encodeParameter "int2" "-32769" = .error e) ∧
      ∃ id, readId? "uuid" (List.replicate 16 0xab) = some id ∧
        encodeParameter "uuid" id = .ok (List.replicate 16 0xab) := by
  obtain ⟨integers, -, uuids, -, refused⟩ := keys_bound_as_stored
  have decimal : toString (denoted [0x80, 0]) = "-32768" := by decide +kernel
  have digits : IsDigits "32769".toList := ⟨by decide, List.all_eq_true.mp (by decide)⟩
  have below : Spells "-32769".toList (-32769) := spells_minus_iff.mpr ⟨digits, by decide⟩
  obtain ⟨read, bound⟩ := integers .int2 [0x80, 0] rfl
  obtain ⟨id, written, -, -, same⟩ := uuids (List.replicate 16 0xab) rfl
  rw [decimal] at read bound
  exact ⟨read, bound, refused .int2 _ _ below (by decide), id, written, same⟩

end Stored

section Utf8

theorem toList_loop (b : ByteArray) (i : Nat) (r : List UInt8) :
    ByteArray.toList.loop b i r = r.reverse ++ b.data.toList.drop i := by
  fun_induction ByteArray.toList.loop b i r with
  | case1 i r h ih =>
    have inside : i < b.data.toList.length := by simpa using h
    rw [ih, List.drop_eq_getElem_cons inside]
    simp [ByteArray.get!, h]
  | case2 i r h =>
    rw [List.drop_eq_nil_of_le (by simpa using h), List.append_nil]

theorem utf8?_toUTF8 (s : String) : utf8? s.toUTF8.toList = some s := by
  rw [utf8?, ByteArray.toList, toList_loop]
  exact dif_pos s.isValidUTF8

end Utf8

/-- The types of key columns that ids are bound to. -/
inductive KeyType where
  | integer (t : IntegerType)
  | uuid
  | text
  deriving DecidableEq, Repr

namespace KeyType

def name : KeyType → String
  | integer t => t.name
  | uuid => "uuid"
  | text => "text"

/-- That an id is spelled as keys of this type are written: an integer without a plus sign, without zeros in
front and not as `-0`, a UUID in groups of small digits. -/
def Canonical (k : KeyType) (id : String) : Prop :=
  match k with
  | integer _ => IsNormal id.toList
  | uuid => id.length = 36 ∧ ∀ c ∈ id.toList, c.isUpper = false
  | text => True

instance (k : KeyType) (id : String) : Decidable (k.Canonical id) :=
  match k with
  | integer _ => inferInstanceAs (Decidable (IsNormal _))
  | uuid => @instDecidableAnd _ _ _ (List.decidableBAll _ _)
  | text => inferInstanceAs (Decidable True)

variable {k : KeyType} {id : String} {bytes : List UInt8}

theorem canonical_of_readId? (read : readId? k.name bytes = some id) : k.Canonical id := by
  cases k with
  | integer t =>
    rw [name, readId?_integer, Option.map_eq_some_iff] at read
    obtain ⟨i, -, rfl⟩ := read
    exact (spells_toString i).toString_eq_iff.mp rfl
  | uuid =>
    rw [name, readId?_uuid, Option.map_eq_some_iff] at read
    obtain ⟨u, -, rfl⟩ := read
    exact (Uuid.text_eq_iff u.parse?_text).mp rfl
  | text => trivial

/-- A key is read as the id that it has been bound from if that is spelled as keys are written. -/
theorem readId?_of_canonical (bound : encodeParameter k.name id = .ok bytes) (canonical : k.Canonical id) :
    readId? k.name bytes = some id := by
  cases k with
  | integer t =>
    obtain ⟨length, spelt⟩ := encodeParameter_integer_iff.mp bound
    rw [name, readId?_stored length, Option.some.injEq, ← String.toList_inj]
    exact spelt.toString_eq_iff.mpr canonical
  | uuid =>
    obtain ⟨u, read, written⟩ := encodeParameter_uuid.mp bound
    rw [name, readId?_uuid, Uuid.ofBytes?_eq_some_iff.mpr written, Option.map_some,
      (Uuid.text_eq_iff read).mpr canonical]
  | text =>
    rw [name, encodeParameter_text, Except.ok.injEq] at bound
    rw [name, readId?_text, ← bound, utf8?_toUTF8]

end KeyType

section Rows

variable {type : String} {columns : List Column} {cells : List (Option (List UInt8))} {row : Row}

/-- Columns of other names leave a member as it is. -/
theorem get?_decodeRow {before : Row} {name : String} (others : ∀ column ∈ columns, column.name ≠ name)
    (decoded : decodeRow before columns cells = .ok row) : row.get? name = before.get? name := by
  induction columns generalizing before cells with
  | nil =>
    cases decoded
    rfl
  | cons column columns ih =>
    obtain ⟨other, others⟩ := List.forall_mem_cons.mp others
    cases cells with
    | nil =>
      cases decoded
      rfl
    | cons cell cells =>
      rw [decodeRow] at decoded
      split at decoded
      · rw [ih others decoded, Members.get?_insert_of_ne _ _ other.symm]
      · cases decoded

theorem decodeColumn?_null (type : String) : decodeColumn? type none = some .null := by
  rw [decodeColumn?.eq_def]
  cases ColumnType.ofName? type <;> rfl

/-- The id of a row is read from the first cell, if its key stands there. -/
theorem id?_decodeRow (others : ∀ column ∈ columns, column.name ≠ "id")
    (decoded : decodeRow [] (⟨"id", type⟩ :: columns) cells = .ok row) :
    row.id? = cells.head?.join.bind (readId? type) := by
  cases cells with
  | nil =>
    cases decoded
    rfl
  | cons cell cells =>
    rw [decodeRow] at decoded
    split at decoded
    · next value read =>
      rw [Row.id?, get?_decodeRow others decoded, Members.get?_insert_self, Option.bind_some, List.head?_cons]
      cases cell with
      | none =>
        rw [decodeColumn?_null, Option.some.injEq] at read
        exact read ▸ rfl
      | some bytes =>
        change value.idText? = (decodeColumn? type (some bytes)).bind Json.idText?
        rw [read, Option.bind_some]
    · cases decoded

/-- What holds of a result holds of what it was made of. -/
theorem exists_mem_iff_of_mapM {ε α β : Type} {f : α → Except ε β} {p : α → Prop} {q : β → Prop}
    (each : ∀ a b, f a = .ok b → (q b ↔ p a)) {l : List α} {l' : List β} (h : l.mapM f = .ok l') :
    (∃ b ∈ l', q b) ↔ ∃ a ∈ l, p a := by
  induction l generalizing l' with
  | nil =>
    cases h
    simp
  | cons a l ih =>
    rw [List.mapM_cons] at h
    cases first : f a with
    | error e => rw [first] at h; cases h
    | ok b =>
      cases rest : l.mapM f with
      | error e => rw [first, rest] at h; cases h
      | ok bs =>
        rw [first, rest] at h
        cases h
        rw [List.exists_mem_cons_iff, List.exists_mem_cons_iff, each a b first, ih rest]

/-- An id is in the rows of a result if it is read from the first cell of one of the server's rows. -/
theorem Server.exists_row_iff {s : Server} {q : Sql.Compiled} {rows : List Row} {id : String}
    (named : s.columns = ⟨"id", type⟩ :: columns) (others : ∀ column ∈ columns, column.name ≠ "id")
    (found : (s.query q).result = .ok rows) : (∃ row ∈ rows, row.id? = some id) ↔
      ∃ cells ∈ s.rows, cells.head?.join.bind (readId? type) = some id := by
  have decoded : s.rows.mapM (decodeRow [] s.columns) = .ok rows := by
    rw [Server.query.eq_def] at found
    split at found
    · cases found
    · cases found
    · cases found
    · exact found
  rw [named] at decoded
  exact exists_mem_iff_of_mapM (fun cells row made => by rw [id?_decodeRow others made]) decoded

end Rows

/-- An id that has been bound to a key is read from the key again exactly if it is spelled as keys of the
type are written. So it goes with the rows of an object query: an id whose row the database has found is
upserted if it is spelled so, and else it is deleted. -/
theorem found_again_iff_canonical {k : KeyType} {id : String} {bytes : List UInt8}
    (bound : encodeParameter k.name id = .ok bytes) :
    (readId? k.name bytes = some id ↔ k.Canonical id) ∧
    ∀ (f : Feed) (ids : List String) (s : Server) (type : String) (cell : Option (List UInt8))
      (rows : List Row), ids.Nodup → id ∈ ids → s.columns = [⟨"id", k.name⟩, ⟨"object", type⟩] →
      [some bytes, cell] ∈ s.rows → (s.query (f.objectQuery ids)).result = .ok rows →
      (id ∈ (Changes.ofRows f.options ids rows).upsert.map (·.id) ↔ k.Canonical id) ∧
      (id ∈ (Changes.ofRows f.options ids rows).delete ↔ ¬k.Canonical id) := by
  have read : readId? k.name bytes = some id ↔ k.Canonical id :=
    ⟨KeyType.canonical_of_readId?, KeyType.readId?_of_canonical bound⟩
  refine ⟨read, fun f ids s type cell rows nodup pending columns there found => ?_⟩
  have own : (∃ row ∈ rows, row.id? = some id) ↔ k.Canonical id := by
    rw [Server.exists_row_iff columns (by simp) found]
    constructor
    · -- Whatever row it is from, an id that has been read is spelled so.
      rintro ⟨cells, -, some_⟩
      obtain ⟨key, -, some_⟩ := Option.bind_eq_some_iff.mp some_
      exact KeyType.canonical_of_readId? some_
    · intro canonical
      exact ⟨_, there, read.mpr canonical⟩
  have verdict := Changes.isVerdict_ofRows f.options nodup rows
  rw [verdict.upserts, verdict.deletes, List.mem_filter, List.mem_filter, decide_eq_true_iff,
    decide_eq_true_iff, own, and_iff_right pending, and_iff_right pending]
  exact ⟨Iff.rfl, Iff.rfl⟩

/-- A server that has Ann with the key 7. -/
def guestBook : Server where
  parameterTypes := ["int4"]
  columns := [⟨"id", "int4"⟩, ⟨"object", "text"⟩]
  rows := [[some [0, 0, 0, 7], some [65, 110, 110]]]

theorem guest_found_again :
    readId? "int4" [0, 0, 0, 7] = some "7" ∧ ∃ rows,
      (guestBook.query (userNames.objectQuery ["7"])).result = .ok rows ∧
      "7" ∈ (Changes.ofRows userNames.options ["7"] rows).upsert.map (·.id) := by
  have bound : encodeParameter (KeyType.integer .int4).name "7" = .ok [0, 0, 0, 7] := by decide +kernel
  have canonical : (KeyType.integer .int4).Canonical "7" := by decide
  have found : (guestBook.query (userNames.objectQuery ["7"])).result =
      .ok [[("id", .int 7), ("object", .str "Ann")]] := rfl
  obtain ⟨read, decided⟩ := found_again_iff_canonical bound
  have sorted := decided userNames ["7"] guestBook "text" (some [65, 110, 110]) _ (by decide) (by decide) rfl
    (by decide) found
  exact ⟨read.mpr canonical, _, found, sorted.1.mpr canonical⟩

/-- An id with zeros in front finds Ann, who is deleted all the same. -/
theorem padded_guest_deleted :
    encodeParameter "int4" "007" = .ok [0, 0, 0, 7] ∧ readId? "int4" [0, 0, 0, 7] ≠ some "007" ∧ ∃ rows,
      (guestBook.query (userNames.objectQuery ["007"])).result = .ok rows ∧
      (guestBook.query (userNames.objectQuery ["007"])).bound = some [[0, 0, 0, 7]] ∧
      [some [0, 0, 0, 7], some [65, 110, 110]] ∈ guestBook.rows ∧
      Changes.ofRows userNames.options ["007"] rows = ⟨[], ["007"]⟩ := by
  have found : (guestBook.query (userNames.objectQuery ["007"])).result =
      .ok [[("id", .int 7), ("object", .str "Ann")]] := rfl
  exact ⟨by decide +kernel, by decide +kernel, _, found, rfl, by decide, rfl⟩

end EntityFeed.Postgres
