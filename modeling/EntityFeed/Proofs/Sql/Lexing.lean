import EntityFeed.Proofs.Sql.Token
import EntityFeed.Proofs.Text.Runs
import Mathlib

/-! How SQL is read. In a quoted identifier and in a literal the delimiter is written twice to stand
for itself, and every other character is itself. Nothing else is skipped or guessed, so a text that is
read has no comments and no literals with a prefix in it. -/
namespace EntityFeed.Sql

/-- A piece of SQL. Blanks count, so what has the same lexemes is laid out alike. -/
inductive Lexeme where
  | blank
  | word (w : String)
  | ident (name : String)
  | literal (value : String)
  | placeholder (n : Nat)
  | mark (c : Char)
  | cast
  deriving DecidableEq, Repr

def isWordStart (c : Char) : Bool := c.isAlpha || c == '_'

def isWordPart (c : Char) : Bool := c.isAlphanum || c == '_'

def marks : List Char := ['(', ')', ',', '.', '=', '*']

def delimiters : List Char := ' ' :: ':' :: marks

/-- Whether there is a delimiter in front, or nothing at all. -/
def isApart (after : List Char) : Bool := after.head?.all delimiters.contains

/-- A lexeme that only what follows it ends. A quote may not follow: what stands right before a quote
can change how it is read. -/
def bare? (x : Lexeme) (after : List Char) : Option (Lexeme × List Char) :=
  if isApart after then some (x, after) else none

/-- The first lexeme of a text and what follows it. -/
def lexeme? : List Char → Option (Lexeme × List Char)
  | [] => none
  | c :: rest =>
    if c = ' ' then some (.blank, rest)
    else if c = '"' then
      (undelimited? '"' (c :: rest)).map fun (name, after) => (.ident (String.ofList name), after)
    else if c = '\'' then
      (undelimited? '\'' (c :: rest)).map fun (value, after) => (.literal (String.ofList value), after)
    else if c = '$' then
      let digits := rest.takeWhile Char.isDigit
      if digits.isEmpty then none
      else bare? (.placeholder (Nat.ofDigitChars 10 digits 0)) (rest.dropWhile Char.isDigit)
    else if isWordStart c then
      bare? (.word (String.ofList (c :: rest.takeWhile isWordPart))) (rest.dropWhile isWordPart)
    else if c = ':' then if rest.head? = some ':' then some (.cast, rest.tail) else none
    else if c ∈ marks then some (.mark c, rest)
    else none

theorem suffix_of_undelimited?_body {mark : Char} {cs inner rest : List Char}
    (h : undelimited?.body mark cs = some (inner, rest)) : rest <:+ cs := by
  fun_induction undelimited?.body mark cs generalizing inner with
  | case1 => simp at h
  | case2 after ih =>
    obtain ⟨⟨more, r⟩, read, same⟩ := Option.map_eq_some_iff.mp h
    cases same
    exact (ih read).trans ((List.suffix_cons _ _).trans (List.suffix_cons _ _))
  | case3 =>
    cases h
    exact List.suffix_cons _ _
  | case4 =>
    cases h
    exact List.nil_suffix
  | case5 c rest _ ih =>
    obtain ⟨⟨more, r⟩, read, same⟩ := Option.map_eq_some_iff.mp h
    cases same
    exact (ih read).trans (List.suffix_cons _ _)

theorem suffix_of_undelimited? {mark c : Char} {cs inner rest : List Char}
    (h : undelimited? mark (c :: cs) = some (inner, rest)) : rest <:+ cs := by
  rw [undelimited?] at h
  split at h
  · exact suffix_of_undelimited?_body h
  · contradiction

theorem eq_of_bare? {x y : Lexeme} {after rest : List Char}
    (h : bare? x after = some (y, rest)) : rest = after := by
  unfold bare? at h
  split at h
  · cases h
    rfl
  · contradiction

theorem suffix_of_lexeme? {x : Lexeme} {c : Char} {cs rest : List Char}
    (h : lexeme? (c :: cs) = some (x, rest)) : rest <:+ cs := by
  rw [lexeme?] at h
  split_ifs at h
  · cases h
    exact List.suffix_refl _
  · obtain ⟨⟨name, r⟩, read, same⟩ := Option.map_eq_some_iff.mp h
    cases same
    exact suffix_of_undelimited? read
  · obtain ⟨⟨value, r⟩, read, same⟩ := Option.map_eq_some_iff.mp h
    cases same
    exact suffix_of_undelimited? read
  · dsimp only at h
    split at h
    · contradiction
    · rw [eq_of_bare? h]
      exact List.dropWhile_suffix _
  · rw [eq_of_bare? h]
    exact List.dropWhile_suffix _
  · cases h
    exact List.tail_suffix _
  · cases h
    exact List.suffix_refl _

/-- The lexemes of a text, if it can be read to its end. -/
def lex : List Char → Option (List Lexeme)
  | [] => some []
  | c :: cs =>
    match h : lexeme? (c :: cs) with
    | none => none
    | some (x, rest) =>
      have := Nat.lt_succ_of_le (suffix_of_lexeme? h).length_le
      (lex rest).map (x :: ·)
termination_by cs => cs.length

theorem lex_of_lexeme? {x : Lexeme} {cs rest : List Char} (h : lexeme? cs = some (x, rest)) :
    lex cs = (lex rest).map (x :: ·) := by
  cases cs with
  | nil => contradiction
  | cons c cs =>
    rw [lex]
    split
    · rename_i refused
      rw [h] at refused
      contradiction
    · rename_i y after read
      rw [h] at read
      cases read
      rfl

/-- The words that queries are written with. -/
def keywords : List String :=
  ["SELECT", "FROM", "LEFT", "INNER", "JOIN", "ON", "AS", "WHERE", "IN", "FALSE", "GROUP", "BY",
    "UNION", "JSON_BUILD_OBJECT", "JSON_AGG", "COALESCE", "json"]

namespace Lexeme

/-- A lexeme as text, given what is written for a placeholder. -/
def write (spell : Nat → String) : Lexeme → String
  | blank => " "
  | word w => w
  | ident name => quoteIdent name
  | literal value => quoteLiteral value
  | placeholder n => spell n
  | mark c => String.ofList [c]
  | cast => "::"

def text (x : Lexeme) : String := x.write fun n => "$" ++ toString n

/-- Whether a lexeme ends by itself. -/
def closed : Lexeme → Bool
  | blank | mark _ | cast => true
  | _ => false

/-- Whether a word or a mark is one that queries are written with. -/
def valid : Lexeme → Bool
  | word w => keywords.contains w
  | mark c => marks.contains c
  | _ => true

end Lexeme

section Reading

variable {after : List Char}

theorem head?_ne_of_isApart {c : Char} (apart : isApart after = true) (other : c ∉ delimiters) :
    after.head? ≠ some c := by
  intro h
  simp [isApart, h, other] at apart

/-- A delimiter ends a run of characters that are none. -/
theorem span_of_isApart {p : Char → Bool} (run : List Char) (apart : isApart after = true)
    (other : delimiters.any p = false) (all : ∀ c ∈ run, p c = true) :
    (run ++ after).takeWhile p = run ∧ (run ++ after).dropWhile p = after := by
  refine Text.span_of_all after all ?_
  cases after with
  | nil => simp
  | cons c rest =>
    rintro _ ⟨⟩
    exact Bool.eq_false_iff.mpr (List.any_eq_false.mp other c (List.contains_iff_mem.mp apart))

theorem bare?_of_isApart (x : Lexeme) (apart : isApart after = true) :
    bare? x after = some (x, after) := by
  rw [bare?, if_pos apart]

theorem lexeme?_quoteIdent (name : String) (apart : isApart after = true) :
    lexeme? ((quoteIdent name).toList ++ after) = some (.ident name, after) := by
  have read := undelimited?_delimited '"' name after (head?_ne_of_isApart apart (by decide))
  simp only [quoteIdent, delimited, String.toList_ofList, List.cons_append] at read ⊢
  rw [lexeme?, if_neg (by decide), if_pos rfl, read]
  simp

theorem lexeme?_quoteLiteral (value : String) (apart : isApart after = true) :
    lexeme? ((quoteLiteral value).toList ++ after) = some (.literal value, after) := by
  have read := undelimited?_delimited '\'' value after (head?_ne_of_isApart apart (by decide))
  simp only [quoteLiteral, delimited, String.toList_ofList, List.cons_append] at read ⊢
  rw [lexeme?, if_neg (by decide), if_neg (by decide), if_pos rfl, read]
  simp

theorem lexeme?_placeholder (n : Nat) (apart : isApart after = true) :
    lexeme? (("$" ++ toString n).toList ++ after) = some (.placeholder n, after) := by
  obtain ⟨digits, rest⟩ := span_of_isApart (p := Char.isDigit) (Nat.toDigits 10 n) apart
    (by decide) (Text.isDigit_toDigits n)
  rw [Token.toList_placeholder, List.cons_append, lexeme?, if_neg (by decide), if_neg (by decide),
    if_neg (by decide), if_pos rfl, digits, rest]
  simp [Nat.toDigits_ne_nil, Nat.ofDigitChars_ten_toDigits, bare?_of_isApart _ apart]

theorem lexeme?_word {w : String} (starts : w.toList.head?.any isWordStart = true)
    (all : w.toList.tail.all isWordPart = true) (apart : isApart after = true) :
    lexeme? (w.toList ++ after) = some (.word w, after) := by
  cases h : w.toList with
  | nil => simp [h] at starts
  | cons c cs =>
    have starts : isWordStart c = true := by simpa [h] using starts
    rw [h] at all
    obtain ⟨part, rest⟩ := span_of_isApart (p := isWordPart) cs apart (by decide)
      (List.all_eq_true.mp all)
    have other (d : Char) (hd : isWordStart d = false) : c ≠ d := by
      rintro rfl
      simp [hd] at starts
    rw [List.cons_append, lexeme?, if_neg (other _ (by decide)), if_neg (other _ (by decide)),
      if_neg (other _ (by decide)), if_neg (other _ (by decide)), if_pos starts, part, rest,
      bare?_of_isApart _ apart, ← h, String.ofList_toList]

theorem word_of_keyword : ∀ w ∈ keywords, w.toList.head?.any isWordStart = true ∧
    w.toList.tail.all isWordPart = true := by
  decide

theorem lexeme?_mark {c : Char} (valid : c ∈ marks) (after : List Char) :
    lexeme? (c :: after) = some (.mark c, after) := by
  have cases : c = '(' ∨ c = ')' ∨ c = ',' ∨ c = '.' ∨ c = '=' ∨ c = '*' := by
    simpa [marks] using valid
  rcases cases with rfl | rfl | rfl | rfl | rfl | rfl <;> rfl

/-- A lexeme is read back, unless something follows it that would belong to it. -/
theorem lexeme?_text {x : Lexeme} (valid : x.valid = true)
    (ends : x.closed = true ∨ isApart after = true) :
    lexeme? (x.text.toList ++ after) = some (x, after) := by
  have apart (h : x.closed = false) : isApart after = true := ends.resolve_left (by simp [h])
  cases x with
  | blank => rfl
  | word w =>
    obtain ⟨starts, all⟩ := word_of_keyword w (List.contains_iff_mem.mp valid)
    exact lexeme?_word starts all (apart rfl)
  | ident name => exact lexeme?_quoteIdent name (apart rfl)
  | literal value => exact lexeme?_quoteLiteral value (apart rfl)
  | placeholder n => exact lexeme?_placeholder n (apart rfl)
  | mark c =>
    rw [Lexeme.text, Lexeme.write, String.toList_ofList]
    exact lexeme?_mark (List.contains_iff_mem.mp valid) after
  | cast => rfl

end Reading

namespace Lexeme

/-- Lexemes as text, given what is written for placeholders. -/
def writeAll (spell : Nat → String) (xs : List Lexeme) : String := String.join (xs.map (write spell))

def textOf (xs : List Lexeme) : String := String.join (xs.map text)

/-- That lexemes written without anything between them are kept apart. -/
structure Readable (xs : List Lexeme) : Prop where
  valid : ∀ x ∈ xs, x.valid = true
  apart : xs.IsChain fun x y => x.closed = true ∨ y.closed = true

instance (xs : List Lexeme) : Decidable (Readable xs) :=
  decidable_of_iff
    ((∀ x ∈ xs, x.valid = true) ∧ xs.IsChain fun x y => x.closed = true ∨ y.closed = true)
    ⟨fun h => ⟨h.1, h.2⟩, fun h => ⟨h.valid, h.apart⟩⟩

theorem isApart_of_closed {x : Lexeme} (valid : x.valid = true) (closed : x.closed = true)
    (after : List Char) : isApart (x.text.toList ++ after) = true := by
  cases x with
  | blank | cast => rfl
  | mark c =>
    have among : c ∈ delimiters := .tail _ (.tail _ (List.contains_iff_mem.mp valid))
    simp [isApart, text, write, among]
  | word | ident | literal | placeholder => contradiction

/-- Lexemes that are kept apart are read back from their text. -/
theorem Readable.lex_textOf {xs : List Lexeme} (h : Readable xs) :
    lex (textOf xs).toList = some xs := by
  induction xs with
  | nil =>
    rw [textOf, List.map_nil, String.join_nil, String.toList_empty, lex]
  | cons x xs ih =>
    obtain ⟨valid, apart⟩ := h
    obtain ⟨here, later⟩ := List.forall_mem_cons.mp valid
    have behind := ih ⟨later, apart.tail⟩
    have ends : x.closed = true ∨ isApart (textOf xs).toList = true := by
      cases xs with
      | nil => exact .inr rfl
      | cons y ys =>
        refine (List.isChain_cons_cons.mp apart).1.imp_right fun closed => ?_
        have := isApart_of_closed (later y List.mem_cons_self) closed (textOf ys).toList
        simpa [textOf] using this
    have whole : (textOf (x :: xs)).toList = x.text.toList ++ (textOf xs).toList := by
      simp [textOf]
    rw [whole, lex_of_lexeme? (lexeme?_text here ends), behind]
    rfl

example : lex "\"a\"\"$1\" = '--\\'".toList =
    some [.ident "a\"$1", .blank, .mark '=', .blank, .literal "--\\"] := by
  cbv

namespace Readable

variable {xs ys : List Lexeme}

theorem single {x : Lexeme} (valid : x.valid = true) : Readable [x] :=
  ⟨by simpa using valid, .singleton x⟩

theorem append (hx : Readable xs) (hy : Readable ys)
    (ends : xs.getLast?.all closed = true ∨ ys.head?.all closed = true) : Readable (xs ++ ys) := by
  refine ⟨?_, List.isChain_append.mpr ⟨hx.apart, hy.apart, fun x last y first => ?_⟩⟩
  · intro x h
    exact (List.mem_append.mp h).elim (hx.valid x) (hy.valid x)
  · refine ends.imp (fun closed => ?_) fun closed => ?_
    · simpa [Option.mem_def.mp last] using closed
    · simpa [Option.mem_def.mp first] using closed

/-- Lexemes that keep apart what stands on their sides. -/
def Separates (sep : List Lexeme) : Prop :=
  Readable sep ∧ sep.head?.any closed = true ∧ sep.getLast?.any closed = true

instance (sep : List Lexeme) : Decidable (Separates sep) := inferInstanceAs (Decidable (_ ∧ _))

variable {sep : List Lexeme}

theorem separated (hx : Readable xs) (hs : Separates sep) (hy : Readable ys) :
    Readable (xs ++ (sep ++ ys)) := by
  obtain ⟨readable, first, last⟩ := hs
  cases sep with
  | nil => contradiction
  | cons c cs =>
    refine hx.append (readable.append hy (.inl ?_)) (.inr first)
    cases hl : (c :: cs).getLast? with
    | none => rfl
    | some d => rwa [hl] at last

theorem enclosed {opening closing : List Lexeme} (first : Readable opening)
    (opens : opening.getLast?.all closed = true) (hx : Readable xs) (last : Readable closing)
    (closes : closing.head?.all closed = true) : Readable (opening ++ (xs ++ closing)) :=
  first.append (hx.append last (.inr closes)) (.inl opens)

theorem intercalate (hs : Separates sep) {items : List (List Lexeme)}
    (all : ∀ item ∈ items, Readable item) : Readable (sep.intercalate items) := by
  induction items with
  | nil => exact (by decide : Readable [])
  | cons item rest ih =>
    obtain ⟨here, later⟩ := List.forall_mem_cons.mp all
    cases rest with
    | nil => simpa using here
    | cons next rest =>
      rw [List.intercalate_cons_cons, List.append_assoc]
      exact here.separated hs (ih later)

/-- Lexemes that may follow any others. -/
def Trails (xs : List Lexeme) : Prop := Readable xs ∧ xs.head?.all closed = true

instance (xs : List Lexeme) : Decidable (Trails xs) := inferInstanceAs (Decidable (_ ∧ _))

theorem Trails.append (hx : Trails xs) (hy : Trails ys) : Trails (xs ++ ys) := by
  refine ⟨hx.1.append hy.1 (.inr hy.2), ?_⟩
  cases xs with
  | nil => exact hy.2
  | cons x xs => exact hx.2

end Readable
end Lexeme
end EntityFeed.Sql
