import EntityFeed.Proofs.Text.Separation
import EntityFeed.Sql.Builder
import Mathlib.Data.List.Forall2
import Mathlib.Data.List.GetD

/-! The text of a statement as a template. Written out, a template is the text of its clauses with the
values and the attached statements already in their places. The numbers in it are the places of the
values in their list. -/
namespace EntityFeed.Sql

section Fill

variable {α β : Type}

@[simp] theorem fill_nil (f : α → String) : fill f [] = "" := rfl

@[simp] theorem fill_text (f : α → String) (s : String) (parts : List (Part α)) :
    fill f (.text s :: parts) = s ++ fill f parts :=
  String.join_cons

@[simp] theorem fill_value (f : α → String) (v : α) (parts : List (Part α)) :
    fill f (.value v :: parts) = f v ++ fill f parts :=
  String.join_cons

@[simp] theorem fill_append (f : α → String) (p q : List (Part α)) :
    fill f (p ++ q) = fill f p ++ fill f q := by
  simp [fill]

theorem fill_map (f : β → String) (g : α → β) (parts : List (Part α)) :
    fill f (parts.map (Part.map g)) = fill (f ∘ g) parts := by
  induction parts with
  | nil => rfl
  | cons p rest ih => cases p <;> simp [Part.map, ih]

theorem fill_congr {f g : α → String} {parts : List (Part α)}
    (same : ∀ v, .value v ∈ parts → f v = g v) : fill f parts = fill g parts := by
  induction parts with
  | nil => rfl
  | cons p rest ih =>
    have behind : fill f rest = fill g rest := ih fun v hv => same v (.tail _ hv)
    cases p with
    | text s => simp [behind]
    | value v => simp [behind, same v (.head _)]

theorem infix_fill_of_mem {f : α → String} {parts : List (Part α)} {v : α}
    (mem : .value v ∈ parts) : (f v).toList <:+: (fill f parts).toList := by
  obtain ⟨before, behind, rfl⟩ := List.append_of_mem mem
  rw [fill_append, fill_value, String.toList_append, String.toList_append]
  exact (List.prefix_append _ _).isInfix.trans (List.suffix_append _ _).isInfix

theorem fill_flatMap {γ : Type} (f : α → String) (p : γ → List (Part α)) (xs : List γ) :
    fill f (xs.flatMap p) = String.join (xs.map fun x => fill f (p x)) := by
  induction xs with
  | nil => rfl
  | cons x rest ih => simp [ih]

theorem fill_intercalate (f : α → String) (separator : String) (items : List (List (Part α))) :
    fill f (List.intercalate [.text separator] items) =
      String.intercalate separator (items.map (fill f)) := by
  induction items with
  | nil => simp
  | cons first rest ih =>
    cases rest with
    | nil => simp
    | cons next rest =>
      rw [List.intercalate_cons_cons, List.map_cons, List.map_cons, String.intercalate_cons_cons]
      simp [ih, String.append_assoc]

theorem fill_clause (f : α → String) (keyword separator : String) (items : List (List (Part α))) :
    fill f (clause keyword separator items) = Texts.clause keyword separator (items.map (fill f)) := by
  cases items with
  | nil => rfl
  | cons first rest => simp [clause, Texts.clause, fill_intercalate]

end Fill

/-- A fragment as text, given the texts of the attached statements. -/
def Fragment.written (subs : List String) (f : Fragment) : String :=
  String.join (f.map fun
    | .text s => s
    | .attached i => subs.getD i "")

theorem Fragment.written_ofText (subs : List String) (s : String) :
    (Fragment.ofText s).written subs = s := by
  simp [written, ofText]

/-- Clauses as texts, given the texts of the values of each condition and of the attached
statements. -/
def Clauses.written (labels : List (List String)) (subs : List String) (c : Clauses) : Texts where
  selected := c.selected.map (·.written subs)
  source := c.source.map (·.written subs)
  joins := c.joins.map fun j =>
    Builder.joinText j.kind (j.table.written subs) (j.left.written subs) (j.right.written subs)
  conditions := List.zipWith (fun d => Builder.predicate (d.column.written subs)) c.conditions labels
  grouping := c.grouping.map (·.written subs)
  unions := c.unions.map fun i => subs.getD i ""

section Expansion

variable {α : Type} (f : α → String) (subs : List (List (Part α)))

theorem fill_getD (i : Nat) : fill f (subs.getD i []) = (subs.map (fill f)).getD i "" :=
  (List.getD_map subs [] (fill f)).symm

theorem Fragment.fill_expand (p : Fragment) :
    fill f (p.expand subs) = p.written (subs.map (fill f)) := by
  rw [Fragment.expand, fill_flatMap, Fragment.written]
  congr 1
  apply List.map_congr_left
  rintro (s | i) -
  · simp
  · exact fill_getD f subs i

theorem Join.fill_expand (j : Join) :
    fill f (j.expand subs) = " " ++ Builder.joinText j.kind (j.table.written (subs.map (fill f)))
      (j.left.written (subs.map (fill f))) (j.right.written (subs.map (fill f))) := by
  simp [Join.expand, Builder.joinText, Fragment.fill_expand, String.append_assoc]

theorem fill_labels (labels : List α) :
    fill f (commaList (labels.map fun v => [.value v])) =
      String.intercalate ", " (labels.map f) := by
  rw [commaList, fill_intercalate, List.map_map]
  congr 2

theorem Condition.fill_expand (c : Condition) (labels : List α) :
    fill f (c.expand subs labels) =
      Builder.predicate (c.column.written (subs.map (fill f))) (labels.map f) := by
  match labels with
  | [] => rfl
  | [v] => simp [Condition.expand, Builder.predicate, Fragment.fill_expand, String.append_assoc]
  | v :: w :: rest =>
    rw [Condition.expand]
    · simp only [fill_append, fill_text, fill_labels, Fragment.fill_expand, fill_nil]
      simp [Builder.predicate, String.append_assoc]
    all_goals simp

/-- A template written out is the text of its clauses written out. -/
theorem Clauses.fill_expand (c : Clauses) (labels : List (List α)) :
    fill f (c.expand labels subs) =
      (c.written (labels.map (·.map f)) (subs.map (fill f))).text := by
  have selected : fill f (if c.selected.isEmpty then [.text "*"] else
      commaList (c.selected.map (·.expand subs))) =
      if c.selected.isEmpty then "*" else
        String.intercalate ", " (c.selected.map (·.written (subs.map (fill f)))) := by
    split
    · rfl
    · simp [commaList, fill_intercalate, Fragment.fill_expand, Function.comp_def]
  have conditions : (List.zipWith (Condition.expand subs) c.conditions labels).map (fill f) =
      List.zipWith (fun d => Builder.predicate (d.column.written (subs.map (fill f))))
        c.conditions (labels.map (·.map f)) := by
    simp [List.map_zipWith, List.zipWith_map_right, Condition.fill_expand]
  rw [Clauses.expand]
  simp only [fill_append, fill_text, selected, fill_clause, conditions, fill_flatMap,
    Join.fill_expand, fill_getD]
  cases hs : c.source <;>
    simp [Clauses.written, Texts.text, hs, Fragment.fill_expand, Function.comp_def,
      String.append_assoc, -List.getD_eq_getElem?_getD]

theorem Clauses.fill_expand_map {β : Type} (g : β → α) (c : Clauses) (labels : List (List β))
    (subs : List (List (Part β))) :
    fill f (c.expand (labels.map (·.map g)) (subs.map (·.map (Part.map g)))) =
      fill (f ∘ g) (c.expand labels subs) := by
  rw [Clauses.fill_expand, Clauses.fill_expand, List.map_map, List.map_map]
  congr 2
  · exact List.map_congr_left fun l _ => List.map_map
  · exact List.map_congr_left fun parts _ => fill_map f g parts

end Expansion

section Origins

variable {α : Type}

/-- What clauses have around their fragments. -/
def clauseTexts : List String :=
  ["SELECT ", "*", ", ", " FROM ", " LEFT JOIN ", " INNER JOIN ", " ON ", " = ", "FALSE", " IN (", ")",
    " WHERE ", " AND ", " GROUP BY ", " UNION "]

/-- The fragments that are written out. The column of a condition without values is not. -/
def Clauses.fragments (c : Clauses) : List Fragment :=
  c.selected ++ c.source.toList ++ c.joins.flatMap (fun j => [j.table, j.left, j.right]) ++
    (c.conditions.filter (!·.values.isEmpty)).map (·.column) ++ c.grouping

/-- That there is a label for each value of each condition. -/
def Clauses.Labelled (c : Clauses) (labels : List (List α)) : Prop :=
  List.Forall₂ (fun d l => l.length = d.values.length) c.conditions labels

theorem Clauses.Labelled.map {β : Type} {c : Clauses} {labels : List (List α)} (h : c.Labelled labels)
    (f : α → β) : c.Labelled (labels.map (·.map f)) :=
  List.forall₂_map_right_iff.mpr (h.imp fun _ _ same => by rw [List.length_map, same])

theorem Clauses.labelled_numberFrom (c : Clauses) (start : Nat) :
    c.Labelled (numberFrom start c.conditions) := by
  unfold Labelled
  generalize c.conditions = cs
  induction cs generalizing start with
  | nil => exact .nil
  | cons d rest ih => exact .cons (List.length_range' ..) (ih _)

/-- Where the parts of a template come from. -/
inductive Clauses.Origin (c : Clauses) (labels : List (List α)) (subs : List (List (Part α))) :
    Part α → Prop
  | around {s : String} (h : s ∈ clauseTexts) : Origin c labels subs (.text s)
  | fragment {f : Fragment} {s : String} (hf : f ∈ c.fragments) (hs : .text s ∈ f) :
    Origin c labels subs (.text s)
  | label {l : List α} {v : α} (hl : l ∈ labels) (hv : v ∈ l) : Origin c labels subs (.value v)
  | attached {sub : List (Part α)} {p : Part α} (hsub : sub ∈ subs) (hp : p ∈ sub) :
    Origin c labels subs p

namespace Clauses

variable {c : Clauses} {labels : List (List α)} {subs : List (List (Part α))} {p : Part α}

theorem origin_intercalate {separator : String} {items : List (List (Part α))}
    (between : separator ∈ clauseTexts) (each : ∀ item ∈ items, ∀ p ∈ item, c.Origin labels subs p)
    (mem : p ∈ List.intercalate [.text separator] items) : c.Origin labels subs p := by
  obtain here | ⟨item, among, mem⟩ := Text.of_mem_intercalate mem
  · rw [List.mem_singleton.mp here]
    exact .around between
  · exact each item among p mem

theorem origin_clause {keyword separator : String} {items : List (List (Part α))}
    (front : keyword ∈ clauseTexts) (between : separator ∈ clauseTexts)
    (each : ∀ item ∈ items, ∀ p ∈ item, c.Origin labels subs p)
    (mem : p ∈ clause keyword separator items) : c.Origin labels subs p := by
  unfold clause at mem
  split at mem
  · simp at mem
  · obtain rfl | mem := List.mem_cons.mp mem
    · exact .around front
    · exact origin_intercalate between each mem

theorem origin_getD {i : Nat} (mem : p ∈ subs.getD i []) : c.Origin labels subs p := by
  by_cases inside : i < subs.length
  · rw [List.getD_eq_getElem _ _ inside] at mem
    exact .attached (List.getElem_mem inside) mem
  · rw [List.getD_eq_default _ _ (by omega)] at mem
    simp at mem

theorem origin_fragment {f : Fragment} (hf : f ∈ c.fragments) (mem : p ∈ f.expand subs) :
    c.Origin labels subs p := by
  obtain ⟨s | i, piece, mem⟩ := List.mem_flatMap.mp mem
  · rw [List.mem_singleton.mp mem]
    exact .fragment hf piece
  · exact origin_getD mem

theorem origin_join {j : Join} (hj : j ∈ c.joins) (mem : p ∈ j.expand subs) :
    c.Origin labels subs p := by
  have parts {f : Fragment} (hf : f ∈ [j.table, j.left, j.right]) : f ∈ c.fragments := by
    simp only [fragments, List.mem_append]
    exact .inl (.inl (.inr (List.mem_flatMap.mpr ⟨j, hj, hf⟩)))
  have opening : " " ++ j.kind.keyword ++ " " ∈ clauseTexts := by
    cases j.kind <;> decide
  simp only [Join.expand, List.mem_cons, List.cons_append, List.mem_append] at mem
  obtain rfl | (table | rfl | left) | rfl | right := mem
  · exact .around opening
  · exact origin_fragment (parts (.head _)) table
  · exact .around (by decide)
  · exact origin_fragment (parts (.tail _ (.head _))) left
  · exact .around (by decide)
  · exact origin_fragment (parts (.tail _ (.tail _ (.head _)))) right

theorem origin_condition {d : Condition} (hd : d ∈ c.conditions) {l : List α} (hl : l ∈ labels)
    (labelled : l.length = d.values.length) (mem : p ∈ d.expand subs l) : c.Origin labels subs p := by
  have column (some_ : l ≠ []) : d.column ∈ c.fragments := by
    have written : d ∈ c.conditions.filter (!·.values.isEmpty) := by
      refine List.mem_filter.mpr ⟨hd, ?_⟩
      have := List.length_pos_of_ne_nil some_
      simpa [← List.length_eq_zero_iff] using (by omega : d.values.length ≠ 0)
    simp only [fragments, List.mem_append]
    exact .inl (.inr (List.mem_map_of_mem written))
  match l with
  | [] =>
    rw [List.mem_singleton.mp mem]
    exact .around (by decide)
  | [v] =>
    simp only [Condition.expand, List.mem_append, List.mem_cons, List.not_mem_nil, or_false] at mem
    obtain front | rfl | rfl := mem
    · exact origin_fragment (column (by simp)) front
    · exact .around (by decide)
    · exact .label hl (.head _)
  | v :: w :: rest =>
    rw [Condition.expand] at mem
    · simp only [List.mem_append, List.mem_cons, List.not_mem_nil, or_false] at mem
      obtain (front | rfl | among) | rfl := mem
      · exact origin_fragment (column (by simp)) front
      · exact .around (by decide)
      · refine origin_intercalate (by decide) (fun item isLabel p mem => ?_) among
        obtain ⟨x, here, rfl⟩ := List.mem_map.mp isLabel
        rw [List.mem_singleton.mp mem]
        exact .label hl here
      · exact .around (by decide)
    all_goals simp

theorem origin_of_mem_expand (labelled : c.Labelled labels) (mem : p ∈ c.expand labels subs) : c.Origin labels subs p := by
  simp only [expand, List.mem_cons, List.mem_append] at mem
  obtain (((((rfl | selected) | source) | joins) | conditions) | grouping) | unions := mem
  · exact .around (by decide)
  · split at selected
    · rw [List.mem_singleton.mp selected]
      exact .around (by decide)
    · refine origin_intercalate (by decide) (fun item among p mem => ?_) selected
      obtain ⟨f, hf, rfl⟩ := List.mem_map.mp among
      exact origin_fragment (by simp [fragments, hf]) mem
  · cases table : c.source with
    | none => simp [table] at source
    | some f =>
      simp only [table, List.mem_cons] at source
      obtain rfl | mem := source
      · exact .around (by decide)
      · exact origin_fragment (by simp [fragments, table]) mem
  · obtain ⟨j, hj, mem⟩ := List.mem_flatMap.mp joins
    exact origin_join hj mem
  · refine origin_clause (by decide) (by decide) (fun item among p mem => ?_) conditions
    rw [← List.map_uncurry_zip_eq_zipWith] at among
    obtain ⟨⟨d, l⟩, paired, rfl⟩ := List.mem_map.mp among
    exact origin_condition (List.of_mem_zip paired).1 (List.of_mem_zip paired).2
      (List.forall₂_zip labelled paired) mem
  · refine origin_clause (by decide) (by decide) (fun item among p mem => ?_) grouping
    obtain ⟨f, hf, rfl⟩ := List.mem_map.mp among
    exact origin_fragment (by simp [fragments, hf]) mem
  · obtain ⟨i, -, mem⟩ := List.mem_flatMap.mp unions
    obtain rfl | mem := List.mem_cons.mp mem
    · exact .around (by decide)
    · exact origin_getD mem

/-- What a template writes for a value is one of its labels or comes from an attached statement. -/
theorem mem_expand (labelled : c.Labelled labels) {v : α} (mem : .value v ∈ c.expand labels subs) :
    (∃ l ∈ labels, v ∈ l) ∨ ∃ sub ∈ subs, .value v ∈ sub := by
  cases origin_of_mem_expand labelled mem with
  | label hl hv => exact .inl ⟨_, hl, hv⟩
  | attached hsub hp => exact .inr ⟨_, hsub, hp⟩

end Clauses

theorem exists_of_mem_map_value {β : Type} {g : α → β} {parts : List (Part α)} {w : β}
    (mem : .value w ∈ parts.map (Part.map g)) : ∃ v, .value v ∈ parts ∧ g v = w := by
  obtain ⟨s | v, mem, same⟩ := List.mem_map.mp mem
  · simp [Part.map] at same
  · exact ⟨v, mem, by simpa [Part.map] using same⟩

theorem text_mem_of_mem_map {β : Type} {g : α → β} {parts : List (Part α)} {x : String}
    (mem : .text x ∈ parts.map (Part.map g)) : .text x ∈ parts := by
  obtain ⟨s | v, here, same⟩ := List.mem_map.mp mem
  · obtain rfl : s = x := by simpa [Part.map] using same
    exact here
  · simp [Part.map] at same

end Origins

/-- That a function gives the elements of a list by their numbers, the first of them `start`. -/
def Labels {α : Type} (label : Nat → α) (start : Nat) (xs : List α) : Prop :=
  (List.range' start xs.length).map label = xs

namespace Labels

variable {α β : Type} {label : Nat → α} {start : Nat} {xs ys : List α}

theorem append_iff : Labels label start (xs ++ ys) ↔
    Labels label start xs ∧ Labels label (start + xs.length) ys := by
  unfold Labels
  rw [List.length_append, ← List.range'_append_1, List.map_append]
  refine ⟨fun h => List.append_inj h (by simp), fun ⟨front, behind⟩ => ?_⟩
  rw [front, behind]

theorem cons_iff {x : α} : Labels label start (x :: xs) ↔
    label start = x ∧ Labels label (start + 1) xs := by
  simp [Labels, List.range'_succ]

theorem map (f : α → β) (h : Labels label start xs) : Labels (f ∘ label) start (xs.map f) := by
  unfold Labels at h ⊢
  rw [List.length_map, ← List.map_map, h]

theorem mem {k : Nat} (h : Labels label start xs) (first : start ≤ k) (last : k < start + xs.length) :
    label k ∈ xs := by
  rw [← h]
  exact List.mem_map_of_mem (List.mem_range'_1.mpr ⟨first, last⟩)

theorem of_getD (xs : List α) (start : Nat) (x : α) :
    Labels (fun k => xs.getD (k - start) x) start xs := by
  apply List.ext_getElem (by simp)
  intro i _ inside
  simp [inside]

end Labels

theorem length_numberFrom (start : Nat) (cs : List Condition) :
    (numberFrom start cs).length = cs.length := by
  induction cs generalizing start with
  | nil => rfl
  | cons c rest ih => simp [numberFrom, ih]

theorem numberFrom_append (start : Nat) (cs ds : List Condition) :
    numberFrom start (cs ++ ds) =
      numberFrom start cs ++ numberFrom (start + (cs.flatMap (·.values)).length) ds := by
  induction cs generalizing start with
  | nil => simp [numberFrom]
  | cons c rest ih => simp [numberFrom, ih, Nat.add_assoc]

/-- The numbers given to the values of conditions are those of the list of all values. -/
theorem map_numberFrom {α : Type} {label : Nat → α} {start : Nat} (f : String → α)
    (cs : List Condition) (h : Labels label start ((cs.flatMap (·.values)).map f)) :
    (numberFrom start cs).map (·.map label) = cs.map (·.values.map f) := by
  induction cs generalizing start with
  | nil => rfl
  | cons c rest ih =>
    rw [List.flatMap_cons, List.map_append, Labels.append_iff] at h
    obtain ⟨here, behind⟩ := h
    simp only [Labels, List.length_map] at here
    rw [List.length_map] at behind
    simp [numberFrom, here, ih behind]

theorem numberFrom_bounds {start k : Nat} {cs : List Condition} {l : List Nat}
    (among : l ∈ numberFrom start cs) (mem : k ∈ l) :
    start ≤ k ∧ k < start + (cs.flatMap (·.values)).length := by
  induction cs generalizing start with
  | nil => simp [numberFrom] at among
  | cons c rest ih =>
    rw [List.flatMap_cons, List.length_append]
    obtain rfl | among := List.mem_cons.mp among
    · have := List.mem_range'_1.mp mem
      omega
    · have := ih among
      omega

namespace Statement

mutual

/-- The numbers in a statement's text are those of its values. -/
theorem numbered_bounds (s : Statement) {start k : Nat} (mem : .value k ∈ s.numbered start) :
    start ≤ k ∧ k < start + s.values.length :=
  match s with
  | ⟨c, subs⟩ => by
    rw [numbered] at mem
    rw [values, List.length_append]
    obtain ⟨l, among, mem⟩ | ⟨sub, among, mem⟩ :=
      Clauses.mem_expand (c.labelled_numberFrom start) mem
    · have := numberFrom_bounds among mem
      rw [Clauses.values]
      omega
    · have := numberedAll_bounds subs among mem
      omega

theorem numberedAll_bounds (subs : List Statement) {start k : Nat} {parts : List (Part Nat)}
    (among : parts ∈ numberedAll start subs) (mem : .value k ∈ parts) :
    start ≤ k ∧ k < start + (valuesOfAll subs).length :=
  match subs with
  | [] => by simp [numberedAll] at among
  | s :: rest => by
    rw [valuesOfAll, List.length_append]
    obtain rfl | among := List.mem_cons.mp among
    · have := numbered_bounds s mem
      omega
    · have := numberedAll_bounds rest among mem
      omega

end

mutual

/-- Spelled by what their numbers stand for, the places of a statement's values hold the values. -/
theorem fill_numbered (s : Statement) {label : Nat → String} {start : Nat} (f : String → String)
    (h : Labels label start (s.values.map f)) :
    fill label (s.numbered start) = fill f s.inPlace :=
  match s with
  | ⟨c, subs⟩ => by
    rw [values, List.map_append, Labels.append_iff, List.length_map] at h
    rw [numbered, inPlace, Clauses.fill_expand, Clauses.fill_expand, fill_numberedAll subs f h.2,
      map_numberFrom f c.conditions h.1, List.map_map]
    rfl

theorem fill_numberedAll (subs : List Statement) {label : Nat → String} {start : Nat}
    (f : String → String) (h : Labels label start ((valuesOfAll subs).map f)) :
    (numberedAll start subs).map (fill label) = (inPlaceAll subs).map (fill f) :=
  match subs with
  | [] => rfl
  | s :: rest => by
    rw [valuesOfAll, List.map_append, Labels.append_iff, List.length_map] at h
    rw [numberedAll, inPlaceAll, List.map_cons, List.map_cons, fill_numbered s f h.1,
      fill_numberedAll rest f h.2]

end

/-- With the literals of the values in the places of their numbers, a template is the literal text. -/
theorem fill_literals (s : Statement) :
    fill (fun k => quoteLiteral (s.values.getD (k - 1) "")) (s.numbered 1) = s.literal :=
  s.fill_numbered quoteLiteral ((Labels.of_getD s.values 1 "").map quoteLiteral)

end Statement

section Distinct

theorem distinct_filter (p : String → Bool) (xs : List String) :
    distinct (xs.filter p) = (distinct xs).filter p := by
  induction xs with
  | nil => rfl
  | cons x rest ih =>
    cases hx : p x with
    | true => simp [distinct, hx, ih, List.filter_filter, Bool.and_comm]
    | false =>
      rw [List.filter_cons_of_neg (by simp [hx]), ih, distinct,
        List.filter_cons_of_neg (by simp [hx]), List.filter_filter]
      refine List.filter_congr fun y _ => ?_
      by_cases hy : y = x <;> simp [hy, hx]

theorem distinct_eq_eraseDups (xs : List String) : distinct xs = xs.eraseDups := by
  induction count : xs.length using Nat.strongRecOn generalizing xs with
  | ind n ih =>
    cases xs with
    | nil => rfl
    | cons x rest =>
      have shorter : (rest.filter (· != x)).length < n := by
        rw [← count]
        exact Nat.lt_succ_of_le (List.length_filter_le _ _)
      rw [List.eraseDups_cons, distinct, ← distinct_filter, ih _ shorter _ rfl]
      rfl

end Distinct

section Union

theorem intercalate_cons (separator first : String) (rest : List String) :
    String.intercalate separator (first :: rest) =
      first ++ String.join (rest.map (separator ++ ·)) := by
  induction rest generalizing first with
  | nil => simp
  | cons next rest ih =>
    rw [String.intercalate_cons_cons, ih, List.map_cons, String.join_cons]
    simp [String.append_assoc]

theorem Statement.union_eq (s : Statement) (rs : List Statement) :
    s.union rs = ⟨{ s.clauses with
      unions := s.clauses.unions ++ List.range' s.attached.length rs.length }, s.attached ++ rs⟩ := by
  induction rs generalizing s with
  | nil => cases s; simp [union, clauses, attached]
  | cons r rest ih =>
    refine (ih _).trans ?_
    simp [withClauses, clauses, attached, List.range'_succ]

theorem Statement.length_numberedAll (start : Nat) (rs : List Statement) :
    (numberedAll start rs).length = rs.length := by
  induction rs generalizing start with
  | nil => rfl
  | cons r rest ih => simp [numberedAll, ih]

/-- That fragments embed nothing, so that the attached statements do not matter to them. -/
def Clauses.Plain (c : Clauses) : Prop :=
  c.unions = [] ∧ ∀ labels subs, c.written labels subs = c.written labels []

/-- United with others, a plain statement has its text in front of theirs. -/
theorem Statement.fill_union {c : Clauses} (plain : c.Plain) (rs : List Statement)
    (f : Nat → String) (start : Nat) :
    fill f ((Statement.union ⟨c, []⟩ rs).numbered start) =
      String.intercalate " UNION " ((numberedAll start (⟨c, []⟩ :: rs)).map (fill f)) := by
  obtain ⟨alone, same⟩ := plain
  let labels := (numberFrom start c.conditions).map (·.map f)
  let others := (numberedAll (start + c.values.length) rs).map (fill f)
  have places : (List.range' 0 rs.length).map (fun i => others.getD i "") = others := by
    have count : others.length = rs.length := by simp [others, length_numberedAll]
    exact count ▸ Labels.of_getD others 0 ""
  have whole : Clauses.written labels others
      { c with unions := c.unions ++ List.range' 0 rs.length } =
      { c.written labels [] with unions := others } := by
    change { c.written labels others with
      unions := (c.unions ++ List.range' 0 rs.length).map fun i => others.getD i "" } = _
    rw [same, alone, List.nil_append, places]
  have front : Texts.text { c.written labels [] with unions := others } =
      (c.written labels []).text ++ String.join (others.map (" UNION " ++ ·)) := by
    simp [Texts.text, Clauses.written, alone, String.append_assoc]
  have values : values ⟨c, []⟩ = c.values := List.append_nil _
  rw [union_eq, numberedAll, List.map_cons, intercalate_cons, values, numbered, numbered,
    Clauses.fill_expand, Clauses.fill_expand]
  exact (congrArg Texts.text whole).trans front

theorem Statement.valuesOfAll_eq (rs : List Statement) : valuesOfAll rs = rs.flatMap values := by
  induction rs with
  | nil => rfl
  | cons r rest ih => rw [valuesOfAll, ih, List.flatMap_cons]

theorem Statement.map_fill_inPlaceAll (rs : List Statement) :
    (inPlaceAll rs).map (fill quoteLiteral) = rs.map literal := by
  induction rs with
  | nil => rfl
  | cons r rest ih => rw [inPlaceAll, List.map_cons, ih, List.map_cons, literal]

theorem Statement.values_union {c : Clauses} (rs : List Statement) :
    (Statement.union ⟨c, []⟩ rs).values = (⟨c, []⟩ :: rs).flatMap values := by
  rw [union_eq, values, valuesOfAll_eq, List.flatMap_cons]
  simp [Clauses.values, clauses, attached, values, valuesOfAll]

theorem Statement.literal_union {c : Clauses} (plain : c.Plain) (rs : List Statement) :
    (Statement.union ⟨c, []⟩ rs).literal =
      String.intercalate " UNION " ((⟨c, []⟩ :: rs).map literal) := by
  have labels := Labels.of_getD ((Statement.union ⟨c, []⟩ rs).values.map quoteLiteral) 1 ""
  rw [literal, ← fill_numbered _ quoteLiteral labels, fill_union plain, fill_numberedAll _ quoteLiteral,
    map_fill_inPlaceAll]
  rwa [valuesOfAll_eq, ← values_union]

end Union

end EntityFeed.Sql
