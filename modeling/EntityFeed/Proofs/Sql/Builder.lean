import EntityFeed.Proofs.Sql.Made
import EntityFeed.Proofs.Sql.Token

/-! Writing out a builder fills in a template. Tokens are replaced one after the other in texts that
already hold what earlier ones stood for, so this needs them to be distinct and to be written nowhere
by chance, not even in two halves that a replacement brings together. -/
namespace EntityFeed.Sql

mutual

/-- A statement and all that are attached to it, directly or not. -/
def Statement.withAttached : Statement → List Statement
  | ⟨c, subs⟩ => ⟨c, subs⟩ :: withAttachedOfAll subs

def withAttachedOfAll : List Statement → List Statement
  | [] => []
  | s :: rest => s.withAttached ++ withAttachedOfAll rest

end

theorem mem_withAttachedOfAll {subs : List Statement} {s u : Statement} (hs : s ∈ subs)
    (hu : u ∈ s.withAttached) : u ∈ withAttachedOfAll subs := by
  induction subs with
  | nil => contradiction
  | cons first rest ih =>
    rw [withAttachedOfAll, List.mem_append]
    obtain rfl | later := List.mem_cons.mp hs
    · exact .inl hu
    · exact .inr (ih later)

theorem Statement.self_mem_withAttached (s : Statement) : s ∈ s.withAttached := by
  cases s
  exact .head _

/-- The text of a statement with a gap for each value. -/
def Statement.gapped (s : Statement) : String := fill (fun _ => gap) s.inPlace

theorem Statement.fill_gaps (s : Statement) (start : Nat) :
    fill (fun _ => gap) (s.numbered start) = s.gapped :=
  s.fill_numbered (fun _ => gap) (by simp [Labels])

section Barred

variable {t : Token}

/-- That a token neither starts in a text of some clauses nor runs into it. -/
def Clauses.Barred (t : Token) (c : Clauses) : Prop :=
  ∀ f ∈ c.fragments, ∀ x, .text x ∈ f → t.Barred x

theorem barred_of_mem_clauseTexts {x : String} (h : x ∈ clauseTexts) : t.Barred x := by
  have plain : ∀ x ∈ clauseTexts, x.toList.head?.any Token.isForeign = true ∧
      x.toList.getLast?.any Token.isForeign = true ∧ x.toList.all Token.isOther = true := by
    decide
  obtain ⟨front, back, all⟩ := plain x h
  exact Token.barred_of_all front back all

theorem Clauses.Barred.expand {κ : Type} {c : Clauses} (h : c.Barred t) {labels : List (List κ)}
    (labelled : c.Labelled labels) {subs : List (List (Part κ))}
    (attached : ∀ sub ∈ subs, ∀ x, .text x ∈ sub → t.Barred x)
    {x : String} (mem : .text x ∈ c.expand labels subs) : t.Barred x := by
  cases Clauses.origin_of_mem_expand labelled mem with
  | around between => exact barred_of_mem_clauseTexts between
  | fragment hf hs => exact h _ hf x hs
  | attached hsub hp => exact attached _ hsub x hp

mutual

/-- What the clauses of a statement and of all that are attached to it bar is barred in its text. -/
theorem Statement.barred_numbered (s : Statement) {start : Nat}
    (h : ∀ u ∈ s.withAttached, u.clauses.Barred t) {x : String} (mem : .text x ∈ s.numbered start) :
    t.Barred x :=
  match s with
  | ⟨c, subs⟩ => by
    obtain ⟨own, attached⟩ := List.forall_mem_cons.mp h
    rw [numbered] at mem
    exact own.expand (c.labelled_numberFrom start)
      (fun sub among x mem => barred_numberedAll subs attached among mem) mem

theorem Statement.barred_numberedAll (subs : List Statement) {start : Nat}
    (h : ∀ u ∈ withAttachedOfAll subs, u.clauses.Barred t) {parts : List (Part Nat)}
    (among : parts ∈ numberedAll start subs) {x : String} (mem : .text x ∈ parts) : t.Barred x :=
  match subs with
  | [] => by simp [numberedAll] at among
  | s :: rest => by
    obtain ⟨here, later⟩ := List.forall_mem_append.mp h
    obtain rfl | among := List.mem_cons.mp among
    · exact barred_numbered s here mem
    · exact barred_numberedAll rest later among mem

end

/-- That a token can be told from everything else in a statement: its digits are in no text around
values, or no text has a part of it at its ends or the whole of it within. -/
def Statement.Clear (t : Token) (s : Statement) : Prop :=
  (∀ u ∈ s.withAttached, ¬ t.digits <:+: u.gapped.toList) ∨ ∀ u ∈ s.withAttached, u.clauses.Barred t

theorem Statement.Clear.attached {c : Clauses} {subs : List Statement} (h : Clear t ⟨c, subs⟩)
    {r : Statement} (hr : r ∈ subs) : r.Clear t := by
  have inside {u : Statement} (hu : u ∈ r.withAttached) : u ∈ withAttached ⟨c, subs⟩ :=
    .tail _ (mem_withAttachedOfAll hr hu)
  exact h.imp (fun absent u hu => absent u (inside hu)) fun barred u hu => barred u (inside hu)

theorem Statement.Clear.absent {s : Statement} (h : s.Clear t) (start : Nat) :
    t.Absent (s.numbered start) := by
  obtain absent | barred := h
  · exact Token.absent_of_digits _ (s.fill_gaps start ▸ absent s s.self_mem_withAttached)
  · exact Token.absent_of_barred fun x mem => s.barred_numbered barred mem

end Barred

namespace Builder

mutual

/-- The tokens of a builder and of all that are nested in it. -/
def tokens : Builder → List Token
  | ⟨_, bindings, nested⟩ => bindings.map (·.1) ++ nested.map (·.1) ++ tokensOfAll nested

def tokensOfAll : List (Token × Builder) → List Token
  | [] => []
  | (_, q) :: rest => q.tokens ++ tokensOfAll rest

end

/-- That the tokens drawn differ from each other and that their digits are in no other text. -/
structure Fresh (b : Builder) (s : Statement) : Prop where
  distinct : b.tokens.Nodup
  absent : ∀ t ∈ b.tokens, ∀ u ∈ s.withAttached, ¬ t.digits <:+: u.literal.toList

/-- That the tokens drawn differ from each other and can be told from everything else. -/
structure Apart (b : Builder) (s : Statement) : Prop where
  distinct : b.tokens.Nodup
  clear : ∀ t ∈ b.tokens, s.Clear t

theorem Fresh.apart {b : Builder} {s : Statement} (fresh : Fresh b s) : Apart b s := by
  refine ⟨fresh.distinct, fun t ht => .inl fun u hu within => fresh.absent t ht u hu ?_⟩
  exact infix_fill_of_gaps quoteLiteral t.underscore_notMem_digits within

/-- What is bound in a nested statement is bound in the whole, behind what is bound before. -/
theorem bindings_splice (r : Rendered) (nested : List (Token × Builder)) :
    (splice r nested).bindings = r.bindings ++ nested.flatMap (·.2.render.bindings) := by
  induction nested generalizing r with
  | nil => simp [splice]
  | cons p rest ih => simp [splice, ih]

theorem bindings_render (b : Builder) :
    b.render.bindings = b.bindings ++ b.nested.flatMap (·.2.render.bindings) := by
  obtain ⟨c, bindings, nested⟩ := b
  rw [render, bindings_splice]
  rfl

mutual

theorem bound_sublist (b : Builder) : (b.render.bindings.map (·.1)).Sublist b.tokens :=
  match b with
  | ⟨c, bindings, nested⟩ => by
    rw [bindings_render, tokens, List.map_append, List.append_assoc]
    exact .append (List.Sublist.refl _) ((boundOfAll_sublist nested).trans
      (List.sublist_append_right _ _))

theorem boundOfAll_sublist (nested : List (Token × Builder)) :
    ((nested.flatMap (·.2.render.bindings)).map (·.1)).Sublist (tokensOfAll nested) :=
  match nested with
  | [] => .slnil
  | (t, q) :: rest => by
    rw [List.flatMap_cons, List.map_append, tokensOfAll]
    exact (bound_sublist q).append (boundOfAll_sublist rest)

end

/-- What a place holds: the token that stands there, and the text it stands for in the end. -/
abbrev Place := Token × String

def Place.shown (p : Place) : String := p.1.text

/-- The places of nested statements that have not been put in. -/
def places (nested : List (Token × Builder)) (parts : List (List (Part Place))) :
    List (List (Part Place)) :=
  List.zipWith (fun p sub => [.value (p.1, fill Prod.snd sub)]) nested parts

theorem map_fill_places {nested : List (Token × Builder)} {parts : List (List (Part Place))}
    (aligned : nested.length = parts.length) :
    (places nested parts).map (fill Prod.snd) = parts.map (fill Prod.snd) := by
  induction nested generalizing parts with
  | nil => cases parts <;> simp_all [places]
  | cons p rest ih =>
    cases parts with
    | nil => simp at aligned
    | cons sub parts =>
      have behind := ih (Nat.succ_inj.mp aligned)
      simp_all [places]

theorem exists_of_mem_places {nested : List (Token × Builder)} {parts : List (List (Part Place))}
    {sub : List (Part Place)} (mem : sub ∈ places nested parts) {h : Place} (at_ : .value h ∈ sub) :
    ∃ p ∈ nested, h.1 = p.1 := by
  rw [places, ← List.map_uncurry_zip_eq_zipWith] at mem
  obtain ⟨⟨p, inner⟩, paired, rfl⟩ := List.mem_map.mp mem
  have : h = (p.1, fill Prod.snd inner) := by simpa using at_
  exact ⟨p, (List.of_mem_zip paired).1, this ▸ rfl⟩

theorem text_notMem_places {nested : List (Token × Builder)} {parts : List (List (Part Place))}
    {sub : List (Part Place)} (mem : sub ∈ places nested parts) (x : String) : .text x ∉ sub := by
  rw [places, ← List.map_uncurry_zip_eq_zipWith] at mem
  obtain ⟨⟨p, inner⟩, -, rfl⟩ := List.mem_map.mp mem
  simp

/-- What is shown once a text has been put in the places of a token. -/
def shownWith (t : Token) (text : String) (h : Place) : String := if h.1 = t then text else h.shown

theorem replace_shown {t : Token} {parts : List (Part Place)} (text : String)
    (absent : t.Absent parts) :
    Text.replace t.text text (fill Place.shown parts) = fill (shownWith t text) parts := by
  refine replace_fill absent (fun h _ => t.enters_text h.1) fun h _ => ?_
  by_cases same : h.1 = t
  · exact .inl ⟨congrArg Token.text same, if_pos same⟩
  · exact .inr ⟨Token.leaves_text (Ne.symm same), if_neg same⟩

theorem fill_shownWith {t : Token} {text : String} {parts : List (Part Place)}
    (apart : ∀ h, .value h ∈ parts → h.1 ≠ t) :
    fill (shownWith t text) parts = fill Place.shown parts :=
  fill_congr fun h mem => if_neg (apart h mem)

/-- Nested statements are put in one after the other, each in its own places. -/
theorem sql_splice {cl : Clauses} {labels : List (List Place)} {nested : List (Token × Builder)}
    {parts : List (List (Part Place))} (labelled : cl.Labelled labels)
    (written : List.Forall₂ (fun p sub => p.2.render.sql = fill Place.shown sub) nested parts)
    (done : List (List (Part Place))) (bindings : List (Token × String))
    (distinct : (nested.map (·.1)).Nodup)
    (apart : ∀ p ∈ nested, (∀ l ∈ labels, ∀ h ∈ l, h.1 ≠ p.1) ∧
      ∀ sub ∈ done ++ parts, ∀ h, .value h ∈ sub → h.1 ≠ p.1)
    (clear : ∀ p ∈ nested,
      ¬ p.1.digits <:+: (fill Prod.snd (cl.expand labels (done ++ parts))).toList ∨
        cl.Barred p.1 ∧ ∀ sub ∈ done ++ parts, ∀ x, .text x ∈ sub → p.1.Barred x) :
    (splice ⟨fill Place.shown (cl.expand labels (done ++ places nested parts)), bindings⟩
      nested).sql = fill Place.shown (cl.expand labels (done ++ parts)) := by
  induction written generalizing done bindings with
  | nil => rfl
  | @cons p sub nested parts here later ih =>
    obtain ⟨t, q⟩ := p
    obtain ⟨new, distinct⟩ := List.nodup_cons.mp distinct
    obtain ⟨own, inner⟩ := apart (t, q) (.head _)
    have nowhere : t.Absent (cl.expand labels (done ++ places ((t, q) :: nested) (sub :: parts))) := by
      obtain same | ⟨own, inner⟩ := clear (t, q) (.head _)
      · refine Token.absent_of_digits Prod.snd ?_
        rw [Clauses.fill_expand, List.map_append] at same ⊢
        rwa [map_fill_places (by simp [later.length_eq])]
      · refine Token.absent_of_barred fun x mem => own.expand labelled (fun d hd x hx => ?_) mem
        obtain before | open_ := List.mem_append.mp hd
        · exact inner d (List.mem_append_left _ before) x hx
        · exact absurd hx (text_notMem_places open_ x)
    have settled : fill (shownWith t q.render.sql)
        (cl.expand labels (done ++ places ((t, q) :: nested) (sub :: parts))) =
        fill Place.shown (cl.expand labels ((done ++ [sub]) ++ places nested parts)) := by
      rw [Clauses.fill_expand, Clauses.fill_expand]
      congr 2
      · refine List.map_congr_left fun l hl => List.map_congr_left fun h mem => ?_
        exact if_neg (own l hl h mem)
      · have before : done.map (fill (shownWith t q.render.sql)) = done.map (fill Place.shown) :=
          List.map_congr_left fun d hd => fill_shownWith (inner d (List.mem_append_left _ hd))
        have behind : (places nested parts).map (fill (shownWith t q.render.sql)) =
            (places nested parts).map (fill Place.shown) := by
          refine List.map_congr_left fun d hd => fill_shownWith fun h mem => ?_
          obtain ⟨p, hp, same⟩ := exists_of_mem_places hd mem
          exact fun eq => new (List.mem_map.mpr ⟨p, hp, same.symm.trans eq⟩)
        have put : fill (shownWith t q.render.sql) [.value (t, fill Prod.snd sub)] =
            fill Place.shown sub := by
          simp [shownWith, here]
        change (done ++ [.value (t, fill Prod.snd sub)] :: places nested parts).map _ = _
        simp only [List.map_append, List.map_cons, before, put, behind, List.append_assoc,
          List.singleton_append]
    have assoc : (done ++ [sub]) ++ parts = done ++ sub :: parts := by simp
    rw [splice, replace_shown _ nowhere, settled, ih (done ++ [sub]) _ distinct
      (fun p hp => assoc ▸ apart p (.tail _ hp)) (fun p hp => assoc ▸ clear p (.tail _ hp)), assoc]

/-- What a builder writes with its tokens in the places of values, and which values these are. -/
structure Writes (b : Builder) (s : Statement) : Prop where
  values : b.render.bindings.map (·.2) = s.values
  sql : ∀ {name : Nat → Token} {start : Nat}, Labels name start (b.render.bindings.map (·.1)) →
    b.render.sql = fill (fun k => (name k).text) (s.numbered start)

section Nested

variable {nested : List (Token × Builder)} {rs : List Statement}

theorem values_of_nested (writes : List.Forall₂ (fun p r => Writes p.2 r) nested rs) :
    (nested.flatMap (·.2.render.bindings)).map (·.2) = Statement.valuesOfAll rs := by
  induction writes with
  | nil => rfl
  | cons here _ ih => simp [Statement.valuesOfAll, ← here.values, ← ih]

theorem written_of_nested (writes : List.Forall₂ (fun p r => Writes p.2 r) nested rs)
    {g : Nat → Place} {start : Nat}
    (labels : Labels (fun k => (g k).1) start
      ((nested.flatMap (·.2.render.bindings)).map (·.1))) :
    List.Forall₂ (fun p sub => p.2.render.sql = fill Place.shown sub) nested
      ((Statement.numberedAll start rs).map (·.map (Part.map g))) := by
  induction writes generalizing start with
  | nil => exact .nil
  | @cons p r nested rs here _ ih =>
    rw [List.flatMap_cons, List.map_append, Labels.append_iff, List.length_map] at labels
    obtain ⟨first, behind⟩ := labels
    have count : p.2.render.bindings.length = r.values.length := by
      rw [← here.values, List.length_map]
    refine .cons ?_ (ih (count ▸ behind))
    rw [here.sql first, fill_map]
    rfl

theorem map_shown_places {parts : List (List (Part Place))}
    (aligned : nested.length = parts.length) :
    (places nested parts).map (fill Place.shown) = nested.map (·.1.text) := by
  induction nested generalizing parts with
  | nil => cases parts <;> simp_all [places]
  | cons p rest ih =>
    cases parts with
    | nil => simp at aligned
    | cons sub parts =>
      have behind := ih (Nat.succ_inj.mp aligned)
      simp_all [places, Place.shown]

end Nested

/-- The texts of a builder show the names of the nested statements and the tokens of its values. -/
theorem Mirrors.text_eq {c : Texts} {bindings : List (Token × String)}
    {nested : List (Token × Builder)} {cl : Clauses} {subs : List Statement}
    (m : Mirrors ⟨c, bindings, nested⟩ ⟨cl, subs⟩) {g : Nat → Place} {start : Nat}
    (own : Labels (fun k => (g k).1) start (bindings.map (·.1)))
    {parts : List (List (Part Place))} (aligned : nested.length = parts.length) :
    c.text = fill Place.shown
      (cl.expand ((numberFrom start cl.conditions).map (·.map g)) (places nested parts)) := by
  have texts : c = cl.written ((numberFrom start cl.conditions).map (·.map (Place.shown ∘ g)))
      (nested.map (·.1.text) ++ []) :=
    m.texts [] (by simpa [Builder.bindings, Place.shown, Function.comp_def] using own.map Token.text)
  rw [Clauses.fill_expand, map_shown_places aligned, List.map_map, texts, List.append_nil]
  congr 2
  exact List.map_congr_left fun l _ => List.map_map.symm

/-- The tokens in a statement's own places are those that its numbers stand for. -/
theorem mem_of_labels {cs : List Condition} {names : List Token} {g : Nat → Place} {start : Nat}
    (labels : Labels (fun k => (g k).1) start names)
    (count : names.length = (cs.flatMap (·.values)).length) {l : List Place}
    (among : l ∈ (numberFrom start cs).map (·.map g)) {h : Place} (mem : h ∈ l) :
    h.1 ∈ names := by
  obtain ⟨numbers, given, rfl⟩ := List.mem_map.mp among
  obtain ⟨k, here, rfl⟩ := List.mem_map.mp mem
  have bounds := numberFrom_bounds given here
  exact labels.mem bounds.1 (count ▸ bounds.2)

theorem mem_of_labels_attached {subs : List Statement} {names : List Token} {g : Nat → Place}
    {start : Nat} (labels : Labels (fun k => (g k).1) start names)
    (count : names.length = (Statement.valuesOfAll subs).length) {sub : List (Part Place)}
    (among : sub ∈ (Statement.numberedAll start subs).map (·.map (Part.map g))) {h : Place}
    (mem : .value h ∈ sub) : h.1 ∈ names := by
  obtain ⟨numbers, given, rfl⟩ := List.mem_map.mp among
  obtain ⟨k, here, rfl⟩ := exists_of_mem_map_value mem
  have bounds := Statement.numberedAll_bounds subs given here
  exact labels.mem bounds.1 (count ▸ bounds.2)

theorem Mirrors.values_render {b : Builder} {s : Statement} (m : Mirrors b s)
    (inner : List.Forall₂ (fun p r => Writes p.2 r) b.nested s.attached) :
    b.render.bindings.map (·.2) = s.values := by
  obtain ⟨cl, subs⟩ := s
  rw [bindings_render, List.map_append, m.values, values_of_nested inner]
  rfl

theorem Mirrors.writes {b : Builder} {s : Statement} (m : Mirrors b s) (apart : Apart b s)
    (inner : List.Forall₂ (fun p r => Writes p.2 r) b.nested s.attached) : Writes b s := by
  refine ⟨m.values_render inner, fun {name start} labels => ?_⟩
  obtain ⟨c, bindings, nested⟩ := b
  obtain ⟨cl, subs⟩ := s
  change List.Forall₂ (fun p r => Writes p.2 r) nested subs at inner
  have count : bindings.length = cl.values.length := m.length_bindings
  have counted : (bindings.map (·.1)).length = (cl.conditions.flatMap (·.values)).length := by
    rw [List.length_map, count, Clauses.values]
  have countedInner : ((nested.flatMap (·.2.render.bindings)).map (·.1)).length =
      (Statement.valuesOfAll subs).length := by
    rw [← values_of_nested inner, List.length_map, List.length_map]
  rw [bindings_render, List.map_append, Labels.append_iff, List.length_map] at labels
  simp only [Builder.bindings, Builder.nested, count] at labels
  obtain ⟨own, behind⟩ := labels
  -- What the places hold in the end does not matter here, as long as no digits of tokens are in it.
  let place : Nat → Place := fun k => (name k, gap)
  have whole := Statement.fill_gaps ⟨cl, subs⟩ start
  have filled (f : Place → String) := Clauses.fill_expand_map f place cl
    (numberFrom start cl.conditions) (Statement.numberedAll (start + cl.values.length) subs)
  have written := written_of_nested inner (g := place) behind
  have distinct := apart.distinct
  rw [tokens, List.append_assoc, List.nodup_append] at distinct
  obtain ⟨-, names, ownApart⟩ := distinct
  obtain ⟨names, -, innerApart⟩ := List.nodup_append.mp names
  have shown : c.text = fill Place.shown
      (cl.expand ((numberFrom start cl.conditions).map (·.map place)) (places nested _)) :=
    m.text_eq (g := place) own written.length_eq
  rw [render, shown]
  refine (sql_splice ((cl.labelled_numberFrom start).map place) written [] bindings names
    (fun p hp => ⟨fun l hl h mem => ?_, fun sub hsub h mem => ?_⟩) fun p hp => ?_).trans ?_
  · exact ownApart _ (mem_of_labels (g := place) own counted hl mem) _
      (List.mem_append_left _ (List.mem_map_of_mem hp))
  · have bound := mem_of_labels_attached (g := place) behind countedInner hsub mem
    exact (innerApart _ (List.mem_map_of_mem hp) _ ((boundOfAll_sublist nested).mem bound)).symm
  · have drawn : p.1 ∈ tokens ⟨c, bindings, nested⟩ := by
      rw [tokens]
      exact List.mem_append_left _ (List.mem_append_right _ (List.mem_map_of_mem hp))
    rw [List.nil_append, filled Prod.snd]
    refine (apart.clear p.1 drawn).imp (fun absent => whole ▸ absent _ (.head _)) fun barred => ?_
    obtain ⟨own, attached⟩ := List.forall_mem_cons.mp barred
    refine ⟨own, fun sub among x mem => ?_⟩
    obtain ⟨numbers, given, rfl⟩ := List.mem_map.mp among
    exact Statement.barred_numberedAll subs attached given (text_mem_of_mem_map mem)
  · rw [List.nil_append, filled Place.shown]
    rfl

mutual

theorem Made.writes (b : Builder) {s : Statement} (made : Made b s) (apart : Apart b s) :
    Writes b s :=
  match b, s with
  | ⟨c, bindings, nested⟩, ⟨cl, subs⟩ => by
    have distinct := apart.distinct
    rw [tokens, List.nodup_append] at distinct
    exact made.mirrors.writes apart (writes_of_nested nested made.mirrors.nested distinct.2.1
      fun t ht r hr => (apart.clear t (List.mem_append_right _ ht)).attached hr)

theorem writes_of_nested (nested : List (Token × Builder)) {rs : List Statement}
    (made : List.Forall₂ (fun p r => Made p.2 r) nested rs) (distinct : (tokensOfAll nested).Nodup)
    (clear : ∀ t ∈ tokensOfAll nested, ∀ r ∈ rs, r.Clear t) :
    List.Forall₂ (fun p r => Writes p.2 r) nested rs :=
  match nested, rs, made with
  | [], [], .nil => .nil
  | (t, q) :: rest, r :: rs, .cons here later => by
    rw [tokensOfAll, List.nodup_append] at distinct
    simp only [tokensOfAll, List.mem_append] at clear
    exact .cons
      (Made.writes q here ⟨distinct.1, fun t ht => clear t (.inl ht) r (.head _)⟩)
      (writes_of_nested rest later distinct.2.1 fun t ht r hr => clear t (.inr ht) r (.tail _ hr))

end

/-- The tokens of values are filled in one after the other. -/
theorem fillIn_fill {parts : List (Part Nat)} {spell : Nat → String → String} {final : Nat → String}
    {name : Nat → Token} {bindings : List (Token × String)} {start : Nat}
    (labels : Labels name start (bindings.map (·.1)))
    (spelled : ∀ i p, bindings[i]? = some p → final (start + i) = spell (start + i) p.2)
    (distinct : (bindings.map (·.1)).Nodup)
    (bounds : ∀ k, .value k ∈ parts → k < start + bindings.length)
    (absent : ∀ p ∈ bindings, p.1.Absent parts)
    (settled : ∀ p ∈ bindings, ∀ k, .value k ∈ parts → p.1.Enters (final k) ∧ p.1.Leaves (final k)) :
    fillIn spell start bindings (fill (fun k => if k < start then final k else (name k).text) parts) =
      fill final parts := by
  induction bindings generalizing start with
  | nil => exact fill_congr fun k mem => if_pos (bounds k mem)
  | cons p rest ih =>
    obtain ⟨t, value⟩ := p
    obtain ⟨here, behind⟩ := Labels.cons_iff.mp labels
    obtain ⟨new, distinct⟩ := List.nodup_cons.mp distinct
    have next : Text.replace t.text (spell start value)
        (fill (fun k => if k < start then final k else (name k).text) parts) =
        fill (fun k => if k < start + 1 then final k else (name k).text) parts := by
      refine replace_fill (absent (t, value) (.head _)) (fun k mem => ?_) fun k mem => ?_
      · split
        · exact (settled (t, value) (.head _) k mem).1
        · exact Token.enters_text _ _
      · obtain before | rfl | after := Nat.lt_trichotomy k start
        · rw [if_pos before, if_pos (by omega)]
          exact .inr ⟨(settled (t, value) (.head _) k mem).2, rfl⟩
        · rw [if_neg (by omega), if_pos (by omega), here]
          exact .inl ⟨rfl, spelled 0 _ rfl⟩
        · rw [if_neg (by omega), if_neg (by omega)]
          have later : name k ∈ rest.map (·.1) := by
            have := bounds k mem
            simp only [List.length_cons] at this
            exact behind.mem after (by simp; omega)
          exact .inr ⟨Token.leaves_text fun same => new (same ▸ later), rfl⟩
    rw [fillIn, next, ih behind]
    · intro i p hp
      have := spelled (i + 1) p hp
      rwa [show start + (i + 1) = start + 1 + i by omega] at this
    · exact distinct
    · intro k mem
      have := bounds k mem
      simp only [List.length_cons] at this
      omega
    · exact fun p hp => absent p (.tail _ hp)
    · exact fun p hp => settled p (.tail _ hp)

theorem Writes.fillIn_render {b : Builder} {s : Statement} (writes : Writes b s)
    (distinct : b.tokens.Nodup) {spell : Nat → String → String} {final : Nat → String}
    (spelled : ∀ i p, b.render.bindings[i]? = some p → final (1 + i) = spell (1 + i) p.2)
    (absent : ∀ t ∈ b.tokens, t.Absent (s.numbered 1))
    (settled : ∀ t ∈ b.tokens, ∀ k, .value k ∈ s.numbered 1 →
      t.Enters (final k) ∧ t.Leaves (final k)) :
    fillIn spell 1 b.render.bindings b.render.sql = fill final (s.numbered 1) := by
  have bound {p : Token × String} (hp : p ∈ b.render.bindings) : p.1 ∈ b.tokens :=
    b.bound_sublist.mem (List.mem_map_of_mem hp)
  have count : b.render.bindings.length = s.values.length := by
    rw [← writes.values, List.length_map]
  have labels : Labels (fun k => (b.render.bindings.map (·.1)).getD (k - 1) default) 1
      (b.render.bindings.map (·.1)) := Labels.of_getD _ 1 default
  rw [writes.sql labels]
  refine .trans (congrArg _ (fill_congr fun k mem => ?_)) (fillIn_fill labels spelled
    (b.bound_sublist.nodup distinct) (fun k mem => count ▸ (s.numbered_bounds mem).2)
    (fun p hp => absent p.1 (bound hp)) fun p hp => settled p.1 (bound hp))
  exact (if_neg (by have := (s.numbered_bounds mem).1; omega)).symm

section Writing

variable {b : Builder} {s : Statement} {t : Token}

/-- A builder is compiled to what the statement is compiled to that the same calls put together. -/
theorem Made.compile_eq (made : Made b s) (apart : Apart b s) : b.compile = s.compile := by
  have writes := made.writes b apart
  have sql : fillIn (fun n _ => "$" ++ toString n) 1 b.render.bindings b.render.sql =
      s.compile.sql := by
    refine writes.fillIn_render apart.distinct ?_ (fun t ht => (apart.clear t ht).absent 1) ?_
    · exact fun _ _ _ => rfl
    · exact fun t _ k _ => ⟨t.enters_placeholder k, t.leaves_placeholder k⟩
  rw [compile, writes.values, sql]
  rfl

theorem Made.literal_eq (made : Made b s) (apart : Apart b s)
    (settled : ∀ t ∈ b.tokens, ∀ k, .value k ∈ s.numbered 1 →
      t.Leaves (quoteLiteral (s.values.getD (k - 1) ""))) : b.literal = s.literal := by
  have writes := made.writes b apart
  rw [← s.fill_literals]
  refine writes.fillIn_render apart.distinct (fun i p hp => ?_) (fun t ht => (apart.clear t ht).absent 1)
    fun t ht k mem => ⟨t.enters_quoteLiteral _, settled t ht k mem⟩
  simp [← writes.values, hp]

theorem Fresh.settled (fresh : Fresh b s) (ht : t ∈ b.tokens) {k : Nat}
    (mem : .value k ∈ s.numbered 1) : t.Leaves (quoteLiteral (s.values.getD (k - 1) "")) := by
  refine Token.leaves_quoteLiteral fun within => ?_
  have inside := infix_fill_of_mem (f := fun k => quoteLiteral (s.values.getD (k - 1) "")) mem
  exact fresh.absent t ht s s.self_mem_withAttached
    (s.fill_literals ▸ t.digits_infix_text.trans (within.trans inside))

/-- Writing out a builder fills in one template, that of the statement which the same calls put
together without tokens: once with placeholders, and once with the values that belong to these. -/
theorem Made.fills_template {b : Builder} {s : Statement} (made : Made b s) (fresh : Fresh b s) :
    b.compile.sql = fill (fun k => "$" ++ toString k) (s.numbered 1) ∧
      b.literal = fill (fun k => quoteLiteral (b.compile.values.getD (k - 1) "")) (s.numbered 1) ∧
      (∀ k, .value k ∈ s.numbered 1 → 1 ≤ k ∧ k ≤ b.compile.values.length) ∧
      b.compile.values = s.values ∧
      ∀ t ∈ b.tokens, ¬ t.text.toList <:+: b.compile.sql.toList ∧
        ¬ t.text.toList <:+: b.literal.toList := by
  have literal := (made.literal_eq fresh.apart fun t ht k mem => fresh.settled ht mem).trans
    s.fill_literals.symm
  rw [made.compile_eq fresh.apart]
  refine ⟨rfl, literal, fun k mem => ?_, rfl, fun t ht => ⟨?_, ?_⟩⟩
  · have := s.numbered_bounds mem
    simp only [Statement.compile]
    omega
  · exact not_infix_fill ((fresh.apart.clear t ht).absent 1) (fun k _ => t.enters_placeholder k)
      fun k _ => t.leaves_placeholder k
  · exact literal ▸ not_infix_fill ((fresh.apart.clear t ht).absent 1)
      (fun k _ => t.enters_quoteLiteral _) fun k mem => fresh.settled ht mem

end Writing

section Pairs

/-- A token whose bytes are all the same. -/
def uniform (n : UInt8) : Token := ⟨⟨List.replicate 16 n, by simp⟩⟩

/-- The pairs of rows of `t` for two keys, which it embeds twice. It takes in a statement that it does
not embed, and it is united with another one. -/
def pairs : Builder :=
  let (t, b) := empty.subQuery (uniform 32)
    ((empty.source "t").whereIn "k" ["a", "b", "a"] fun i => uniform (.ofNat (i + 1)))
  let (_, b) := b.subQuery (uniform 33) ((empty.source "u").whereIn "k" ["$1"] fun _ => uniform 16)
  ((b.source ("(" ++ t ++ ") x, (" ++ t ++ ") y")).whereIn "x.n" ["c'"] fun _ => uniform 48).union
    [(uniform 34, (empty.source "v").whereIn "k" ["d"] fun _ => uniform 17)]

def pairsPlain : Statement :=
  let (t, s) := Statement.empty.attach ((Statement.empty.source "t").whereIn "k" ["a", "b", "a"])
  let (_, s) := s.attach ((Statement.empty.source "u").whereIn "k" ["$1"])
  ((s.source [.text "(", .attached t, .text ") x, (", .attached t, .text ") y"]).whereIn
    "x.n" ["c'"]).union [(Statement.empty.source "v").whereIn "k" ["d"]]

theorem made_rows (table column : String) (values : List String) (draw : Nat → Token) :
    Made ((empty.source table).whereIn column values draw)
      ((Statement.empty.source table).whereIn column values) := by
  have made := (Made.empty.source table (Fragment.embeds_ofText _ _)).whereIn column values draw
    (Fragment.embeds_ofText _ _)
  simp only [Fragment.written_ofText] at made
  exact made

theorem made_pairs : Made pairs pairsPlain := by
  have taken := (Made.empty.subQuery (uniform 32) (made_rows "t" "k" ["a", "b", "a"]
    fun i => uniform (.ofNat (i + 1)))).subQuery (uniform 33)
    (made_rows "u" "k" ["$1"] fun _ => uniform 16)
  have embeds : Fragment.Embeds 2
      [.text "(", .attached 0, .text ") x, (", .attached 0, .text ") y"] := by
    simp [Fragment.Embeds]
  have united := ((taken.source _ embeds).whereIn "x.n" ["c'"] (fun _ => uniform 48)
    (Fragment.embeds_ofText _ _)).union (uniform 34) (made_rows "v" "k" ["d"] fun _ => uniform 17)
  have shown (subs : List String) :
      Fragment.written subs [.text "(", .attached 0, .text ") x, (", .attached 0, .text ") y"] =
        "(" ++ subs.getD 0 "" ++ ") x, (" ++ subs.getD 0 "" ++ ") y" := by
    simp [Fragment.written, String.append_assoc]
  simp only [Fragment.written_ofText, shown] at united
  exact united

theorem fresh_pairs : Fresh pairs pairsPlain := ⟨by decide +kernel, by decide +kernel⟩

/-- The values of a statement embedded twice are bound once, and their placeholders stand twice. The
value of a statement that nothing embeds is bound as well. -/
theorem pairs_filled :
    Made pairs pairsPlain ∧ Fresh pairs pairsPlain ∧
      pairs.compile.sql = "SELECT * FROM (SELECT * FROM t WHERE k IN ($2, $3)) x," ++
        " (SELECT * FROM t WHERE k IN ($2, $3)) y WHERE x.n = $1 UNION SELECT * FROM v WHERE k = $5" ∧
      pairs.compile.values = ["c'", "a", "b", "$1", "d"] := by
  obtain ⟨sql, -, -, values, -⟩ := made_pairs.fills_template fresh_pairs
  exact ⟨made_pairs, fresh_pairs, sql.trans (by decide +kernel), values.trans (by decide +kernel)⟩

end Pairs

section Overlap

/-- A query that writes a token right behind what it begins with. -/
def overlapping : Builder :=
  let (t, b) := empty.subQuery (uniform 32) (empty.select "1")
  b.select (String.ofList (uniform 32).stem ++ t)

def overlappingPlain : Statement :=
  let (t, s) := Statement.empty.attach (Statement.empty.select "1")
  s.select [.text (String.ofList (uniform 32).stem), .attached t]

theorem made_overlapping : Made overlapping overlappingPlain := by
  have taken := Made.empty.subQuery (uniform 32) (Made.empty.select "1" (Fragment.embeds_ofText _ _))
  have embeds : Fragment.Embeds 1 [.text (String.ofList (uniform 32).stem), .attached 0] := by
    simp [Fragment.Embeds]
  have selected := taken.select _ embeds
  have shown (subs : List String) :
      Fragment.written subs [.text (String.ofList (uniform 32).stem), .attached 0] =
        String.ofList (uniform 32).stem ++ subs.getD 0 "" := by
    simp [Fragment.written]
  simp only [Fragment.written_ofText, shown] at selected
  exact selected

/-- No text has the token in it, but together with the marks that the token begins with, what stands in
front of it is the token already. So it is found too early. -/
theorem overlapping_misread :
    Made overlapping overlappingPlain ∧ overlapping.tokens.Nodup ∧
      (∀ t ∈ overlapping.tokens, ∀ u ∈ overlappingPlain.withAttached,
        ¬ t.text.toList <:+: u.literal.toList) ∧
      overlapping.compile.sql ≠ fill (fun k => "$" ++ toString k) (overlappingPlain.numbered 1) :=
  ⟨made_overlapping, by decide +kernel, by decide +kernel, by decide +kernel⟩

end Overlap

end Builder
end EntityFeed.Sql
