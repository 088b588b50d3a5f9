import EntityFeed.Proofs.Text.Runs
import EntityFeed.Url.Reader
import Mathlib.Data.List.DropRight

/-! Where the credentials of a URL are read. They end at the last at sign in front of the path, and what
stands behind them is read without regard to what they are. -/
namespace EntityFeed.Url

section Stripping

/-- The characters that are dropped at the ends of a text. -/
def isEdge (c : Char) : Bool := c.toNat ≤ 0x20

/-- The characters that are read. -/
def isRead (c : Char) : Bool := c != '\t' && c != '\n' && c != '\r'

theorem stripped_eq (cs : List Char) :
    stripped cs = ((cs.dropWhile isEdge).rdropWhile isEdge).filter isRead := rfl

/-- A character that is no edge keeps what is in front of it. -/
theorem rdropWhile_append (front : List Char) {c : Char} (hc : isEdge c = false) (back : List Char) :
    (front ++ c :: back).rdropWhile isEdge = front ++ c :: back.rdropWhile isEdge := by
  have kept : (back.reverse ++ c :: front.reverse).dropWhile isEdge =
      back.reverse.dropWhile isEdge ++ c :: front.reverse := by
    rw [List.dropWhile_append]
    split
    · next blank =>
      rw [List.isEmpty_iff.mp blank, List.nil_append, List.dropWhile_cons_of_neg (by simp [hc])]
    · rfl
  rw [List.rdropWhile, List.reverse_append, List.reverse_cons, List.append_assoc, List.singleton_append,
    kept]
  simp [List.rdropWhile]

theorem stripped_append {c : Char} {front : List Char} (hc : isEdge c = false)
    (first : ∀ x ∈ front.head?, isEdge x = false) (back : List Char) (read : isRead c = true) :
    stripped (front ++ c :: back) = front.filter isRead ++ c :: (back.rdropWhile isEdge).filter isRead := by
  have whole : (front ++ c :: back).dropWhile isEdge = front ++ c :: back := by
    cases front with
    | nil => exact List.dropWhile_cons_of_neg (by simp [hc])
    | cons x front => exact List.dropWhile_cons_of_neg (by simp [first x rfl])
  rw [stripped_eq, whole, rdropWhile_append front hc, List.filter_append, List.filter_cons_of_pos read]

end Stripping

section Credentials

variable {user password host : List Char}

theorem splitLastAt_append (user : List Char) (clear : '@' ∉ host) :
    splitLastAt (user ++ '@' :: host) = some (user, host) := by
  have inside : ∀ c ∈ host.reverse, (c != '@') = true := by
    intro c hc
    simpa using fun same : c = '@' => clear (same ▸ List.mem_reverse.mp hc)
  have behind : (user ++ '@' :: host).reverse.takeWhile (· != '@') = host.reverse := by
    simpa using (Text.span_of_all ('@' :: user.reverse) inside (by simp)).1
  have length : (user ++ '@' :: host).length - host.length - 1 = user.length := by simp; omega
  have shorter : host.length < (user ++ '@' :: host).length := by simp; omega
  rw [splitLastAt, behind, List.reverse_reverse, if_pos shorter, length, List.take_left]

theorem credentials_append (named : ∀ c ∈ user, (c != ':') = true) (some_ : password ≠ []) :
    credentials (user ++ ':' :: password) =
      { username := encode .userinfo user, password := some (encode .userinfo password) } := by
  obtain ⟨name, rest⟩ := Text.span_of_all (':' :: password) named (by simp)
  simp [credentials, name, rest, some_]

/-- An authority as it may be shown. -/
def Authority.masked (a : Authority) : Authority :=
  { a with password := a.password.map fun _ => "***" }

theorem Authority.hasCredentials_masked (a : Authority) : a.masked.hasCredentials = a.hasCredentials := by
  simp [masked, hasCredentials]

theorem hostAndPort?_masked (s : Dialect) {a b : Authority} (same : a.masked = b.masked) (cs : List Char) :
    (hostAndPort? s a cs).map (Prod.map Authority.masked id) =
      (hostAndPort? s b cs).map (Prod.map Authority.masked id) := by
  have known : a.hasCredentials = b.hasCredentials := by
    rw [← a.hasCredentials_masked, same, b.hasCredentials_masked]
  have with_ (host : Host) (port : Option Nat) :
      Authority.masked { a with host, port } = Authority.masked { b with host, port } := by
    simp only [Authority.masked, Authority.mk.injEq] at same ⊢
    exact ⟨same.1, same.2.1, trivial, trivial⟩
  rw [hostAndPort?, hostAndPort?, known]
  generalize splitHost false cs = parts
  obtain ⟨host, rest⟩ := parts
  dsimp only
  by_cases empty : host.isEmpty
  · rw [if_pos empty, if_pos empty, Option.bind_eq_bind, Option.map_bind, Option.map_bind]
    exact congrArg (Option.bind _) (funext fun _ => congrArg some (Prod.ext same rfl))
  · rw [if_neg empty, if_neg empty]
    simp only [Option.bind_eq_bind, apply_ite (Option.map _), Option.map_bind, Function.comp_def,
      Option.pure_def, Option.map_some, Prod.map_apply, with_]

theorem masked_ofTail (scheme : String) (s : Dialect) (a : Authority) (path : List Char → Path)
    (cs : List Char) :
    (ofTail scheme s (some a) path cs).masked = ofTail scheme s (some a.masked) path cs := rfl

/-- Whether a character belongs to the text between the slashes and the path. -/
def inAuthority (c : Char) : Bool := !Dialect.general.endsAuthority c

theorem inAuthority_iff (c : Char) : inAuthority c = true ↔ c ∉ ['/', '?', '#'] := by
  simp [inAuthority, Dialect.endsAuthority, Dialect.isSlash, endsPath]

theorem withAuthority?_eq (scheme : String) (cs : List Char) :
    withAuthority? scheme .general cs =
      (authority? .general (!(cs.dropWhile inAuthority).isEmpty) (cs.takeWhile inAuthority)).map
        fun found => ofTail scheme .general (some found.1) (pathBehindAuthority .general)
          (found.2 ++ cs.dropWhile inAuthority) := by
  rw [Option.map_eq_bind]
  rfl

/-- A name, a password and what follows them are told apart, and only the credentials come from the first
two. -/
theorem withAuthority?_append (scheme : String) {rest : List Char}
    (name : ∀ c ∈ user, inAuthority c = true ∧ c ≠ ':') (secret : ∀ c ∈ password, inAuthority c = true)
    (some_ : password ≠ []) (clear : '@' ∉ rest.takeWhile inAuthority) :
    withAuthority? scheme .general (user ++ ':' :: password ++ '@' :: rest) =
      (hostAndPort? .general
          { username := encode .userinfo user, password := some (encode .userinfo password) }
          (rest.takeWhile inAuthority)).map fun found =>
        ofTail scheme .general (some found.1) (pathBehindAuthority .general)
          (found.2 ++ rest.dropWhile inAuthority) := by
  have front : ∀ c ∈ user ++ ':' :: password ++ ['@'], inAuthority c = true := by
    simp only [List.mem_append, List.mem_cons, List.not_mem_nil, or_false]
    rintro c ((hc | rfl | hc) | rfl)
    · exact (name c hc).1
    · decide
    · exact secret c hc
    · decide
  have whole : user ++ ':' :: password ++ '@' :: rest = (user ++ ':' :: password ++ ['@']) ++ rest := by
    simp
  have taken : (user ++ ':' :: password ++ '@' :: rest).takeWhile inAuthority =
      user ++ ':' :: password ++ '@' :: rest.takeWhile inAuthority := by
    rw [whole, List.takeWhile_append_of_pos front]
    simp
  have left : (user ++ ':' :: password ++ '@' :: rest).dropWhile inAuthority =
      rest.dropWhile inAuthority := by
    rw [whole, List.dropWhile_append_of_pos front]
  have known := credentials_append (fun c hc => by simpa using (name c hc).2) some_
  rw [withAuthority?_eq, taken, left, authority?, splitLastAt_append _ clear]
  simp only [← known, List.isEmpty_iff, List.append_eq_nil_iff, reduceCtorEq, and_false, false_and, if_false]

/-- Two URLs that differ in their passwords are both shown in one way, or both are none. -/
theorem withAuthority?_masked (scheme : String) {other rest : List Char}
    (name : ∀ c ∈ user, inAuthority c = true ∧ c ≠ ':')
    (secret : ∀ c ∈ password, inAuthority c = true) (some_ : password ≠ [])
    (secret' : ∀ c ∈ other, inAuthority c = true) (some' : other ≠ [])
    (clear : '@' ∉ rest.takeWhile inAuthority) :
    (withAuthority? scheme .general (user ++ ':' :: password ++ '@' :: rest)).map Url.masked =
      (withAuthority? scheme .general (user ++ ':' :: other ++ '@' :: rest)).map Url.masked := by
  have hosts := hostAndPort?_masked .general
    (a := { username := encode .userinfo user, password := some (encode .userinfo password) })
    (b := { username := encode .userinfo user, password := some (encode .userinfo other) }) rfl
    (rest.takeWhile inAuthority)
  have shown := congrArg (Option.map fun found => ofTail scheme .general (some found.1)
    (pathBehindAuthority .general) (found.2 ++ rest.dropWhile inAuthority)) hosts
  rw [withAuthority?_append scheme name secret some_ clear,
    withAuthority?_append scheme name secret' some' clear]
  simpa only [Option.map_map, Function.comp_def, masked_ofTail, Prod.map_fst, Prod.map_snd, id_eq]
    using shown

end Credentials

/-- What follows the two slashes behind a scheme of this kind is an authority. -/
theorem read?_of_stripped {text : String} {scheme : List Char} {rest : List Char}
    (known : scheme = "postgres".toList ∨ scheme = "postgresql".toList)
    (whole : stripped text.toList = scheme ++ "://".toList ++ rest) :
    read? text = withAuthority? (String.ofList scheme) .general rest := by
  have name : ∀ c ∈ scheme, inScheme c = true := by
    rcases known with rfl | rfl <;> exact List.all_eq_true.mp (by decide)
  have split : (scheme ++ "://".toList ++ rest).takeWhile inScheme = scheme ∧
      (scheme ++ "://".toList ++ rest).dropWhile inScheme = "://".toList ++ rest := by
    rw [List.append_assoc]
    exact Text.span_of_all _ name (by simp; decide)
  rw [read?, whole]
  simp only [split.1, split.2]
  rcases known with rfl | rfl <;> rfl

end EntityFeed.Url
