import EntityFeed.Connection
import EntityFeed.Proofs.Url.Credentials

/-! What is shown of a server's URL, and what is found wrong with it, is the same whatever the password is. -/
namespace EntityFeed.Connection

/-- The URL of a server with the name and the password of a user. -/
def urlOf (scheme user password rest : String) : String :=
  scheme ++ "://" ++ user ++ ":" ++ password ++ "@" ++ rest

/-- Whether a text is a password that stands in a URL as it is. Colons and at signs may be in it. -/
def IsPassword (s : String) : Prop := s ≠ "" ∧ ∀ c ∈ s.toList, c ∉ ['/', '?', '#', '\t', '\r', '\n']

instance (s : String) : Decidable (IsPassword s) := @instDecidableAnd _ _ _ (List.decidableBAll _ _)

variable {scheme user password other rest : String}

theorem IsPassword.inAuthority (h : IsPassword password) :
    (∀ c ∈ password.toList, Url.inAuthority c = true) ∧ password.toList ≠ [] := by
  refine ⟨fun c hc => ?_, by simpa using h.1⟩
  have := h.2 c hc
  simp_all [Url.inAuthority_iff]

theorem masked_eq (text : String) :
    masked text = ((Url.read? text).map Url.masked).elim "<invalid url>" Url.text := by
  rw [masked]
  cases Url.read? text <;> rfl

theorem hasHost_masked (u : Url) : hasHost u.masked = hasHost u := by
  rw [hasHost, hasHost, Url.masked, Option.bind_map]
  rfl

/-- Whether a URL will do shows without its password. -/
theorem fault?_eq {text : String} (some_ : Text.blank text = false) (begun : begins text = true) :
    fault? text = ((Url.read? text).map Url.masked).elim (some .noUrl) fun u =>
      if !hasHost u then some .noHost else if !hasDatabase u then some .noDatabase else none := by
  rw [fault?, some_, begun]
  cases Url.read? text with
  | none => rfl
  | some u =>
    have path : hasDatabase u.masked = hasDatabase u := rfl
    simp only [Option.map_some, Option.elim_some, hasHost_masked, path]
    rfl

theorem toList_urlOf (scheme user password rest : String) : (urlOf scheme user password rest).toList =
    (scheme.toList ++ "://".toList ++ user.toList ++ ':' :: password.toList) ++ '@' :: rest.toList := by
  simp [urlOf]

theorem stripped_urlOf (known : scheme = "postgres" ∨ scheme = "postgresql") (secret : IsPassword password) :
    Url.stripped (urlOf scheme user password rest).toList = scheme.toList ++ "://".toList ++
      (user.toList.filter Url.isRead ++ ':' :: password.toList ++
        '@' :: (rest.toList.rdropWhile Url.isEdge).filter Url.isRead) := by
  have whole : password.toList.filter Url.isRead = password.toList := by
    refine List.filter_eq_self.mpr fun c hc => ?_
    have := secret.2 c hc
    simp_all [Url.isRead]
  have first : ∀ c ∈ (scheme.toList ++ "://".toList ++ user.toList ++ ':' :: password.toList).head?,
      Url.isEdge c = false := by
    rcases known with rfl | rfl <;> simp <;> decide
  have name : (scheme.toList ++ "://".toList).filter Url.isRead = scheme.toList ++ "://".toList := by
    rcases known with rfl | rfl <;> decide
  rw [toList_urlOf, Url.stripped_append (by decide) first _ (by decide), List.filter_append,
    List.filter_append, name, List.filter_cons_of_pos (by decide), whole]
  simp

theorem read?_urlOf (known : scheme = "postgres" ∨ scheme = "postgresql") (secret : IsPassword password) :
    Url.read? (urlOf scheme user password rest) = Url.withAuthority? scheme .general
      (user.toList.filter Url.isRead ++ ':' :: password.toList ++
        '@' :: (rest.toList.rdropWhile Url.isEdge).filter Url.isRead) := by
  have schemes : scheme.toList = "postgres".toList ∨ scheme.toList = "postgresql".toList :=
    known.imp (congrArg _) (congrArg _)
  rw [Url.read?_of_stripped schemes (stripped_urlOf known secret), String.ofList_toList]

theorem begins_urlOf (known : scheme = "postgres" ∨ scheme = "postgresql") (user password rest : String) :
    begins (urlOf scheme user password rest) = true ∧
      Text.blank (urlOf scheme user password rest) = false := by
  rw [begins, Text.blank, toList_urlOf]
  have first : Text.isBlank 'p' = false := by decide
  rcases known with rfl | rfl <;> simp [first]

/-- Where a text is read, no more of it is in front of the path than it shows. -/
theorem at_notMem_authority (ends : '@' ∉ rest.toList.takeWhile (· ∉ ['/', '?', '#'])) :
    '@' ∉ ((rest.toList.rdropWhile Url.isEdge).filter Url.isRead).takeWhile Url.inAuthority := by
  have unread (c : Char) : (!Url.isRead c || Url.inAuthority c) = decide (c ∉ ['/', '?', '#']) := by
    rw [Bool.eq_iff_iff, decide_eq_true_iff, ← Url.inAuthority_iff, Bool.or_eq_true, or_iff_right_of_imp]
    intro dropped
    rw [Url.inAuthority_iff]
    rintro inside
    simp only [List.mem_cons, List.not_mem_nil, or_false] at inside
    rcases inside with rfl | rfl | rfl <;> revert dropped <;> decide
  intro inside
  rw [List.takeWhile_filter] at inside
  have inside := List.mem_of_mem_filter inside
  simp only [unread] at inside
  obtain ⟨tail, whole⟩ := List.rdropWhile_prefix Url.isEdge rest.toList
  refine ends ?_
  rw [← whole, List.takeWhile_append]
  split
  · exact List.mem_append_left _ ((List.takeWhile_subset _) inside)
  · exact inside

/-- The password of a server's URL has no influence on how the URL is shown or on what is found wrong with
it, and so on what is said of it. -/
theorem passwords_alike (known : scheme = "postgres" ∨ scheme = "postgresql")
    (named : ∀ c ∈ user.toList, c ∉ [':', '@', '/', '?', '#'])
    (ends : '@' ∉ rest.toList.takeWhile (· ∉ ['/', '?', '#']))
    (secret : IsPassword password) (secret' : IsPassword other) :
    masked (urlOf scheme user password rest) = masked (urlOf scheme user other rest) ∧
      fault? (urlOf scheme user password rest) = fault? (urlOf scheme user other rest) := by
  have name : ∀ c ∈ user.toList.filter Url.isRead, Url.inAuthority c = true ∧ c ≠ ':' := by
    intro c hc
    have := named c (List.mem_of_mem_filter hc)
    simp_all [Url.inAuthority_iff]
  -- Where one text is no URL, the other is none either; else they differ in what is not shown.
  have same : (Url.read? (urlOf scheme user password rest)).map Url.masked =
      (Url.read? (urlOf scheme user other rest)).map Url.masked := by
    rw [read?_urlOf known secret, read?_urlOf known secret']
    exact Url.withAuthority?_masked scheme name secret.inAuthority.1 secret.inAuthority.2
      secret'.inAuthority.1 secret'.inAuthority.2 (at_notMem_authority ends)
  obtain ⟨begun, some_⟩ := begins_urlOf known user password rest
  obtain ⟨begun', some'⟩ := begins_urlOf known user other rest
  rw [masked_eq, masked_eq, fault?_eq some_ begun, fault?_eq some' begun', same]
  exact ⟨rfl, rfl⟩

theorem ann_alike : IsPassword "a:b@c" ∧ IsPassword "é %" ∧
    masked (urlOf "postgres" "ann" "a:b@c" "db:5432/feed?mail=a@b") =
      "postgres://ann:***@db:5432/feed?mail=a@b" ∧
    masked (urlOf "postgres" "ann" "é %" "db:5432/feed?mail=a@b") =
      "postgres://ann:***@db:5432/feed?mail=a@b" ∧
    fault? (urlOf "postgres" "ann" "a:b@c" "db:5432/feed?mail=a@b") = none ∧
    fault? (urlOf "postgres" "ann" "é %" "db:5432/feed?mail=a@b") = none := by
  have secret : IsPassword "a:b@c" := by decide
  have secret' : IsPassword "é %" := by decide
  obtain ⟨shown, found⟩ := passwords_alike (.inl rfl)
    (show ∀ c ∈ "ann".toList, c ∉ [':', '@', '/', '?', '#'] by simp)
    (show '@' ∉ "db:5432/feed?mail=a@b".toList.takeWhile (· ∉ ['/', '?', '#']) by decide) secret secret'
  have first : masked (urlOf "postgres" "ann" "a:b@c" "db:5432/feed?mail=a@b") =
      "postgres://ann:***@db:5432/feed?mail=a@b" := by decide +kernel
  have faultless : fault? (urlOf "postgres" "ann" "a:b@c" "db:5432/feed?mail=a@b") = none := by
    decide +kernel
  exact ⟨secret, secret', first, shown ▸ first, faultless, found ▸ faultless⟩

end EntityFeed.Connection
