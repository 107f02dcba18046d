import IControl.Http.Session
import IControl.Proofs.Text.Trim

/-!
# Parts of URLs

A URL is cut at its first colon and, behind the slashes that follow, at the first
mark that ends a host. What is added behind a host therefore belongs to the rest.
So a URL that goes on with a slash names the server that it named before, or none
at all; and a path that is added to the address of a server is the rest of the
URL. The path of a request begins with a slash, so it is never taken for a URL of
its own, but added to the base URL of the session.
-/

namespace IControl.Http

theorem cutScheme?_eq_some_iff {cs scheme rest : List Char} : cutScheme? cs = some (scheme, rest) ↔
    ∃ after, cs = scheme ++ ':' :: after ∧ ':' ∉ scheme ∧
      Text.lowerAscii (String.ofList scheme) ∈ ["http", "https"] ∧
      after.dropWhile isAnySlash = rest := by
  have free : ∀ name : List Char, (∀ c ∈ name, decide (c ≠ ':') = true) ↔ ':' ∉ name := by
    intro name
    simp only [decide_eq_true_eq]
    exact ⟨fun others inside => others _ inside rfl, fun none c inside same => none (same ▸ inside)⟩
  constructor
  · intro h
    unfold cutScheme? at h
    split at h
    rename_i name behind cut
    obtain ⟨rfl, others, first⟩ := Text.span_eq_iff.1 cut
    dsimp only at h
    split_ifs at h with usual
    obtain ⟨rfl, rfl⟩ := Prod.mk.inj (Option.some.inj h)
    obtain ⟨c, after, rfl⟩ := List.exists_cons_of_ne_nil usual.1
    obtain rfl : c = ':' := by simpa using first c rfl
    exact ⟨after, rfl, (free name).1 others, List.mem_pair.2 usual.2, rfl⟩
  · rintro ⟨after, rfl, none, usual, rfl⟩
    have cut : (scheme ++ ':' :: after).span (fun c => decide (c ≠ ':')) = (scheme, ':' :: after) :=
      Text.span_eq_iff.2 ⟨rfl, (free scheme).2 none, by simp⟩
    simp only [cutScheme?, cut]
    rw [if_pos ⟨List.cons_ne_nil _ _, List.mem_pair.1 usual⟩]
    rfl

theorem cutScheme?_append {cs scheme rest : List Char} (h : cutScheme? cs = some (scheme, rest))
    (present : rest ≠ []) (more : List Char) :
    cutScheme? (cs ++ more) = some (scheme, rest ++ more) := by
  obtain ⟨after, rfl, free, usual, rfl⟩ := cutScheme?_eq_some_iff.1 h
  refine cutScheme?_eq_some_iff.2 ⟨after ++ more, by simp, free, usual, ?_⟩
  rw [List.dropWhile_append, if_neg (mt List.isEmpty_iff.1 present)]

/-- The host of a URL is not empty and has no blanks, and the rest begins with a mark that ends it. -/
theorem Url.ofText?_eq_some_iff {text : String} {url : Url} : Url.ofText? text = some url ↔
    cutScheme? (visible text) = some (url.scheme, url.host ++ url.rest) ∧ url.host ≠ [] ∧
      (∀ c ∈ url.host, endsHost c = false ∧ isControl c = false) ∧
      ∀ c ∈ url.rest.head?, endsHost c = true := by
  unfold Url.ofText?
  rw [Option.bind_eq_bind, Option.bind_eq_some_iff]
  constructor
  · rintro ⟨⟨scheme, behind⟩, split, named⟩
    dsimp only at named
    cases cut : behind.span (!endsHost ·) with
    | mk host rest =>
      obtain ⟨rfl, inside, first⟩ := Text.span_eq_iff.1 cut
      rw [cut] at named
      dsimp only at named
      split_ifs at named with missing
      obtain rfl := Option.some.inj named
      rw [not_or, List.any_eq_true] at missing
      refine ⟨split, missing.1, fun c here => ⟨by simpa using inside c here, ?_⟩,
        fun c here => by simpa using first c here⟩
      exact Bool.eq_false_iff.2 fun control => missing.2 ⟨c, here, control⟩
  · rintro ⟨split, present, plain, ends⟩
    refine ⟨_, split, ?_⟩
    have cut : (url.host ++ url.rest).span (!endsHost ·) = (url.host, url.rest) :=
      Text.span_eq_iff.2 ⟨rfl, fun c here => by simp [(plain c here).1],
        fun c here => by simp [ends c here]⟩
    dsimp only
    rw [cut]
    dsimp only
    rw [if_neg]
    rw [not_or, List.any_eq_true]
    refine ⟨present, ?_⟩
    rintro ⟨c, here, control⟩
    exact absurd control (Bool.eq_false_iff.1 (plain c here).2)

/-! ### What is visible -/

theorem visible_of_forall {url : String} (clean : ∀ c ∈ url.toList, isControl c = false) :
    visible url = url.toList := by
  rw [visible, Text.trim_of_forall clean, List.filter_eq_self]
  intro c inside
  refine decide_eq_true ⟨?_, ?_, ?_⟩ <;> rintro rfl <;> exact absurd (clean _ inside) (by decide)

/-- A URL that goes on with a slash keeps what is visible, but for blanks that stood at its end. -/
theorem visible_append {base path : String} (present : visible base ≠ [])
    (rooted : path.toList.head? = some '/') :
    ∃ blanks more, visible (base ++ path) = visible base ++ (blanks ++ '/' :: more) ∧
      ∀ c ∈ blanks, isControl c = true := by
  obtain ⟨rest, chars⟩ := List.head?_eq_some_iff.1 rooted
  have begins : Text.trimStart isControl base.toList ≠ [] := by
    intro none
    refine present ?_
    rw [visible, Text.trim, none]
    rfl
  obtain ⟨blanks, split, blank⟩ :=
    Text.trimEnd_append_blanks (p := isControl) (Text.trimStart isControl base.toList)
  refine ⟨blanks.filter fun c => c ≠ '\t' ∧ c ≠ '\n' ∧ c ≠ '\r',
    (Text.trimEnd isControl rest).filter fun c => c ≠ '\t' ∧ c ≠ '\n' ∧ c ≠ '\r', ?_,
    fun c inside => blank c (List.mem_of_mem_filter inside)⟩
  rw [visible, visible, String.toList_append, chars, Text.trim, Text.trim,
    Text.trimStart_append begins, Text.trimEnd_append_cons (by decide)]
  nth_rewrite 1 [split]
  simp [List.filter_append]

/-! ### Servers -/

/-- The scheme and the host that a URL names, if it has a target. -/
def server? (url : String) : Option (List Char × List Char) :=
  (Url.ofText? url).map fun parts => (parts.scheme, parts.host)

/-- A text begins with one host only, when what stands behind it begins with a mark or a blank. -/
theorem host_unique {host rest host' rest' : List Char}
    (plain : ∀ c ∈ host, endsHost c = false ∧ isControl c = false)
    (ends : ∀ c ∈ rest.head?, endsHost c = true ∨ isControl c = true)
    (plain' : ∀ c ∈ host', endsHost c = false ∧ isControl c = false)
    (ends' : ∀ c ∈ rest'.head?, endsHost c = true ∨ isControl c = true)
    (same : host ++ rest = host' ++ rest') : host = host' := by
  have cut : ∀ host rest : List Char, (∀ c ∈ host, endsHost c = false ∧ isControl c = false) →
      (∀ c ∈ rest.head?, endsHost c = true ∨ isControl c = true) →
        (host ++ rest).span (fun c => !(endsHost c || isControl c)) = (host, rest) := by
    intro host rest plain ends
    refine Text.span_eq_iff.2 ⟨rfl, fun c here => by simp [plain c here], fun c first => ?_⟩
    rw [Bool.not_eq_false', Bool.or_eq_true]
    exact ends c first
  have pieces := cut host rest plain ends
  rw [same, cut host' rest' plain' ends'] at pieces
  exact (Prod.mk.inj pieces).1.symm

/-- A URL that goes on from one that names a server with a slash names this server or none. -/
theorem server?_append {base path : String} {server other : List Char × List Char}
    (named : server? base = some server) (rooted : path.toList.head? = some '/')
    (h : server? (base ++ path) = some other) : other = server := by
  obtain ⟨url, parts, rfl⟩ := Option.map_eq_some_iff.1 named
  obtain ⟨url', parts', rfl⟩ := Option.map_eq_some_iff.1 h
  obtain ⟨cut, present, plain, ends⟩ := Url.ofText?_eq_some_iff.1 parts
  obtain ⟨cut', -, plain', ends'⟩ := Url.ofText?_eq_some_iff.1 parts'
  have shown : visible base ≠ [] := by
    intro none
    rw [none] at cut
    exact nomatch cut
  obtain ⟨blanks, more, goesOn, blank⟩ := visible_append shown rooted
  rw [goesOn, cutScheme?_append cut (by simp [present]), Option.some.injEq, Prod.mk.injEq,
    List.append_assoc] at cut'
  refine Prod.ext cut'.1.symm (host_unique plain ?_ plain' (fun c first => .inl (ends' c first))
    cut'.2).symm
  cases rest : url.rest with
  | cons m rest => exact fun c first => .inl (ends c (rest ▸ first))
  | nil =>
    cases blanks with
    | cons b blanks =>
      rintro c ⟨⟩
      exact .inr (blank b List.mem_cons_self)
    | nil =>
      rintro c ⟨⟩
      exact .inl rfl

theorem url_of_rooted {path : String} (rooted : path.toList.head? = some '/') (s : Session) :
    "http".toList.isPrefixOf path.toList = false ∧ s.url path = s.baseUrl ++ path := by
  obtain ⟨rest, chars⟩ := List.head?_eq_some_iff.1 rooted
  have plain : "http".toList.isPrefixOf path.toList = false := by
    rw [chars]
    rfl
  exact ⟨plain, if_neg (Bool.eq_false_iff.1 plain)⟩

/-! ### Addresses -/

/-- The address of a server: a scheme and a host, and nothing more. -/
structure IsAddress (url : String) : Prop where
  clean : ∀ c ∈ url.toList, isControl c = false
  parts : ∃ scheme host, Url.ofText? url = some ⟨scheme, host, []⟩

theorem IsAddress.ofText?_append {url path : String} (address : IsAddress url)
    (rooted : path.toList.head? = some '/') (clean : ∀ c ∈ path.toList, isControl c = false) :
    ∃ scheme host, Url.ofText? (url ++ path) = some ⟨scheme, host, path.toList⟩ := by
  obtain ⟨scheme, host, parts⟩ := address.parts
  obtain ⟨cut, present, plain, -⟩ := Url.ofText?_eq_some_iff.1 parts
  refine ⟨scheme, host, Url.ofText?_eq_some_iff.2 ⟨?_, present, plain, ?_⟩⟩
  · have whole : ∀ c ∈ (url ++ path).toList, isControl c = false := by
      rw [String.toList_append]
      exact List.forall_mem_append.2 ⟨address.clean, clean⟩
    rw [visible_of_forall address.clean, List.append_nil] at cut
    rw [visible_of_forall whole, String.toList_append, cutScheme?_append cut present]
  · rw [rooted]
    rintro c ⟨⟩
    rfl

end IControl.Http
