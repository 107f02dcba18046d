import IControl.Proofs.Json.RoundTrip

/-!
# The grammar of JSON

Which characters spell which document: words, numbers, strings with their
escapes, and arrays and objects of values with blanks around each. The grammar
says nothing about how a text is read. The scanners for blanks, numbers and
strings keep to it in both directions: what they read is spelled by the
characters that they take, and what is spelled is read up to its end. A number
ends only where no character follows that would continue it.
-/

namespace IControl.Json

open Utf8 (Symbol)

/-! ### Spelling -/

/-- Blanks, and nothing else. -/
def IsBlank (cs : List Char) : Prop := ∀ c ∈ cs, c ∈ [' ', '\n', '\t', '\r']

/-- One or more decimal digits, and their values. -/
structure IsDigits (cs : List Char) (ds : List Nat) : Prop where
  present : cs ≠ []
  each : ∀ c ∈ cs, '0' ≤ c ∧ c ≤ '9'
  values : cs.map (fun c => c.toNat - 48) = ds

/-- The digits after a point, if there is one. -/
inductive IsFraction : List Char → Option (List Nat) → Prop where
  | none : IsFraction [] none
  | some {cs : List Char} {ds : List Nat} : IsDigits cs ds → IsFraction ('.' :: cs) (some ds)

/-- The sign that an exponent may have. -/
inductive IsSign : List Char → Bool → Prop where
  | none : IsSign [] false
  | plus : IsSign ['+'] false
  | minus : IsSign ['-'] true

inductive IsExponent : List Char → Option (Bool × List Nat) → Prop where
  | none : IsExponent [] none
  | some {mark : Char} {sign cs : List Char} {negative : Bool} {ds : List Nat} :
      mark ∈ ['e', 'E'] → IsSign sign negative → IsDigits cs ds →
        IsExponent (mark :: (sign ++ cs)) (some (negative, ds))

/-- A number: its sign, its whole digits without a needless zero in front, and perhaps a fraction
and an exponent. -/
inductive IsNumber : List Char → Number.Literal → Prop where
  | literal {l : Number.Literal} {whole fraction exponent : List Char} :
      IsDigits whole l.whole → (∀ d ds, l.whole ≠ 0 :: d :: ds) → IsFraction fraction l.fraction →
        IsExponent exponent l.exponent →
          IsNumber ((if l.negative then ['-'] else []) ++ (whole ++ (fraction ++ exponent))) l

/-- What stands between the quotation marks of a string, and the pieces that it stands for. -/
inductive IsBody : List Char → List Piece → Prop where
  | nil : IsBody [] []
  | plain {c : Char} {cs : List Char} {ps : List Piece} : c ≠ '"' → c ≠ '\\' → ¬c.toNat < 0x20 →
      IsBody cs ps → IsBody (c :: cs) (.char c :: ps)
  | escaped {e c : Char} {cs : List Char} {ps : List Piece} : escaped? e = some c →
      IsBody cs ps → IsBody ('\\' :: e :: cs) (.char c :: ps)
  | unit {a b c d : Char} {n : Nat} {cs : List Char} {ps : List Piece} : unit? a b c d = some n →
      IsBody cs ps → IsBody ('\\' :: 'u' :: a :: b :: c :: d :: cs) (.ofUnit n :: ps)

/-- A string in quotation marks, and its text unless it has half of a surrogate pair. -/
inductive IsString : List Char → Option String → Prop where
  | quoted {cs : List Char} {ps : List Piece} : IsBody cs ps →
      IsString ('"' :: (cs ++ ['"'])) ((assemble? ps).map String.ofList)

/-- A part of a text: a value, the same with blanks around it, or what stands between the brackets
of an array or an object that is not empty. -/
inductive Part where
  | value (d : Document)
  | padded (d : Document)
  | items (ds : List Document)
  | member (m : Option String × Document)
  | members (ms : List (Option String × Document))

/-- The characters spell the part. -/
inductive Spelled : List Char → Part → Prop where
  | null : Spelled ['n', 'u', 'l', 'l'] (.value .null)
  | true : Spelled ['t', 'r', 'u', 'e'] (.value (.bool true))
  | false : Spelled ['f', 'a', 'l', 's', 'e'] (.value (.bool false))
  | number {cs : List Char} {l : Number.Literal} : IsNumber cs l →
      Spelled cs (.value (.number l.number?))
  | string {cs : List Char} {s : Option String} : IsString cs s → Spelled cs (.value (.string s))
  | noItems {blanks : List Char} : IsBlank blanks →
      Spelled ('[' :: (blanks ++ [']'])) (.value (.array [] true))
  | array {cs : List Char} {ds : List Document} : Spelled cs (.items ds) →
      Spelled ('[' :: (cs ++ [']'])) (.value (.array ds true))
  | noMembers {blanks : List Char} : IsBlank blanks →
      Spelled ('\x7b' :: (blanks ++ ['\x7d'])) (.value (.object [] true))
  | object {cs : List Char} {ms : List (Option String × Document)} : Spelled cs (.members ms) →
      Spelled ('\x7b' :: (cs ++ ['\x7d'])) (.value (.object ms true))
  | padded {before cs after : List Char} {d : Document} : IsBlank before → Spelled cs (.value d) →
      IsBlank after → Spelled (before ++ (cs ++ after)) (.padded d)
  | lastItem {cs : List Char} {d : Document} : Spelled cs (.padded d) → Spelled cs (.items [d])
  | item {cs more : List Char} {d : Document} {ds : List Document} : Spelled cs (.padded d) →
      Spelled more (.items ds) → Spelled (cs ++ ',' :: more) (.items (d :: ds))
  | member {before name after cs : List Char} {k : Option String} {d : Document} : IsBlank before →
      IsString name k → IsBlank after → Spelled cs (.padded d) →
        Spelled (before ++ (name ++ (after ++ ':' :: cs))) (.member (k, d))
  | lastMember {cs : List Char} {m : Option String × Document} : Spelled cs (.member m) →
      Spelled cs (.members [m])
  | moreMembers {cs more : List Char} {m : Option String × Document}
      {ms : List (Option String × Document)} : Spelled cs (.member m) →
        Spelled more (.members ms) → Spelled (cs ++ ',' :: more) (.members (m :: ms))

/-- The text is a JSON text with this document. -/
def IsText (text : String) (d : Document) : Prop := Spelled text.toList (.padded d)

/-! ### Blanks -/

theorem isBlankSymbol_iff {c : Char} : isBlankSymbol (.char c) = true ↔ c ∈ [' ', '\n', '\t', '\r'] := by
  simp [isBlankSymbol, or_assoc]

theorem skipBlank_append {blanks : List Char} (h : IsBlank blanks) (s : List Symbol) :
    skipBlank (blanks.map .char ++ s) = skipBlank s := by
  refine List.dropWhile_append_of_pos fun x inside => ?_
  obtain ⟨c, blank, rfl⟩ := List.mem_map.1 inside
  exact isBlankSymbol_iff.2 (h c blank)

theorem skipBlank_eq (cs : List Char) : ∃ blanks rest, IsBlank blanks ∧ cs = blanks ++ rest ∧
    skipBlank (cs.map .char) = rest.map .char := by
  induction cs with
  | nil => exact ⟨[], [], nofun, rfl, rfl⟩
  | cons c cs ih =>
    by_cases blank : isBlankSymbol (.char c) = true
    · obtain ⟨blanks, rest, all, split, skipped⟩ := ih
      refine ⟨c :: blanks, rest, ?_, by rw [split]; rfl, ?_⟩
      · exact List.forall_mem_cons.2 ⟨isBlankSymbol_iff.1 blank, all⟩
      · rw [← skipped]
        exact List.dropWhile_cons_of_pos blank
    · exact ⟨[], c :: cs, nofun, rfl, List.dropWhile_cons_of_neg blank⟩

/-! ### Numbers -/

theorem readDigits_eq (cs : List Char) : ∃ digits rest, cs = digits ++ rest ∧
    (∀ c ∈ digits, '0' ≤ c ∧ c ≤ '9') ∧
    readDigits (cs.map .char) = (digits.map (fun c => c.toNat - 48), rest.map .char) := by
  induction cs with
  | nil => exact ⟨[], [], rfl, nofun, rfl⟩
  | cons c cs ih =>
    by_cases digit : '0' ≤ c ∧ c ≤ '9'
    · obtain ⟨digits, rest, split, all, read⟩ := ih
      refine ⟨c :: digits, rest, by rw [split]; rfl, List.forall_mem_cons.2 ⟨digit, all⟩, ?_⟩
      rw [List.map_cons, readDigits, if_pos digit, read]
      rfl
    · refine ⟨[], c :: cs, rfl, nofun, ?_⟩
      rw [List.map_cons, readDigits, if_neg digit]
      rfl

/-- A digit, or a point or a mark that goes on with a number. -/
def Continues (c : Char) : Prop := '0' ≤ c ∧ c ≤ '9' ∨ c = '.' ∨ c = 'e' ∨ c = 'E'

/-- No number goes on with what follows. -/
def Stops (s : List Symbol) : Prop := ∀ c rest, s = .char c :: rest → ¬Continues c

theorem Stops.not_digit {s : List Symbol} (h : Stops s) :
    ∀ c rest, s = .char c :: rest → ¬('0' ≤ c ∧ c ≤ '9') :=
  fun c rest same digit => h c rest same (.inl digit)

theorem readDigits_of_isDigits {cs : List Char} {ds : List Nat} (h : IsDigits cs ds)
    {s : List Symbol} (ends : ∀ c rest, s = .char c :: rest → ¬('0' ≤ c ∧ c ≤ '9')) :
    readDigits (cs.map .char ++ s) = (ds, s) := by
  obtain ⟨-, each, rfl⟩ := h
  induction cs with
  | nil =>
    cases s with
    | nil => rfl
    | cons x s =>
      cases x with
      | stray => rfl
      | char c =>
        rw [List.map_nil, List.nil_append, readDigits, if_neg (ends c s rfl)]
        rfl
  | cons c cs ih =>
    have others := ih fun d inside => each d (List.mem_cons_of_mem _ inside)
    rw [List.map_cons, List.cons_append, readDigits, if_pos (each c List.mem_cons_self), others]
    rfl

theorem isDigits_map {cs : List Char} (each : ∀ c ∈ cs, '0' ≤ c ∧ c ≤ '9')
    (present : cs.map (fun c => c.toNat - 48) ≠ []) :
    IsDigits cs (cs.map fun c => c.toNat - 48) :=
  ⟨mt List.map_eq_nil_iff.2 present, each, rfl⟩

theorem IsDigits.ne_nil {cs : List Char} {ds : List Nat} (h : IsDigits cs ds) : ds ≠ [] := by
  rw [← h.values]
  exact mt List.map_eq_nil_iff.1 h.present

theorem IsDigits.eq_cons {cs : List Char} {ds : List Nat} (h : IsDigits cs ds) :
    ∃ c rest, cs = c :: rest ∧ ('0' ≤ c ∧ c ≤ '9') ∧ c ≠ '+' ∧ c ≠ '-' := by
  obtain ⟨c, rest, rfl⟩ := List.exists_cons_of_ne_nil h.present
  have digit := h.each c List.mem_cons_self
  refine ⟨c, rest, rfl, digit, ?_, ?_⟩
  · rintro rfl
    exact absurd digit (by decide)
  · rintro rfl
    exact absurd digit (by decide)

theorem signOf_of_isSign {sign cs : List Char} {negative : Bool} {ds : List Nat}
    (signed : IsSign sign negative) (digits : IsDigits cs ds) (s : List Symbol) :
    signOf (sign.map .char ++ (cs.map .char ++ s)) = (negative, cs.map .char ++ s) := by
  cases signed with
  | none =>
    obtain ⟨c, rest, rfl, -, plus, minus⟩ := digits.eq_cons
    rw [List.map_nil, List.nil_append, List.map_cons, List.cons_append, signOf]
    · rintro rest ⟨⟩
      exact plus rfl
    · rintro rest ⟨⟩
      exact minus rfl
  | plus => rfl
  | minus => rfl

theorem readExponent?_of_isExponent {cs : List Char} {e : Option (Bool × List Nat)}
    (h : IsExponent cs e) {s : List Symbol} (stops : Stops s) :
    readExponent? (cs.map .char ++ s) = some (e, s) := by
  cases h with
  | none =>
    cases s with
    | nil => rfl
    | cons x s =>
      cases x with
      | stray => rfl
      | char c =>
        have other : ¬(c = 'e' ∨ c = 'E') := fun mark => stops c s rfl (.inr (.inr mark))
        rw [List.map_nil, List.nil_append, readExponent?_cons, if_neg other]
  | some mark sign digits =>
    have read := readDigits_of_isDigits digits stops.not_digit
    rw [List.map_cons, List.map_append, List.cons_append, List.append_assoc, readExponent?_cons,
      if_pos (List.mem_pair.1 mark), signOf_of_isSign sign digits, readExponentDigits?_eq, read,
      if_neg digits.ne_nil]

theorem readFraction?_of_isFraction {cs : List Char} {f : Option (List Nat)} (h : IsFraction cs f)
    {s : List Symbol} (stops : ∀ c rest, s = .char c :: rest → ¬('0' ≤ c ∧ c ≤ '9') ∧ c ≠ '.') :
    readFraction? (cs.map .char ++ s) = some (f, s) := by
  cases h with
  | none =>
    cases s with
    | nil => rfl
    | cons x s =>
      have other : x ≠ .char '.' := by
        rintro rfl
        exact (stops '.' s rfl).2 rfl
      exact readFraction?_other other s
  | some digits =>
    have read := readDigits_of_isDigits digits fun c rest same => (stops c rest same).1
    rw [List.map_cons, List.cons_append, readFraction?_point, read, if_neg digits.ne_nil]

theorem IsExponent.stops {cs : List Char} {e : Option (Bool × List Nat)} (h : IsExponent cs e)
    {s : List Symbol} (stops : Stops s) (c : Char) (rest : List Symbol)
    (same : cs.map .char ++ s = .char c :: rest) : ¬('0' ≤ c ∧ c ≤ '9') ∧ c ≠ '.' := by
  cases h with
  | none => exact ⟨stops.not_digit c rest same, fun point => stops c rest same (.inr (.inl point))⟩
  | some mark =>
    obtain rfl := Symbol.char.inj (List.cons.inj same).1
    rcases List.mem_pair.1 mark with rfl | rfl <;> decide

theorem IsFraction.stops {cs : List Char} {f : Option (List Nat)} (h : IsFraction cs f)
    {s : List Symbol} (stops : ∀ c rest, s = .char c :: rest → ¬('0' ≤ c ∧ c ≤ '9')) (c : Char)
    (rest : List Symbol) (same : cs.map .char ++ s = .char c :: rest) : ¬('0' ≤ c ∧ c ≤ '9') := by
  cases h with
  | none => exact stops c rest same
  | some digits =>
    obtain rfl := Symbol.char.inj (List.cons.inj same).1
    decide

theorem minusOf_of_isDigits {cs : List Char} {ds : List Nat} (digits : IsDigits cs ds)
    (negative : Bool) (s : List Symbol) :
    minusOf ((if negative then ['-'] else []).map .char ++ (cs.map .char ++ s)) =
      (negative, cs.map .char ++ s) := by
  cases negative with
  | true => rfl
  | false =>
    obtain ⟨c, rest, rfl, -, -, minus⟩ := digits.eq_cons
    refine minusOf.eq_2 _ ?_
    rintro rest ⟨⟩
    exact minus rfl

/-- A number is read up to its end when nothing follows that continues it. -/
theorem readLiteral?_of_isNumber {cs : List Char} {l : Number.Literal} (h : IsNumber cs l)
    {s : List Symbol} (stops : Stops s) : readLiteral? (cs.map .char ++ s) = some (l, s) := by
  obtain ⟨digits, leading, isFraction, isExponent⟩ := h
  rename_i whole fraction exponent
  have afterFraction := isExponent.stops stops
  have afterWhole := isFraction.stops fun c rest same => (afterFraction c rest same).1
  refine readLiteral?_eq_some_iff.2
    ⟨fraction.map .char ++ (exponent.map .char ++ s), exponent.map .char ++ s, ?_⟩
  simp only [List.map_append, List.append_assoc, minusOf_of_isDigits digits]
  refine ⟨trivial, readWhole?_eq_some_iff.2 ⟨?_, digits.ne_nil, leading⟩,
    readFraction?_of_isFraction isFraction afterFraction,
    readExponent?_of_isExponent isExponent stops⟩
  exact readDigits_of_isDigits digits afterWhole

/-- Whatever a scanner reads is spelled by the characters that it takes from a text. -/
def Reads {α : Type} (scan : List Symbol → Option (α × List Symbol))
    (Spells : List Char → α → Prop) : Prop :=
  ∀ {cs : List Char} {a : α} {left : List Symbol}, scan (cs.map .char) = some (a, left) →
    ∃ taken rest, cs = taken ++ rest ∧ left = rest.map .char ∧ Spells taken a

theorem reads_readWhole? : Reads readWhole? fun cs ds =>
    IsDigits cs ds ∧ ∀ d others, ds ≠ 0 :: d :: others := by
  intro cs ds left h
  obtain ⟨read, present, leading⟩ := readWhole?_eq_some_iff.1 h
  obtain ⟨digits, rest, split, each, all⟩ := readDigits_eq cs
  obtain ⟨rfl, rfl⟩ := Prod.mk.inj (all.symm.trans read)
  exact ⟨digits, rest, split, rfl, isDigits_map each present, leading⟩

theorem reads_readFraction? : Reads readFraction? IsFraction := by
  intro cs f left h
  cases cs with
  | nil =>
    obtain ⟨rfl, rfl⟩ := Prod.mk.inj (Option.some.inj h)
    exact ⟨[], [], rfl, rfl, .none⟩
  | cons c cs =>
    by_cases point : c = '.'
    · obtain ⟨digits, rest, split, each, all⟩ := readDigits_eq cs
      rw [point, List.map_cons, readFraction?_point, all] at h
      split_ifs at h with none
      obtain ⟨rfl, rfl⟩ := Prod.mk.inj (Option.some.inj h)
      exact ⟨'.' :: digits, rest, by rw [point, split]; rfl, rfl, .some (isDigits_map each none)⟩
    · rw [List.map_cons, readFraction?_other (fun same => point (Symbol.char.inj same))] at h
      obtain ⟨rfl, rfl⟩ := Prod.mk.inj (Option.some.inj h)
      exact ⟨[], c :: cs, rfl, rfl, .none⟩

theorem signOf_eq (cs : List Char) : ∃ sign rest, cs = sign ++ rest ∧
    IsSign sign (signOf (cs.map .char)).1 ∧ (signOf (cs.map .char)).2 = rest.map .char := by
  cases cs with
  | nil => exact ⟨[], [], rfl, .none, rfl⟩
  | cons c cs =>
    by_cases plus : c = '+'
    · subst plus
      exact ⟨['+'], cs, rfl, .plus, rfl⟩
    by_cases minus : c = '-'
    · subst minus
      exact ⟨['-'], cs, rfl, .minus, rfl⟩
    · have unsigned : signOf ((c :: cs).map .char) = (false, (c :: cs).map .char) := by
        refine signOf.eq_3 _ ?_ ?_
        · rintro rest ⟨⟩
          exact plus rfl
        · rintro rest ⟨⟩
          exact minus rfl
      rw [unsigned]
      exact ⟨[], c :: cs, rfl, .none, rfl⟩

theorem reads_readExponent? : Reads readExponent? IsExponent := by
  intro cs e left h
  cases cs with
  | nil =>
    obtain ⟨rfl, rfl⟩ := Prod.mk.inj (Option.some.inj h)
    exact ⟨[], [], rfl, rfl, .none⟩
  | cons c cs =>
    rw [List.map_cons, readExponent?_cons] at h
    split_ifs at h with mark
    · obtain ⟨sign, signless, whole, isSign, after⟩ := signOf_eq cs
      obtain ⟨digits, rest, split, each, all⟩ := readDigits_eq signless
      rw [readExponentDigits?_eq, after, all] at h
      split_ifs at h with none
      obtain ⟨rfl, rfl⟩ := Prod.mk.inj (Option.some.inj h)
      refine ⟨c :: (sign ++ digits), rest, ?_, rfl,
        .some (List.mem_pair.2 mark) isSign (isDigits_map each none)⟩
      rw [whole, split, List.cons_append, List.append_assoc]
    · obtain ⟨rfl, rfl⟩ := Prod.mk.inj (Option.some.inj h)
      exact ⟨[], c :: cs, rfl, rfl, .none⟩

theorem minusOf_eq (cs : List Char) : ∃ rest,
    cs = (if (minusOf (cs.map .char)).1 then ['-'] else []) ++ rest ∧
      (minusOf (cs.map .char)).2 = rest.map .char := by
  cases cs with
  | nil => exact ⟨[], rfl, rfl⟩
  | cons c cs =>
    by_cases minus : c = '-'
    · subst minus
      exact ⟨cs, rfl, rfl⟩
    · have unsigned : minusOf ((c :: cs).map .char) = (false, (c :: cs).map .char) := by
        refine minusOf.eq_2 _ ?_
        rintro rest ⟨⟩
        exact minus rfl
      rw [unsigned]
      exact ⟨c :: cs, rfl, rfl⟩

theorem reads_readLiteral? : Reads readLiteral? IsNumber := by
  intro cs l left h
  obtain ⟨afterWhole, afterFraction, sign, whole, fraction, exponent⟩ := readLiteral?_eq_some_iff.1 h
  obtain ⟨unsigned, split, minus⟩ := minusOf_eq cs
  rw [sign] at split
  rw [minus] at whole
  obtain ⟨w, _, rfl, rfl, digits, leading⟩ := reads_readWhole? whole
  obtain ⟨f, _, rfl, rfl, isFraction⟩ := reads_readFraction? fraction
  obtain ⟨e, rest, rfl, rfl, isExponent⟩ := reads_readExponent? exponent
  refine ⟨_, rest, ?_, rfl, .literal digits leading isFraction isExponent⟩
  rw [split]
  simp only [List.append_assoc]

/-! ### Strings -/

theorem readPieces?_of_isBody {cs : List Char} {ps : List Piece} (h : IsBody cs ps)
    (rest : List Symbol) :
    readPieces? (cs.map .char ++ .char '"' :: rest) = some (ps, rest) := by
  induction h with
  | nil => exact readPieces?_quote rest
  | plain quote backslash control _ ih =>
    rw [List.map_cons, List.cons_append, readPieces?_plain quote backslash control, ih]
    rfl
  | escaped stands _ ih =>
    rw [List.map_cons, List.map_cons, List.cons_append, List.cons_append,
      readPieces?_escaped stands, ih]
    rfl
  | unit stands _ ih =>
    simp only [List.map_cons, List.cons_append]
    rw [readPieces?_unit stands, ih]
    rfl

theorem eq_append_of_map {cs : List Char} (front : List Char) {s : List Symbol}
    (h : cs.map Symbol.char = front.map .char ++ s) :
    ∃ rest, cs = front ++ rest ∧ rest.map Symbol.char = s := by
  obtain ⟨first, rest, rfl, same, others⟩ := List.map_eq_append_iff.1 h
  have chars := List.map_injective_iff.2 (fun _ _ => Symbol.char.inj) same
  exact ⟨rest, by rw [chars], others⟩

theorem isBody_of_readPieces? {cs : List Char} {ps : List Piece} {left : List Symbol}
    (h : readPieces? (cs.map .char) = some (ps, left)) :
    ∃ body rest, cs = body ++ '"' :: rest ∧ left = rest.map .char ∧ IsBody body ps := by
  generalize same : cs.map Symbol.char = s at h
  fun_induction readPieces? s generalizing cs ps left with
  | case1 => exact nomatch h
  | case2 => exact absurd (same ▸ List.mem_cons_self) (by simp)
  | case3 =>
    obtain ⟨rest, rfl, rfl⟩ := eq_append_of_map ['"'] same
    obtain ⟨rfl, rfl⟩ := Prod.mk.inj (Option.some.inj h)
    exact ⟨[], rest, rfl, rfl, .nil⟩
  | case4 a b c d _ n stands _ ih =>
    obtain ⟨others, rfl, chars⟩ := eq_append_of_map ['\\', 'u', a, b, c, d] same
    obtain ⟨⟨ps, left⟩, read, whole⟩ := Option.map_eq_some_iff.1 h
    obtain ⟨rfl, rfl⟩ := Prod.mk.inj whole
    obtain ⟨body, rest, rfl, after, isBody⟩ := ih chars read
    exact ⟨_, rest, rfl, after, .unit stands isBody⟩
  | case5 => exact nomatch h
  | case6 => exact nomatch h
  | case7 e _ _ c stands _ ih =>
    obtain ⟨others, rfl, chars⟩ := eq_append_of_map ['\\', e] same
    obtain ⟨⟨ps, left⟩, read, whole⟩ := Option.map_eq_some_iff.1 h
    obtain ⟨rfl, rfl⟩ := Prod.mk.inj whole
    obtain ⟨body, rest, rfl, after, isBody⟩ := ih chars read
    exact ⟨_, rest, rfl, after, .escaped stands isBody⟩
  | case8 => exact nomatch h
  | case9 => exact nomatch h
  | case10 => exact nomatch h
  | case11 c _ quote backslash control ih =>
    obtain ⟨others, rfl, chars⟩ := eq_append_of_map [c] same
    obtain ⟨⟨ps, left⟩, read, whole⟩ := Option.map_eq_some_iff.1 h
    obtain ⟨rfl, rfl⟩ := Prod.mk.inj whole
    obtain ⟨body, rest, rfl, after, isBody⟩ := ih chars read
    exact ⟨_, rest, rfl, after, .plain quote backslash control isBody⟩

/-- A string after its first quotation mark. -/
theorem isString_of_readString? {cs : List Char} {t : Option String} {left : List Symbol}
    (h : readString? (cs.map .char) = some (t, left)) :
    ∃ body rest, cs = body ++ '"' :: rest ∧ left = rest.map .char ∧
      IsString ('"' :: (body ++ ['"'])) t := by
  obtain ⟨⟨ps, after⟩, read, whole⟩ := Option.map_eq_some_iff.1 h
  obtain ⟨rfl, rfl⟩ := Prod.mk.inj whole
  obtain ⟨body, rest, split, after, isBody⟩ := isBody_of_readPieces? read
  exact ⟨body, rest, split, after, .quoted isBody⟩

theorem IsString.readString? {cs : List Char} {t : Option String} (h : IsString cs t) :
    ∃ body, cs = '"' :: body ∧ ∀ rest, Json.readString? (body.map .char ++ rest) = some (t, rest) := by
  obtain ⟨isBody⟩ := h
  rename_i body ps
  refine ⟨body ++ ['"'], rfl, fun rest => ?_⟩
  rw [List.map_append, List.append_assoc]
  exact congrArg (Option.map _) (readPieces?_of_isBody isBody rest)

/-! ### Words -/

theorem eq_of_afterWord? {word cs : List Char} {left : List Symbol}
    (h : afterWord? word (cs.map .char) = some left) :
    ∃ rest, cs = word ++ rest ∧ left = rest.map .char := by
  induction word generalizing cs with
  | nil => exact ⟨cs, rfl, (Option.some.inj h).symm⟩
  | cons c word ih =>
    cases cs with
    | nil => exact nomatch h
    | cons d cs =>
      rw [List.map_cons, afterWord?] at h
      split_ifs at h with same
      obtain ⟨rest, rfl, after⟩ := ih h
      exact ⟨rest, by rw [same]; rfl, after⟩

end IControl.Json
