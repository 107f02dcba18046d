import IControl.Proofs.Json.Document
import IControl.Proofs.Json.Grammar
import Mathlib.Data.List.DropRight

/-!
# Reading by the grammar

The reader accepts what the grammar allows, and nothing else: a text is read to
its end as a document without a fault exactly when it spells this document. In
one direction the induction is on the derivation, where the fuel of a part is
twice its length; in the other one it is on the fuel.
-/

namespace IControl.Json

open Utf8 (Symbol)

/-! ### Beginnings -/

theorem skipBlank_skipBlank (s : List Symbol) : skipBlank (skipBlank s) = skipBlank s :=
  List.dropWhile_idempotent _ s

theorem readValue_skipBlank (fuel : Nat) (s : List Symbol) :
    readValue fuel (skipBlank s) = readValue fuel s := by
  cases fuel with
  | zero => rfl
  | succ fuel => rw [readValue, readValue, skipBlank_skipBlank]

theorem readItems_skipBlank (fuel : Nat) (s : List Symbol) :
    readItems fuel (skipBlank s) = readItems fuel s := by
  cases fuel with
  | zero => rfl
  | succ fuel => rw [readItems, readItems, readValue_skipBlank]

theorem readMembers_skipBlank (fuel : Nat) (s : List Symbol) :
    readMembers fuel (skipBlank s) = readMembers fuel s := by
  cases fuel with
  | zero => rfl
  | succ fuel => rw [readMembers, readMembers, skipBlank_skipBlank]

theorem IsNumber.opens {cs : List Char} {l : Number.Literal} (h : IsNumber cs l) :
    ∃ c rest, cs = c :: rest ∧ Opens c ∧ (c = '-' ∨ c.isDigit = true) := by
  obtain ⟨digits, -, -, -⟩ := h
  rename_i whole fraction exponent
  cases l.negative with
  | true => exact ⟨'-', whole ++ (fraction ++ exponent), rfl, by decide, .inl rfl⟩
  | false =>
    obtain ⟨c, rest, rfl, digit, -⟩ := digits.eq_cons
    have isDigit : c.isDigit = true := by simpa [Char.isDigit, Char.le_def] using digit
    exact ⟨c, rest ++ (fraction ++ exponent), rfl, opens_of_isDigit isDigit, .inr isDigit⟩

/-- Every part begins, after blanks, with a character that closes nothing. -/
theorem Spelled.opens {cs : List Char} {p : Part} (h : Spelled cs p) :
    ∃ blanks c rest, cs = blanks ++ c :: rest ∧ IsBlank blanks ∧ Opens c := by
  induction h with
  | null | true | false => exact ⟨[], _, _, rfl, nofun, by decide⟩
  | number h =>
    obtain ⟨c, rest, rfl, opens, -⟩ := h.opens
    exact ⟨[], c, rest, rfl, nofun, opens⟩
  | string h =>
    obtain ⟨-⟩ := h
    exact ⟨[], _, _, rfl, nofun, by decide⟩
  | noItems | array | noMembers | object => exact ⟨[], _, _, rfl, nofun, by decide⟩
  | @padded before cs after d blank _ _ ih =>
    obtain ⟨blanks, c, rest, rfl, blank', opens⟩ := ih
    refine ⟨before ++ blanks, c, rest ++ after, ?_, List.forall_mem_append.2 ⟨blank, blank'⟩, opens⟩
    simp only [List.append_assoc, List.cons_append]
  | lastItem _ ih | lastMember _ ih => exact ih
  | @item _ more _ _ _ _ ih | @moreMembers _ more _ _ _ _ ih =>
    obtain ⟨blanks, c, rest, rfl, blank, opens⟩ := ih
    exact ⟨blanks, c, rest ++ ',' :: more, by rw [List.append_assoc, List.cons_append], blank, opens⟩
  | member before name =>
    obtain ⟨-⟩ := name
    exact ⟨_, _, _, rfl, before, by decide⟩

theorem Spelled.length_pos {cs : List Char} {p : Part} (h : Spelled cs p) : 0 < cs.length := by
  obtain ⟨blanks, c, rest, rfl, -, -⟩ := h.opens
  rw [List.length_append, List.length_cons]
  omega

theorem Spelled.skipBlank_eq {cs : List Char} {p : Part} (h : Spelled cs p) (s : List Symbol) :
    ∃ c rest, skipBlank (cs.map .char ++ s) = .char c :: rest ∧ Opens c := by
  obtain ⟨blanks, c, rest, rfl, blank, opens⟩ := h.opens
  refine ⟨c, rest.map .char ++ s, ?_, opens⟩
  rw [List.map_append, List.append_assoc, skipBlank_append blank, List.map_cons, List.cons_append,
    skipBlank_cons opens]

/-! ### Whatever is spelled is read -/

theorem skipBlank_mark {blanks : List Char} (h : IsBlank blanks) {c : Char}
    (mark : isBlankSymbol (.char c) = false) (s : List Symbol) :
    skipBlank (blanks.map .char ++ .char c :: s) = .char c :: s := by
  rw [skipBlank_append h]
  exact List.dropWhile_cons_of_neg (Bool.eq_false_iff.1 mark)

theorem skipBlank_bracket (s : List Symbol) : skipBlank (.char '[' :: s) = .char '[' :: s := rfl

theorem skipBlank_brace (s : List Symbol) : skipBlank (.char '\x7b' :: s) = .char '\x7b' :: s := rfl

section
variable {s rest : List Symbol} {c : Char} (first : skipBlank s = .char c :: rest) (opens : Opens c)
  (fuel : Nat)
include first opens

theorem readValue_items : readValue (fuel + 1) (.char '[' :: s) =
    (.array (readItems fuel s).1 (readItems fuel s).2.1, (readItems fuel s).2.2) := by
  rw [← readItems_skipBlank fuel s, readValue.eq_def]
  simp only [skipBlank_bracket, first]
  split
  · rename_i closed
    exact absurd (Symbol.char.inj (List.cons.inj closed).1) opens.2.1
  · rfl

theorem readValue_members : readValue (fuel + 1) (.char '\x7b' :: s) =
    (.object (readMembers fuel s).1 (readMembers fuel s).2.1, (readMembers fuel s).2.2) := by
  rw [← readMembers_skipBlank fuel s, readValue.eq_def]
  simp only [skipBlank_brace, first]
  split
  · rename_i closed
    exact absurd (Symbol.char.inj (List.cons.inj closed).1) opens.2.2
  · rfl

end

/-- What reading a part means. The fuel is twice the length of the part; a value may be followed by
whatever does not continue a number, the other parts by the end of the text or a mark. -/
def IsRead (cs : List Char) : Part → Prop
  | .value d => ∀ fuel rest, 2 * cs.length ≤ fuel + 1 → Stops rest →
      readValue fuel (cs.map .char ++ rest) = (d, rest)
  | .padded d => ∀ fuel rest, 2 * cs.length ≤ fuel + 1 → Ends rest → ∃ blanks, IsBlank blanks ∧
      readValue fuel (cs.map .char ++ rest) = (d, blanks.map .char ++ rest)
  | .items ds => ∀ fuel rest, 2 * cs.length ≤ fuel →
      readItems fuel (cs.map .char ++ .char ']' :: rest) = (ds, true, rest)
  | .member m => ∀ fuel rest, 2 * cs.length ≤ fuel + 1 → Ends rest →
      readMembers (fuel + 1) (cs.map .char ++ rest) = afterMember fuel m rest
  | .members ms => ∀ fuel rest, 2 * cs.length ≤ fuel →
      readMembers fuel (cs.map .char ++ .char '\x7d' :: rest) = (ms, true, rest)

theorem isRead_value {c : Char} {cs : List Char} {d : Document}
    (h : ∀ fuel rest, 2 * cs.length ≤ fuel → Stops rest →
      readValue (fuel + 1) (.char c :: (cs.map .char ++ rest)) = (d, rest)) :
    IsRead (c :: cs) (.value d) := by
  intro fuel rest enough stops
  rw [List.length_cons] at enough
  obtain ⟨fuel, rfl⟩ : ∃ n, fuel = n + 1 := ⟨fuel - 1, by omega⟩
  exact h fuel rest (by omega) stops

theorem isRead_number {cs : List Char} {l : Number.Literal} (h : IsNumber cs l) :
    IsRead cs (.value (.number l.number?)) := by
  obtain ⟨c, rest, rfl, opens, start⟩ := h.opens
  refine isRead_value fun fuel more _ stops => ?_
  have literal := readLiteral?_of_isNumber h stops
  have other : ∀ d : Char, d ≠ '-' → d.isDigit = false → c ≠ d := by
    rintro d sign digit rfl
    rcases start with start | start
    · exact sign start
    · exact absurd start (by simp [digit])
  rw [readValue_scalar opens (other _ (by decide) (by decide)) (other _ (by decide) (by decide))]
  rw [List.map_cons, List.cons_append] at literal
  rw [readScalar.eq_def]
  -- Neither a sign nor a digit begins one of the words or a string.
  split <;> simp_all

theorem isRead_string {cs : List Char} {t : Option String} (h : IsString cs t) :
    IsRead cs (.value (.string t)) := by
  obtain ⟨body, rfl, read⟩ := h.readString?
  refine isRead_value fun fuel rest _ _ => ?_
  rw [readValue_scalar (by decide) (by decide) (by decide), readScalar.eq_def]
  simp only [read]
  rfl

theorem isRead_empty {blanks : List Char} (h : IsBlank blanks) :
    IsRead ('[' :: (blanks ++ [']'])) (.value (.array [] true)) ∧
      IsRead ('\x7b' :: (blanks ++ ['\x7d'])) (.value (.object [] true)) := by
  have inside : ∀ c, isBlankSymbol (.char c) = false → ∀ rest : List Symbol,
      skipBlank ((blanks ++ [c]).map .char ++ rest) = .char c :: rest := by
    intro c mark rest
    rw [List.map_append, List.append_assoc]
    exact skipBlank_mark h mark rest
  constructor
  · refine isRead_value fun fuel rest _ _ => ?_
    rw [readValue.eq_def]
    simp only [skipBlank_bracket, inside ']' (by decide)]
  · refine isRead_value fun fuel rest _ _ => ?_
    rw [readValue.eq_def]
    simp only [skipBlank_brace, inside '\x7d' (by decide)]

/-- Whatever blanks stand between a value and a mark, they are left to the reader of the mark. -/
theorem stops_of_ends {blanks : List Char} (blank : IsBlank blanks) {rest : List Symbol}
    (ends : Ends rest) : Stops (blanks.map .char ++ rest) := by
  intro c s same
  cases blanks with
  | nil =>
    cases ends with
    | done => exact nomatch same
    | comma | bracket | brace =>
      obtain rfl := Symbol.char.inj (List.cons.inj same).1
      rw [Continues]
      decide
  | cons b blanks =>
    obtain rfl := Symbol.char.inj (List.cons.inj same).1
    have listed := blank b List.mem_cons_self
    simp only [List.mem_cons, List.not_mem_nil, or_false] at listed
    rw [Continues]
    rcases listed with rfl | rfl | rfl | rfl <;> decide

/-- Whatever is spelled is read. -/
theorem Spelled.isRead {cs : List Char} {p : Part} (h : Spelled cs p) : IsRead cs p := by
  induction h with
  | null =>
    exact isRead_value fun fuel _ _ _ => readValue_scalar (by decide) (by decide) (by decide) fuel _
  | true =>
    exact isRead_value fun fuel _ _ _ => readValue_scalar (by decide) (by decide) (by decide) fuel _
  | false =>
    exact isRead_value fun fuel _ _ _ => readValue_scalar (by decide) (by decide) (by decide) fuel _
  | number h => exact isRead_number h
  | string h => exact isRead_string h
  | noItems blank => exact (isRead_empty blank).1
  | noMembers blank => exact (isRead_empty blank).2
  | @array cs ds spelled ih =>
    refine isRead_value fun fuel rest enough _ => ?_
    rw [List.length_append, List.length_singleton] at enough
    rw [List.map_append, List.append_assoc]
    obtain ⟨c, more, first, opens⟩ := spelled.skipBlank_eq ([']'].map .char ++ rest)
    rw [readValue_items first opens]
    have read := ih fuel rest (by omega)
    simp only [List.map_cons, List.map_nil, List.singleton_append, read]
  | @object cs ms spelled ih =>
    refine isRead_value fun fuel rest enough _ => ?_
    rw [List.length_append, List.length_singleton] at enough
    rw [List.map_append, List.append_assoc]
    obtain ⟨c, more, first, opens⟩ := spelled.skipBlank_eq (['\x7d'].map .char ++ rest)
    rw [readValue_members first opens]
    have read := ih fuel rest (by omega)
    simp only [List.map_cons, List.map_nil, List.singleton_append, read]
  | @padded before cs after d blank _ blank' ih =>
    intro fuel rest enough ends
    simp only [List.length_append] at enough
    have read := ih fuel (after.map .char ++ rest) (by omega) (stops_of_ends blank' ends)
    refine ⟨after, blank', ?_⟩
    rw [← readValue_skipBlank, List.map_append, List.map_append, List.append_assoc,
      List.append_assoc, skipBlank_append blank, readValue_skipBlank, read]
  | @lastItem cs d spelled ih =>
    intro fuel rest enough
    have present := spelled.length_pos
    obtain ⟨fuel, rfl⟩ : ∃ n, fuel = n + 1 := ⟨fuel - 1, by omega⟩
    obtain ⟨blanks, blank, read⟩ := ih fuel (.char ']' :: rest) (by omega) (.bracket rest)
    rw [readItems, read]
    simp only [skipBlank_mark blank (c := ']') (by decide)]
  | @item cs more d ds _ _ ih ihMore =>
    intro fuel rest enough
    simp only [List.length_append, List.length_cons] at enough
    obtain ⟨fuel, rfl⟩ : ∃ n, fuel = n + 1 := ⟨fuel - 1, by omega⟩
    have others := ihMore fuel rest (by omega)
    obtain ⟨blanks, blank, read⟩ :=
      ih fuel (.char ',' :: (more.map .char ++ .char ']' :: rest)) (by omega) (.comma _)
    simp only [List.map_append, List.map_cons, List.append_assoc, List.cons_append]
    rw [readItems, read]
    simp only [skipBlank_mark blank (c := ',') (by decide), others]
  | @member before name after cs k d blank isString blank' _ ih =>
    intro fuel rest enough ends
    obtain ⟨body, rfl, key⟩ := isString.readString?
    simp only [List.length_append, List.length_cons] at enough
    obtain ⟨blanks, blank'', read⟩ := ih fuel rest (by omega) ends
    simp only [List.map_append, List.map_cons, List.append_assoc, List.cons_append]
    rw [readMembers]
    simp only [skipBlank_mark blank (c := '"') (by decide), key,
      skipBlank_mark blank' (c := ':') (by decide), read, skipBlank_append blank'',
      skipBlank_of_ends ends]
    cases ends <;> rfl
  | @lastMember cs m spelled ih =>
    intro fuel rest enough
    have present := spelled.length_pos
    obtain ⟨fuel, rfl⟩ : ∃ n, fuel = n + 1 := ⟨fuel - 1, by omega⟩
    rw [ih fuel (.char '\x7d' :: rest) (by omega) (.brace rest)]
    rfl
  | @moreMembers cs more m ms _ _ ih ihMore =>
    intro fuel rest enough
    simp only [List.length_append, List.length_cons] at enough
    obtain ⟨fuel, rfl⟩ : ∃ n, fuel = n + 1 := ⟨fuel - 1, by omega⟩
    have others := ihMore fuel rest (by omega)
    have read := ih fuel (.char ',' :: (more.map .char ++ .char '\x7d' :: rest)) (by omega) (.comma _)
    simp only [List.map_append, List.map_cons, List.append_assoc, List.cons_append]
    rw [read, afterMember, others]

/-! ### Whatever is read is spelled -/

theorem eq_of_skipBlank {cs : List Char} {c : Char} {s : List Symbol}
    (h : skipBlank (cs.map .char) = .char c :: s) :
    ∃ blanks rest, IsBlank blanks ∧ cs = blanks ++ c :: rest ∧ s = rest.map .char := by
  obtain ⟨blanks, others, blank, split, skipped⟩ := skipBlank_eq cs
  obtain ⟨rest, rfl, chars⟩ := eq_append_of_map [c] (skipped.symm.trans h)
  exact ⟨blanks, rest, blank, split, chars.symm⟩

theorem spelled_of_word {c : Char} {word cs : List Char} {e d : Document} {s left : List Symbol}
    (same : cs.map Symbol.char = .char c :: s) (isWord : Spelled (c :: word) (.value e))
    (h : (afterWord? word s).map (e, ·) = some (d, left)) :
    ∃ taken rest, cs = taken ++ rest ∧ left = rest.map .char ∧ Spelled taken (.value d) := by
  obtain ⟨_, rfl, rfl⟩ := eq_append_of_map [c] same
  obtain ⟨after, others, whole⟩ := Option.map_eq_some_iff.1 h
  obtain ⟨rfl, rfl⟩ := Prod.mk.inj whole
  obtain ⟨rest, rfl, after⟩ := eq_of_afterWord? others
  exact ⟨_, rest, rfl, after, isWord⟩

theorem spelled_of_readScalar {cs : List Char} {d : Document} {left : List Symbol}
    (h : readScalar (cs.map .char) = (d, left)) (sound : d.isSound = true) :
    ∃ taken rest, cs = taken ++ rest ∧ left = rest.map .char ∧ Spelled taken (.value d) := by
  have ended : ∀ {found : Option (Document × List Symbol)},
      found.getD (.fault, []) = (d, left) → found = some (d, left) := by
    rintro (_ | ⟨e, after⟩) same
    · obtain ⟨rfl, -⟩ := Prod.mk.inj same
      exact nomatch sound
    · exact congrArg some same
  generalize same : cs.map Symbol.char = s at h
  rw [readScalar.eq_def] at h
  have found := ended h
  split at found
  · exact spelled_of_word same .null found
  · exact spelled_of_word same .true found
  · exact spelled_of_word same .false found
  · obtain ⟨others, rfl, rfl⟩ := eq_append_of_map ['"'] same
    obtain ⟨⟨t, after⟩, string, whole⟩ := Option.map_eq_some_iff.1 found
    obtain ⟨rfl, rfl⟩ := Prod.mk.inj whole
    obtain ⟨body, rest, rfl, after, isString⟩ := isString_of_readString? string
    exact ⟨'"' :: (body ++ ['"']), rest, by simp, after, .string isString⟩
  · subst same
    obtain ⟨⟨l, after⟩, literal, whole⟩ := Option.map_eq_some_iff.1 found
    obtain ⟨rfl, rfl⟩ := Prod.mk.inj whole
    obtain ⟨taken, rest, rfl, after, isNumber⟩ := reads_readLiteral? literal
    exact ⟨taken, rest, rfl, after, .number isNumber⟩

/-- A value is spelled by what is read, after blanks. -/
def ValueIsSpelled (fuel : Nat) : Prop :=
  ∀ {cs : List Char} {d : Document} {left : List Symbol},
    readValue fuel (cs.map .char) = (d, left) → d.isSound = true →
      ∃ blanks taken rest, IsBlank blanks ∧ cs = blanks ++ (taken ++ rest) ∧
        left = rest.map .char ∧ Spelled taken (.value d)

/-- The items of a closed array are spelled by what is read before its bracket. -/
def ItemsAreSpelled (fuel : Nat) : Prop :=
  ∀ {cs : List Char} {ds : List Document} {left : List Symbol},
    readItems fuel (cs.map .char) = (ds, true, left) → Document.allSound ds = true →
      ∃ taken rest, cs = taken ++ ']' :: rest ∧ left = rest.map .char ∧ Spelled taken (.items ds)

/-- The members of a closed object are spelled by what is read before its brace. -/
def MembersAreSpelled (fuel : Nat) : Prop :=
  ∀ {cs : List Char} {ms : List (Option String × Document)} {left : List Symbol},
    readMembers fuel (cs.map .char) = (ms, true, left) → Document.membersSound ms = true →
      ∃ taken rest, cs = taken ++ '\x7d' :: rest ∧ left = rest.map .char ∧
        Spelled taken (.members ms)

theorem valueIsSpelled_succ {fuel : Nat} (items : ItemsAreSpelled fuel)
    (members : MembersAreSpelled fuel) : ValueIsSpelled (fuel + 1) := by
  intro cs d left h sound
  rw [readValue.eq_def] at h
  dsimp only at h
  split at h
  · rename_i s bracket
    obtain ⟨blanks, inner, blank, rfl, rfl⟩ := eq_of_skipBlank bracket
    split at h
    · rename_i _ closed
      obtain ⟨blanks', rest, blank', rfl, rfl⟩ := eq_of_skipBlank closed
      obtain ⟨rfl, rfl⟩ := Prod.mk.inj h
      exact ⟨blanks, _, rest, blank, by simp, rfl, .noItems blank'⟩
    · rw [readItems_skipBlank] at h
      obtain ⟨rfl, rfl⟩ := Prod.mk.inj h
      rw [Document.isSound, Bool.and_eq_true] at sound
      have read : readItems fuel (inner.map .char) = (_, true, _) :=
        Prod.ext rfl (Prod.ext sound.2 rfl)
      obtain ⟨taken, rest, rfl, after, spelled⟩ := items read sound.1
      refine ⟨blanks, '[' :: (taken ++ [']']), rest, blank, by simp, after, ?_⟩
      rw [sound.2]
      exact .array spelled
  · rename_i s brace
    obtain ⟨blanks, inner, blank, rfl, rfl⟩ := eq_of_skipBlank brace
    split at h
    · rename_i _ closed
      obtain ⟨blanks', rest, blank', rfl, rfl⟩ := eq_of_skipBlank closed
      obtain ⟨rfl, rfl⟩ := Prod.mk.inj h
      exact ⟨blanks, _, rest, blank, by simp, rfl, .noMembers blank'⟩
    · rw [readMembers_skipBlank] at h
      obtain ⟨rfl, rfl⟩ := Prod.mk.inj h
      rw [Document.isSound, Bool.and_eq_true] at sound
      have read : readMembers fuel (inner.map .char) = (_, true, _) :=
        Prod.ext rfl (Prod.ext sound.2 rfl)
      obtain ⟨taken, rest, rfl, after, spelled⟩ := members read sound.1
      refine ⟨blanks, '\x7b' :: (taken ++ ['\x7d']), rest, blank, by simp, after, ?_⟩
      rw [sound.2]
      exact .object spelled
  · obtain ⟨blanks, others, blank, split, skipped⟩ := skipBlank_eq cs
    rw [skipped] at h
    obtain ⟨taken, rest, rfl, after, spelled⟩ := spelled_of_readScalar h sound
    exact ⟨blanks, taken, rest, blank, split, after, spelled⟩

theorem itemsAreSpelled_succ {fuel : Nat} (value : ValueIsSpelled fuel)
    (items : ItemsAreSpelled fuel) : ItemsAreSpelled (fuel + 1) := by
  intro cs ds left h sound
  obtain ⟨d, between, read⟩ : ∃ d between, readValue fuel (cs.map .char) = (d, between) :=
    ⟨_, _, rfl⟩
  rw [readItems, read] at h
  dsimp only at h
  split at h
  · rename_i s comma
    obtain ⟨rfl, more⟩ := Prod.mk.inj h
    rw [Document.allSound, Bool.and_eq_true] at sound
    obtain ⟨before, taken, _, blank, rfl, rfl, spelled⟩ := value read sound.1
    obtain ⟨after, _, blank', rfl, rfl⟩ := eq_of_skipBlank comma
    obtain ⟨taken', rest, rfl, left, others⟩ := items (Prod.ext rfl more) sound.2
    refine ⟨(before ++ (taken ++ after)) ++ ',' :: taken', rest, by simp, left, ?_⟩
    exact .item (.padded blank spelled blank') others
  · rename_i s bracket
    obtain ⟨rfl, more⟩ := Prod.mk.inj h
    obtain ⟨-, rfl⟩ := Prod.mk.inj more
    rw [Document.allSound, Bool.and_eq_true] at sound
    obtain ⟨before, taken, _, blank, rfl, rfl, spelled⟩ := value read sound.1
    obtain ⟨after, rest, blank', rfl, rfl⟩ := eq_of_skipBlank bracket
    exact ⟨before ++ (taken ++ after), rest, by simp, rfl, .lastItem (.padded blank spelled blank')⟩
  · exact absurd (congrArg (fun read => read.2.1) h) Bool.false_ne_true

theorem membersAreSpelled_succ {fuel : Nat} (value : ValueIsSpelled fuel)
    (members : MembersAreSpelled fuel) : MembersAreSpelled (fuel + 1) := by
  intro cs ms left h sound
  rw [readMembers] at h
  split at h
  · rename_i s quote
    obtain ⟨before, _, blank, rfl, rfl⟩ := eq_of_skipBlank quote
    split at h
    · exact absurd (congrArg (fun read => read.2.1) h) Bool.false_ne_true
    · rename_i k s string
      obtain ⟨name, _, rfl, rfl, isString⟩ := isString_of_readString? string
      split at h
      · rename_i s colon
        obtain ⟨after, inner, blank', rfl, rfl⟩ := eq_of_skipBlank colon
        obtain ⟨d, between, read⟩ : ∃ d between, readValue fuel (inner.map .char) = (d, between) :=
          ⟨_, _, rfl⟩
        rw [read] at h
        dsimp only at h
        split at h
        · rename_i s comma
          obtain ⟨rfl, more⟩ := Prod.mk.inj h
          rw [Document.membersSound, Bool.and_eq_true] at sound
          obtain ⟨front, taken, _, blankFront, rfl, rfl, spelled⟩ := value read sound.1
          obtain ⟨back, _, blankBack, rfl, rfl⟩ := eq_of_skipBlank comma
          obtain ⟨taken', rest, rfl, left, others⟩ := members (Prod.ext rfl more) sound.2
          refine ⟨_, rest, ?_, left, .moreMembers (.member blank isString blank'
            (.padded blankFront spelled blankBack)) others⟩
          simp
        · rename_i s brace
          obtain ⟨rfl, more⟩ := Prod.mk.inj h
          obtain ⟨-, rfl⟩ := Prod.mk.inj more
          rw [Document.membersSound, Bool.and_eq_true] at sound
          obtain ⟨front, taken, _, blankFront, rfl, rfl, spelled⟩ := value read sound.1
          obtain ⟨back, rest, blankBack, rfl, rfl⟩ := eq_of_skipBlank brace
          refine ⟨_, rest, ?_, rfl, .lastMember (.member blank isString blank'
            (.padded blankFront spelled blankBack))⟩
          simp
        · exact absurd (congrArg (fun read => read.2.1) h) Bool.false_ne_true
      · exact absurd (congrArg (fun read => read.2.1) h) Bool.false_ne_true
  · exact absurd (congrArg (fun read => read.2.1) h) Bool.false_ne_true

theorem isSpelled (fuel : Nat) :
    ValueIsSpelled fuel ∧ ItemsAreSpelled fuel ∧ MembersAreSpelled fuel := by
  induction fuel with
  | zero =>
    refine ⟨?_, ?_, ?_⟩
    · intro cs d left h sound
      obtain ⟨rfl, -⟩ := Prod.mk.inj h
      exact nomatch sound
    · intro cs ds left h
      exact absurd (congrArg (fun read => read.2.1) h) Bool.false_ne_true
    · intro cs ms left h
      exact absurd (congrArg (fun read => read.2.1) h) Bool.false_ne_true
  | succ fuel ih =>
    obtain ⟨value, items, members⟩ := ih
    exact ⟨valueIsSpelled_succ items members, itemsAreSpelled_succ value items,
      membersAreSpelled_succ value members⟩

/-! ### Texts -/

/-- The documents of a part have no fault. -/
def Part.IsSound : Part → Prop
  | .value d | .padded d => d.isSound = true
  | .items ds => Document.allSound ds = true
  | .member m => m.2.isSound = true
  | .members ms => Document.membersSound ms = true

theorem Spelled.isSound {cs : List Char} {p : Part} (h : Spelled cs p) : p.IsSound := by
  induction h with
  | null | true | false | number | string | noItems | noMembers => rfl
  | array _ ih | object _ ih => exact Bool.and_eq_true_iff.2 ⟨ih, rfl⟩
  | padded _ _ _ ih | member _ _ _ _ ih => exact ih
  | lastItem _ ih | lastMember _ ih => exact Bool.and_eq_true_iff.2 ⟨ih, rfl⟩
  | item _ _ ih ihMore | moreMembers _ _ ih ihMore => exact Bool.and_eq_true_iff.2 ⟨ih, ihMore⟩

/-- A text is read to its end as a document without a fault exactly when it spells this document. -/
theorem read_eq_iff {text : String} {d : Document} :
    read (Utf8.encode text) = (d, true) ∧ d.isSound = true ↔ IsText text d := by
  rw [read, Utf8.symbols_encode, readSymbols]
  constructor
  · rintro ⟨whole, sound⟩
    obtain ⟨e, left, value⟩ : ∃ e left, readValue (2 * (text.toList.map Symbol.char).length + 2)
      (text.toList.map Symbol.char) = (e, left) := ⟨_, _, rfl⟩
    rw [value] at whole
    obtain ⟨rfl, ended⟩ := Prod.mk.inj whole
    obtain ⟨before, taken, rest, blank, split, rfl, spelled⟩ := (isSpelled _).1 value sound
    obtain ⟨after, others, blank', rfl, skipped⟩ := skipBlank_eq rest
    rw [skipped] at ended
    obtain rfl := List.map_eq_nil_iff.1 (List.isEmpty_iff.1 ended)
    rw [IsText, split, List.append_nil]
    exact .padded blank spelled blank'
  · intro spelled
    have enough : 2 * text.toList.length ≤ 2 * (text.toList.map Symbol.char).length + 2 + 1 := by
      rw [List.length_map]
      omega
    obtain ⟨blanks, blank, value⟩ := spelled.isRead _ [] enough .done
    rw [List.append_nil] at value
    refine ⟨?_, spelled.isSound⟩
    rw [value, skipBlank_append blank]
    rfl

end IControl.Json
