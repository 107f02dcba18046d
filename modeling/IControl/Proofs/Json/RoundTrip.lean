import IControl.Json.Printer
import IControl.Proofs.Json.Literal
import IControl.Proofs.Text.Utf8

/-!
# Reading back written values

The text of a value is read as the document of this value, provided that its
numbers survive being written. A written value is always followed by the end of
the text, a comma or a closing bracket, so the scanners stop where the value
ends.
-/

namespace IControl.Json

open Utf8 (Symbol)

/-! ### Strings -/

theorem hexValue?_hexDigit : ∀ n < 16, hexValue? (hexDigit n) = some n := by decide

theorem unit?_control {n : Nat} (h : n < 0x20) :
    unit? '0' '0' (hexDigit (n / 16)) (hexDigit (n % 16)) = some n := by
  have zero : hexValue? '0' = some 0 := by decide
  simp only [unit?, zero, hexValue?_hexDigit _ (by omega : n / 16 < 16),
    hexValue?_hexDigit _ (by omega : n % 16 < 16), Option.bind_eq_bind, Option.bind_some,
    Option.some.injEq]
  omega

theorem readPieces?_quote (s : List Symbol) : readPieces? (.char '"' :: s) = some ([], s) := by
  rw [readPieces?.eq_def]
  rfl

theorem readPieces?_plain {c : Char} (quote : c ≠ '"') (backslash : c ≠ '\\')
    (control : ¬c.toNat < 0x20) (s : List Symbol) :
    readPieces? (.char c :: s) = (readPieces? s).map fun r => (.char c :: r.1, r.2) := by
  rw [readPieces?.eq_def]
  simp only [quote, backslash, control, if_false]

theorem readPieces?_escaped {e c : Char} (h : escaped? e = some c) (s : List Symbol) :
    readPieces? (.char '\\' :: .char e :: s) =
      (readPieces? s).map fun r => (.char c :: r.1, r.2) := by
  have noUnit : e ≠ 'u' := by
    rintro rfl
    have unescaped : escaped? 'u' = none := by decide
    rw [unescaped] at h
    exact nomatch h
  rw [readPieces?.eq_def]
  simp [noUnit, h]

theorem readPieces?_unit {a b c d : Char} {n : Nat} (h : unit? a b c d = some n)
    (s : List Symbol) :
    readPieces? (.char '\\' :: .char 'u' :: .char a :: .char b :: .char c :: .char d :: s) =
      (readPieces? s).map fun r => (.ofUnit n :: r.1, r.2) := by
  rw [readPieces?.eq_def]
  simp [h]

/-- Whatever the spelling of a character, it is read as one piece. -/
theorem readPieces?_stringChar (c : Char) (s : List Symbol) :
    readPieces? ((stringChar c).map .char ++ s) =
      (readPieces? s).map fun r => (.char c :: r.1, r.2) := by
  unfold stringChar
  iterate 7
    split
    · subst_vars; exact readPieces?_escaped (by decide) s
  split
  · rename_i control
    have unit : Piece.ofUnit c.toNat = .char c := by
      rw [Piece.ofUnit, if_neg (by omega), if_neg (by omega), Char.ofNat_toNat]
    rw [← unit]
    exact readPieces?_unit (unit?_control control) s
  · rename_i quote backslash _ _ _ _ _ control
    exact readPieces?_plain quote backslash control s

theorem readPieces?_flatMap (cs : List Char) (rest : List Symbol) :
    readPieces? ((cs.flatMap stringChar).map .char ++ .char '"' :: rest) =
      some (cs.map .char, rest) := by
  induction cs with
  | nil => exact readPieces?_quote rest
  | cons c cs ih =>
    rw [List.flatMap_cons, List.map_append, List.append_assoc, readPieces?_stringChar, ih]
    rfl

theorem assemble?_map_char (cs : List Char) : assemble? (cs.map .char) = some cs := by
  induction cs with
  | nil => rfl
  | cons c cs ih => rw [List.map_cons, assemble?, ih, Option.map_some]

theorem readString?_stringChars (s : String) (rest : List Symbol) :
    readString? ((s.toList.flatMap stringChar ++ ['"']).map .char ++ rest) =
      some (some s, rest) := by
  rw [List.map_append, List.append_assoc, readString?]
  simp [readPieces?_flatMap, assemble?_map_char]

/-! ### Values -/

theorem readScalar_number {n : Number} (h : n.Survives) {rest : List Symbol} (ends : Ends rest) :
    readScalar (n.chars.map .char ++ rest) = (.number (some n), rest) := by
  obtain ⟨l, read, value⟩ := Number.ofChars?_eq_some_iff.1 h
  obtain ⟨c, cs, written, start⟩ := h.chars_eq_cons
  have literal := local_readLiteral? read ends
  rw [written, List.map_cons, List.cons_append] at literal ⊢
  rw [readScalar.eq_def]
  -- neither a sign nor a digit begins one of the words or a string
  split <;> simp_all

/-- A character that is no blank and closes no container. -/
def Opens (c : Char) : Prop := isBlankSymbol (.char c) = false ∧ c ≠ ']' ∧ c ≠ '\x7d'

instance (c : Char) : Decidable (Opens c) := inferInstanceAs (Decidable (_ ∧ _))

theorem opens_of_isDigit {c : Char} (h : c.isDigit) : Opens c := by
  have other : ∀ d : Char, d.isDigit = false → c ≠ d := by
    rintro d hd rfl
    exact absurd h (by simp [hd])
  refine ⟨?_, other _ (by decide), other _ (by decide)⟩
  simp [isBlankSymbol, other ' ' (by decide), other '\n' (by decide), other '\t' (by decide),
    other '\r' (by decide)]

theorem chars_eq_cons {j : Json} (h : j.Numbers Number.Survives) :
    ∃ c cs, j.chars = c :: cs ∧ Opens c := by
  cases j with
  | null => exact ⟨_, _, rfl, by decide⟩
  | bool b => cases b <;> exact ⟨_, _, rfl, by decide⟩
  | number n =>
    obtain ⟨c, cs, written, start⟩ := Number.Survives.chars_eq_cons h
    refine ⟨c, cs, written, ?_⟩
    rcases start with rfl | digit
    · decide
    · exact opens_of_isDigit digit
  | string s => exact ⟨_, _, rfl, by decide⟩
  | array xs => cases xs <;> exact ⟨_, _, rfl, by decide⟩
  | object ms => cases ms <;> exact ⟨_, _, rfl, by decide⟩

theorem skipBlank_cons {c : Char} (h : Opens c) (s : List Symbol) :
    skipBlank (.char c :: s) = .char c :: s := by
  simp [skipBlank, h.1]

theorem readValue_scalar {c : Char} (h : Opens c) (bracket : c ≠ '[') (brace : c ≠ '\x7b')
    (fuel : Nat) (s : List Symbol) :
    readValue (fuel + 1) (.char c :: s) = readScalar (.char c :: s) := by
  rw [readValue.eq_def]
  simp only [skipBlank_cons h]
  split <;> simp_all

theorem readValue_array {c : Char} (h : Opens c) (fuel : Nat) (s : List Symbol) :
    readValue (fuel + 1) (.char '[' :: .char c :: s) =
      (.array (readItems fuel (.char c :: s)).1 (readItems fuel (.char c :: s)).2.1,
        (readItems fuel (.char c :: s)).2.2) := by
  rw [readValue.eq_def]
  have bracket : skipBlank (.char '[' :: .char c :: s) = .char '[' :: .char c :: s :=
    skipBlank_cons (by decide) _
  simp only [bracket, skipBlank_cons h]
  split
  · rename_i closed
    exact absurd (Symbol.char.inj (List.cons.inj closed).1) h.2.1
  · rfl

theorem readValue_object {c : Char} (h : Opens c) (fuel : Nat) (s : List Symbol) :
    readValue (fuel + 1) (.char '\x7b' :: .char c :: s) =
      (.object (readMembers fuel (.char c :: s)).1 (readMembers fuel (.char c :: s)).2.1,
        (readMembers fuel (.char c :: s)).2.2) := by
  rw [readValue.eq_def]
  have brace : skipBlank (.char '\x7b' :: .char c :: s) = .char '\x7b' :: .char c :: s :=
    skipBlank_cons (by decide) _
  simp only [brace, skipBlank_cons h]
  split
  · rename_i closed
    exact absurd (Symbol.char.inj (List.cons.inj closed).1) h.2.2
  · rfl

/-- The text of the value is read as its document, wherever the value may end. Two units of fuel
for each character are more than enough. -/
def ReadsBack (j : Json) : Prop :=
  ∀ (fuel : Nat) (rest : List Symbol), 2 * j.chars.length ≤ fuel + 1 → Ends rest →
    readValue fuel (j.chars.map .char ++ rest) = (Document.ofJson j, rest)

theorem ends_moreItems (xs : List Json) (rest : List Symbol) :
    Ends ((moreItems xs).map .char ++ rest) := by
  cases xs with
  | nil => exact .bracket rest
  | cons x xs => exact .comma _

theorem readItems_chars {xs : List Json} (items : ∀ x ∈ xs, ReadsBack x) {x : Json}
    (first : ReadsBack x) (fuel : Nat) (rest : List Symbol)
    (enough : 2 * (x.chars.length + (moreItems xs).length) ≤ fuel) :
    readItems fuel (x.chars.map .char ++ ((moreItems xs).map .char ++ rest)) =
      (Document.ofItems (x :: xs), true, rest) := by
  induction xs generalizing x fuel with
  | nil =>
    obtain ⟨fuel, rfl⟩ : ∃ n, fuel = n + 1 := ⟨fuel - 1, by simp [moreItems] at enough; omega⟩
    rw [readItems, first fuel _ (by simp [moreItems] at enough; omega) (ends_moreItems [] rest)]
    rfl
  | cons y ys ih =>
    simp only [moreItems, List.cons_append, List.length_cons, List.length_append] at enough
    obtain ⟨fuel, rfl⟩ : ∃ n, fuel = n + 1 := ⟨fuel - 1, by omega⟩
    have others := ih (fun z hz => items z (List.mem_cons_of_mem _ hz))
      (items y List.mem_cons_self) fuel (by omega)
    rw [readItems, first fuel _ (by omega) (ends_moreItems (y :: ys) rest)]
    simp only [moreItems, List.cons_append, List.map_cons, List.map_append, List.append_assoc]
    rw [show skipBlank (.char ',' :: _) = .char ',' :: _ from skipBlank_cons (by decide) _]
    simp only [others]
    rfl

/-- The written form of a member. -/
def memberChars (m : String × Json) : List Char := stringChars m.1 ++ ':' :: m.2.chars

theorem memberChars_length (m : String × Json) : m.2.chars.length < (memberChars m).length := by
  simp only [memberChars, List.length_append, List.length_cons]
  omega

theorem moreMembers_cons (m : String × Json) (ms : List (String × Json)) :
    moreMembers (m :: ms) = ',' :: (memberChars m ++ moreMembers ms) := by
  simp [moreMembers, memberChars]

/-- What the reader makes of a member, given what follows it. -/
def afterMember (fuel : Nat) (m : Option String × Document) :
    List Symbol → List (Option String × Document) × Bool × List Symbol
  | .char ',' :: rest => (m :: (readMembers fuel rest).1, (readMembers fuel rest).2)
  | .char '\x7d' :: rest => ([m], true, rest)
  | _ => ([m], false, [])

theorem readMembers_member {m : String × Json} (value : ReadsBack m.2) (fuel : Nat)
    {s : List Symbol} (enough : 2 * m.2.chars.length ≤ fuel + 1) (ends : Ends s) :
    readMembers (fuel + 1) ((memberChars m).map .char ++ s) =
      afterMember fuel (some m.1, Document.ofJson m.2) s := by
  have key := readString?_stringChars m.1 (.char ':' :: (m.2.chars.map .char ++ s))
  have blank : ∀ c, Opens c → ∀ s, skipBlank (.char c :: s) = .char c :: s :=
    fun c h s => skipBlank_cons h s
  rw [readMembers.eq_def, memberChars, stringChars]
  simp only [List.cons_append, List.map_cons, List.map_append, List.append_assoc] at key ⊢
  simp only [blank '"' (by decide), key, blank ':' (by decide), value fuel _ enough ends,
    skipBlank_of_ends ends]
  cases ends <;> rfl

theorem readMembers_chars {ms : List (String × Json)} (members : ∀ m ∈ ms, ReadsBack m.2)
    {m : String × Json} (first : ReadsBack m.2) (fuel : Nat) (rest : List Symbol)
    (enough : 2 * ((memberChars m).length + (moreMembers ms).length) ≤ fuel) :
    readMembers fuel ((memberChars m).map .char ++ ((moreMembers ms).map .char ++ rest)) =
      (Document.ofMembers (m :: ms), true, rest) := by
  have length := memberChars_length m
  obtain ⟨fuel, rfl⟩ : ∃ n, fuel = n + 1 := ⟨fuel - 1, by omega⟩
  induction ms generalizing m fuel with
  | nil => exact readMembers_member first fuel (by omega) (.brace rest)
  | cons n ns ih =>
    rw [moreMembers_cons] at enough ⊢
    simp only [List.length_cons, List.length_append] at enough
    obtain ⟨fuel, rfl⟩ : ∃ n, fuel = n + 1 := ⟨fuel - 1, by omega⟩
    have others := ih (fun z hz => members z (List.mem_cons_of_mem _ hz))
      (members n List.mem_cons_self) (memberChars_length n) fuel (by omega)
    simp only [List.cons_append, List.map_cons, List.map_append, List.append_assoc]
    rw [readMembers_member first (fuel + 1) (by omega) (.comma _), afterMember, others]
    rfl

theorem readsBack_of_succ {j : Json} (nonempty : 0 < j.chars.length)
    (h : ∀ (fuel : Nat) (rest : List Symbol), 2 * j.chars.length ≤ fuel + 2 → Ends rest →
      readValue (fuel + 1) (j.chars.map .char ++ rest) = (Document.ofJson j, rest)) :
    ReadsBack j := by
  intro fuel rest enough ends
  obtain ⟨fuel, rfl⟩ : ∃ n, fuel = n + 1 := ⟨fuel - 1, by omega⟩
  exact h fuel rest enough ends

theorem readsBack_number {n : Number} (h : n.Survives) : ReadsBack (.number n) := by
  obtain ⟨c, cs, written, start⟩ := h.chars_eq_cons
  refine readsBack_of_succ (by simp [chars, written]) fun fuel rest _ ends => ?_
  have scalar := readScalar_number h ends
  have other : ∀ d : Char, d ≠ '-' → d.isDigit = false → c ≠ d := by
    rintro d sign digit rfl
    rcases start with start | start
    · exact sign start
    · exact absurd start (by simp [digit])
  have opens : Opens c := by
    rcases start with rfl | start
    · decide
    · exact opens_of_isDigit start
  rw [chars]
  rw [written, List.map_cons, List.cons_append] at scalar ⊢
  rw [readValue_scalar opens (other _ (by decide) (by decide)) (other _ (by decide) (by decide)),
    scalar]
  rfl

theorem readsBack_string (s : String) : ReadsBack (.string s) := by
  refine readsBack_of_succ (by simp [chars, stringChars]) fun fuel rest _ _ => ?_
  have body := readString?_stringChars s rest
  rw [chars, stringChars, List.cons_append, List.map_cons, List.cons_append,
    readValue_scalar (by decide) (by decide) (by decide), readScalar.eq_def]
  simp only [body]
  rfl

theorem readsBack_array {xs : List Json} (h : ∀ x ∈ xs, x.Numbers Number.Survives)
    (items : ∀ x ∈ xs, ReadsBack x) : ReadsBack (.array xs) := by
  cases xs with
  | nil => exact readsBack_of_succ (by simp [chars]) fun _ _ _ _ => rfl
  | cons x xs =>
    obtain ⟨c, cs, written, opens⟩ := chars_eq_cons (h x List.mem_cons_self)
    refine readsBack_of_succ (by simp [chars]) fun fuel rest enough _ => ?_
    simp only [chars, List.length_append, List.length_cons] at enough
    have read := readItems_chars (fun y hy => items y (List.mem_cons_of_mem _ hy))
      (items x List.mem_cons_self) fuel rest (by omega)
    simp only [chars, List.cons_append, List.map_cons, List.map_append, List.append_assoc]
    rw [written, List.map_cons, List.cons_append] at read ⊢
    rw [readValue_array opens, read]
    rfl

theorem readsBack_object {ms : List (String × Json)} (members : ∀ m ∈ ms, ReadsBack m.2) :
    ReadsBack (.object ms) := by
  cases ms with
  | nil => exact readsBack_of_succ (by simp [chars]) fun _ _ _ _ => rfl
  | cons m ms =>
    have written : (object (m :: ms)).chars = '\x7b' :: (memberChars m ++ moreMembers ms) := by
      simp [chars, memberChars]
    refine readsBack_of_succ (by simp [written]) fun fuel rest enough _ => ?_
    rw [written, List.length_cons, List.length_append] at enough
    have read := readMembers_chars (fun n hn => members n (List.mem_cons_of_mem _ hn))
      (members m List.mem_cons_self) fuel rest (by omega)
    rw [written, List.map_cons, List.map_append, List.cons_append, List.append_assoc]
    rw [memberChars, stringChars, List.cons_append, List.cons_append, List.map_cons,
      List.cons_append] at read ⊢
    rw [readValue_object (by decide), read]
    rfl

theorem readsBack {j : Json} (h : j.Numbers Number.Survives) : ReadsBack j := by
  induction j using tree_induction with
  | null =>
    exact readsBack_of_succ (by simp [chars]) fun fuel _ _ _ =>
      readValue_scalar (c := 'n') (by decide) (by decide) (by decide) fuel _
  | bool b =>
    refine readsBack_of_succ (by cases b <;> simp [chars]) fun fuel _ _ _ => ?_
    cases b with
    | true => exact readValue_scalar (c := 't') (by decide) (by decide) (by decide) fuel _
    | false => exact readValue_scalar (c := 'f') (by decide) (by decide) (by decide) fuel _
  | number n => exact readsBack_number h
  | string s => exact readsBack_string s
  | array xs ih =>
    rw [numbers_array] at h
    exact readsBack_array h fun x hx => ih x hx (h x hx)
  | object ms ih =>
    rw [numbers_object] at h
    exact readsBack_object fun m hm => ih m hm (h m hm)

/-- The written form of a value is read as the document of the value, and nothing is left over. -/
theorem read_print {j : Json} (h : j.Numbers Number.Survives) :
    read (Utf8.encode j.print) = (Document.ofJson j, true) := by
  have value := readsBack h (2 * j.chars.length + 2) [] (by omega) .done
  rw [List.append_nil] at value
  rw [read, readSymbols, Utf8.symbols_encode, print, String.toList_ofList, List.length_map, value]
  rfl

end IControl.Json
