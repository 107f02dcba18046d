import IControl.Json.Reader
import IControl.Proofs.Json.Tree

/-!
# Reading back numbers

A literal ends where its grammar ends, so it is read alike whatever follows it that
does not continue it. A number survives being written when its digits alone are
read as the number again. The decimal digits of an integer are read as one
literal without fraction and exponent, and this literal stands for the integer
again as long as it lies in the range in which numbers stay integers. Not every
double survives, since the reader rounds more than once.
-/

namespace IControl.Json

open Utf8 (Symbol)

/-- The end of a text, or a character that no value continues with. -/
inductive Ends : List Symbol → Prop where
  | done : Ends []
  | comma (rest : List Symbol) : Ends (.char ',' :: rest)
  | bracket (rest : List Symbol) : Ends (.char ']' :: rest)
  | brace (rest : List Symbol) : Ends (.char '\x7d' :: rest)

theorem skipBlank_of_ends {s : List Symbol} (h : Ends s) : skipBlank s = s := by
  cases h <;> rfl

theorem readFraction?_of_ends {s : List Symbol} (h : Ends s) : readFraction? s = some (none, s) := by
  cases h <;> rfl

theorem readExponent?_of_ends {s : List Symbol} (h : Ends s) : readExponent? s = some (none, s) := by
  cases h <;> rfl

/-- A scanner that reads the same whatever follows, and leaves that to the next one. -/
def Local {α : Type} (scan : List Symbol → Option (α × List Symbol)) : Prop :=
  ∀ {s : List Symbol} {a : α} {left : List Symbol}, scan s = some (a, left) →
    ∀ {rest : List Symbol}, Ends rest → scan (s ++ rest) = some (a, left ++ rest)

theorem readDigits_append (s : List Symbol) {rest : List Symbol} (h : Ends rest) :
    readDigits (s ++ rest) = ((readDigits s).1, (readDigits s).2 ++ rest) := by
  induction s with
  | nil => cases h <;> rfl
  | cons c s ih =>
    cases c with
    | stray => rfl
    | char c =>
      rw [List.cons_append, readDigits, readDigits, ih]
      split_ifs <;> rfl

theorem readDigits_of_isDigit {cs : List Char} (digits : ∀ c ∈ cs, c.isDigit) :
    readDigits (cs.map .char) = (cs.map fun c => c.toNat - 48, []) := by
  induction cs with
  | nil => rfl
  | cons c cs ih =>
    have first : '0' ≤ c ∧ c ≤ '9' := by
      have hc := digits c List.mem_cons_self
      simpa [Char.isDigit, Char.le_def] using hc
    have others := ih fun d hd => digits d (List.mem_cons_of_mem _ hd)
    simp only [List.map_cons, readDigits, first, and_self, if_true, others]

theorem readWhole?_eq_some_iff {s : List Symbol} {r : List Nat × List Symbol} :
    readWhole? s = some r ↔ readDigits s = r ∧ r.1 ≠ [] ∧ ∀ d ds, r.1 ≠ 0 :: d :: ds := by
  unfold readWhole?
  constructor
  · intro h
    split at h
    · exact nomatch h
    · exact nomatch h
    · rename_i notEmpty notLeading
      obtain rfl := Option.some.inj h
      exact ⟨rfl, fun empty => notEmpty _ (Prod.ext empty rfl),
        fun d ds leading => notLeading d ds _ (Prod.ext leading rfl)⟩
  · rintro ⟨rfl, notEmpty, notLeading⟩
    split
    · rename_i empty
      exact absurd (congrArg Prod.fst empty) notEmpty
    · rename_i leading
      exact absurd (congrArg Prod.fst leading) (notLeading _ _)
    · rfl

theorem local_readWhole? : Local readWhole? := by
  intro s ds left h rest ends
  obtain ⟨digits, whole⟩ := readWhole?_eq_some_iff.1 h
  exact readWhole?_eq_some_iff.2 ⟨by rw [readDigits_append s ends, digits], whole⟩

theorem readFraction?_point (s : List Symbol) : readFraction? (.char '.' :: s) =
    if (readDigits s).1 = [] then none else some (some (readDigits s).1, (readDigits s).2) := by
  rw [readFraction?]
  rcases readDigits s with ⟨_ | ⟨d, ds⟩, left⟩ <;> rfl

theorem readFraction?_other {x : Symbol} (h : x ≠ .char '.') (s : List Symbol) :
    readFraction? (x :: s) = some (none, x :: s) := by
  rw [readFraction?]
  rintro rest ⟨⟩
  exact h rfl

theorem local_readFraction? : Local readFraction? := by
  intro s digits left h rest ends
  cases s with
  | nil =>
    obtain ⟨rfl, rfl⟩ := Prod.mk.inj (Option.some.inj h)
    exact readFraction?_of_ends ends
  | cons x s =>
    by_cases point : x = .char '.'
    · subst point
      rw [readFraction?_point] at h
      rw [List.cons_append, readFraction?_point, readDigits_append s ends]
      split_ifs at h ⊢
      obtain ⟨rfl, rfl⟩ := Prod.mk.inj (Option.some.inj h)
      rfl
    · rw [readFraction?_other point] at h
      obtain ⟨rfl, rfl⟩ := Prod.mk.inj (Option.some.inj h)
      exact readFraction?_other point (s ++ rest)

theorem readExponentDigits?_eq (negative : Bool) (s : List Symbol) :
    readExponentDigits? negative s =
      if (readDigits s).1 = [] then none else some (some (negative, (readDigits s).1), (readDigits s).2) := by
  rw [readExponentDigits?]
  rcases readDigits s with ⟨_ | ⟨d, ds⟩, left⟩ <;> rfl

theorem local_readExponentDigits? (negative : Bool) : Local (readExponentDigits? negative) := by
  intro s exponent left h rest ends
  rw [readExponentDigits?_eq] at h ⊢
  rw [readDigits_append s ends]
  split_ifs at h ⊢
  obtain ⟨rfl, rfl⟩ := Prod.mk.inj (Option.some.inj h)
  rfl

/-- The sign of an exponent, and what follows it. -/
def signOf : List Symbol → Bool × List Symbol
  | .char '+' :: rest => (false, rest)
  | .char '-' :: rest => (true, rest)
  | rest => (false, rest)

theorem readExponent?_cons (c : Char) (s : List Symbol) : readExponent? (.char c :: s) =
    if c = 'e' ∨ c = 'E' then readExponentDigits? (signOf s).1 (signOf s).2
    else some (none, .char c :: s) := by
  rw [readExponent?.eq_def]
  dsimp only
  split_ifs
  · split
    · rfl
    · rfl
    · rename_i plus minus
      rw [signOf]
      · exact plus
      · exact minus
  · rfl

theorem signOf_append {s : List Symbol} (h : s ≠ []) (rest : List Symbol) :
    signOf (s ++ rest) = ((signOf s).1, (signOf s).2 ++ rest) := by
  cases s with
  | nil => exact absurd rfl h
  | cons x s =>
    rw [List.cons_append, signOf.eq_def, signOf.eq_def]
    split <;> split <;> simp_all

theorem local_readExponent? : Local readExponent? := by
  intro s exponent left h rest ends
  match s with
  | [] =>
    obtain ⟨rfl, rfl⟩ := Prod.mk.inj (Option.some.inj h)
    exact readExponent?_of_ends ends
  | .stray :: s =>
    obtain ⟨rfl, rfl⟩ := Prod.mk.inj (Option.some.inj h)
    rfl
  | .char c :: s =>
    rw [readExponent?_cons] at h
    rw [List.cons_append, readExponent?_cons]
    split_ifs at h ⊢
    · have digits : s ≠ [] := by
        rintro rfl
        exact nomatch h
      rw [signOf_append digits]
      exact local_readExponentDigits? _ h ends
    · obtain ⟨rfl, rfl⟩ := Prod.mk.inj (Option.some.inj h)
      rfl

/-- The sign of a literal, and what follows it. -/
def minusOf : List Symbol → Bool × List Symbol
  | .char '-' :: rest => (true, rest)
  | rest => (false, rest)

theorem minusOf_append {s : List Symbol} (h : s ≠ []) (rest : List Symbol) :
    minusOf (s ++ rest) = ((minusOf s).1, (minusOf s).2 ++ rest) := by
  cases s with
  | nil => exact absurd rfl h
  | cons x s =>
    rw [List.cons_append, minusOf.eq_def, minusOf.eq_def]
    split <;> split <;> simp_all

theorem readLiteral?_eq_some_iff {s left : List Symbol} {l : Number.Literal} :
    readLiteral? s = some (l, left) ↔ ∃ afterWhole afterFraction, (minusOf s).1 = l.negative ∧
      readWhole? (minusOf s).2 = some (l.whole, afterWhole) ∧
      readFraction? afterWhole = some (l.fraction, afterFraction) ∧
      readExponent? afterFraction = some (l.exponent, left) := by
  obtain ⟨negative, whole, fraction, exponent⟩ := l
  have sign : readLiteral? s = (readWhole? (minusOf s).2).bind fun w =>
      (readFraction? w.2).bind fun f => (readExponent? f.2).bind fun e =>
        some (⟨(minusOf s).1, w.1, f.1, e.1⟩, e.2) := rfl
  rw [sign]
  simp only [Option.bind_eq_some_iff, Prod.exists, Option.some.injEq, Prod.mk.injEq,
    Number.Literal.mk.injEq]
  constructor
  · rintro ⟨w, afterWhole, hw, f, afterFraction, hf, e, afterExponent, he, ⟨rfl, rfl, rfl, rfl⟩, rfl⟩
    exact ⟨afterWhole, afterFraction, rfl, hw, hf, he⟩
  · rintro ⟨afterWhole, afterFraction, rfl, hw, hf, he⟩
    exact ⟨whole, afterWhole, hw, fraction, afterFraction, hf, exponent, left, he,
      ⟨rfl, rfl, rfl, rfl⟩, rfl⟩

theorem local_readLiteral? : Local readLiteral? := by
  intro s l left h rest ends
  obtain ⟨afterWhole, afterFraction, minus, whole, fraction, exponent⟩ :=
    readLiteral?_eq_some_iff.1 h
  have digits : s ≠ [] := by
    rintro rfl
    exact nomatch whole
  refine readLiteral?_eq_some_iff.2 ⟨afterWhole ++ rest, afterFraction ++ rest, ?_⟩
  rw [minusOf_append digits]
  exact ⟨minus, local_readWhole? whole ends, local_readFraction? fraction ends,
    local_readExponent? exponent ends⟩

theorem isDigit_of_mem_toDigits {n : Nat} {c : Char} (h : c ∈ Nat.toDigits 10 n) : c.isDigit :=
  Nat.isDigit_of_mem_toDigits (by decide) (by decide) h

theorem toDigits_eq_cons (n : Nat) : ∃ c cs, Nat.toDigits 10 n = c :: cs ∧ c.isDigit := by
  cases written : Nat.toDigits 10 n with
  | nil => exact absurd written Nat.toDigits_ne_nil
  | cons c cs => exact ⟨c, cs, rfl, isDigit_of_mem_toDigits (written ▸ List.mem_cons_self)⟩

theorem digitChar_ne_zero : ∀ n < 10, n ≠ 0 → n.digitChar ≠ '0' := by decide

/-- Only the digits of zero begin with zero. -/
theorem head?_toDigits {n : Nat} (h : n ≠ 0) : (Nat.toDigits 10 n).head? ≠ some '0' := by
  induction n using Nat.strongRecOn with
  | ind n ih =>
    by_cases small : n < 10
    · rw [Nat.toDigits_of_lt_base small]
      simpa using digitChar_ne_zero n small h
    · rw [Nat.toDigits_of_base_le (by omega) (by omega), List.head?_append]
      have shorter := ih (n / 10) (by omega) (by omega)
      cases front : (Nat.toDigits 10 (n / 10)).head? with
      | none => exact absurd (List.head?_eq_none_iff.1 front) Nat.toDigits_ne_nil
      | some c => simpa [front] using shorter

/-- The digits of a natural number, as the reader takes them from its text. -/
def digitsOf (n : Nat) : List Nat := (Nat.toDigits 10 n).map fun c => c.toNat - 48

theorem natOfDigits_digitsOf (n : Nat) : Number.natOfDigits (digitsOf n) = n := by
  have back := Nat.ofDigitChars_ten_toDigits (n := n)
  rw [Nat.ofDigitChars_eq_foldl] at back
  rw [Number.natOfDigits, digitsOf, List.foldl_map]
  exact back

theorem digitsOf_ne_nil (n : Nat) : digitsOf n ≠ [] := by
  simp [digitsOf]

/-- No digits of a number begin with a zero that could be left out. -/
theorem digitsOf_ne_zero_cons (n d : Nat) (ds : List Nat) : digitsOf n ≠ 0 :: d :: ds := by
  intro h
  rcases Nat.eq_zero_or_pos n with rfl | positive
  · simp [digitsOf] at h
  · have first := head?_toDigits (by omega : n ≠ 0)
    obtain ⟨c, cs, written, digit⟩ := toDigits_eq_cons n
    rw [digitsOf, written, List.map_cons, List.cons.injEq] at h
    rw [written, List.head?_cons, ne_eq, Option.some.injEq] at first
    have low : 48 ≤ c.toNat := by
      simp [Char.isDigit, UInt32.le_iff_toNat_le] at digit
      exact digit.1
    exact first (Char.toNat_inj.1 (by have := h.1; simp only [Char.reduceToNat]; omega))

theorem readWhole?_toDigits (n : Nat) :
    readWhole? ((Nat.toDigits 10 n).map .char) = some (digitsOf n, []) := by
  have digits := readDigits_of_isDigit fun c (hc : c ∈ Nat.toDigits 10 n) =>
    isDigit_of_mem_toDigits hc
  exact readWhole?_eq_some_iff.2 ⟨digits, digitsOf_ne_nil n, digitsOf_ne_zero_cons n⟩

/-- The literal that an integer is written as. -/
def literalOf : Int → Number.Literal
  | .ofNat n => ⟨false, digitsOf n, none, none⟩
  | .negSucc n => ⟨true, digitsOf (n + 1), none, none⟩

theorem range_bounds : Nat.pow 2 63 = 9223372036854775808 ∧ Nat.pow 2 64 = 18446744073709551616 :=
  ⟨rfl, rfl⟩

theorem number?_literalOf {i : Int} (h : (Number.integer i).InRange) :
    (literalOf i).number? = some (.integer i) := by
  obtain ⟨low, high⟩ := h
  have bounds := range_bounds
  cases i with
  | ofNat n =>
    have small : ¬Nat.pow 2 64 ≤ n := by
      rw [Int.ofNat_eq_natCast] at high
      omega
    simp only [literalOf, Number.Literal.number?, natOfDigits_digitsOf]
    rw [if_neg (by simp), if_neg Bool.false_ne_true, if_neg small]
    rfl
  | negSucc n =>
    have small : ¬(n + 1 = 0 ∨ Nat.pow 2 63 < n + 1) := by omega
    simp only [literalOf, Number.Literal.number?, natOfDigits_digitsOf]
    rw [if_neg (by simp), if_pos trivial, if_neg small]
    rfl

theorem readLiteral?_intChars (i : Int) :
    readLiteral? ((Number.intChars i).map .char) = some (literalOf i, []) := by
  cases i with
  | ofNat n =>
    obtain ⟨c, cs, written, digit⟩ := toDigits_eq_cons n
    have unsigned : minusOf ((Nat.toDigits 10 n).map .char) =
        (false, (Nat.toDigits 10 n).map .char) := by
      rw [minusOf]
      intro rest signed
      rw [written, List.map_cons, List.cons.injEq, Symbol.char.injEq] at signed
      exact absurd digit (by rw [signed.1]; decide)
    refine readLiteral?_eq_some_iff.2 ⟨[], [], ?_⟩
    rw [Number.intChars, unsigned]
    exact ⟨rfl, readWhole?_toDigits n, rfl, rfl⟩
  | negSucc n =>
    exact readLiteral?_eq_some_iff.2 ⟨[], [], rfl, readWhole?_toDigits (n + 1), rfl, rfl⟩

end Json

namespace Number

/-- The number that characters stand for when they are one literal. -/
def ofChars? (cs : List Char) : Option Number :=
  match Json.readLiteral? (cs.map .char) with
  | some (l, []) => l.number?
  | _ => none

/-- The number is read again from its written form. -/
def Survives (n : Number) : Prop := ofChars? n.chars = some n

instance (n : Number) : Decidable n.Survives := inferInstanceAs (Decidable (_ = _))

theorem ofChars?_eq_some_iff {cs : List Char} {n : Number} : ofChars? cs = some n ↔
    ∃ l, Json.readLiteral? (cs.map .char) = some (l, []) ∧ l.number? = some n := by
  unfold ofChars?
  constructor
  · intro h
    split at h
    · rename_i l read
      exact ⟨l, read, h⟩
    · exact nomatch h
  · rintro ⟨l, read, value⟩
    rw [read]
    exact value

theorem InRange.survives {n : Number} (h : n.InRange) : n.Survives := by
  cases n with
  | integer i => exact ofChars?_eq_some_iff.2 ⟨_, Json.readLiteral?_intChars i, Json.number?_literalOf h⟩
  | double d => exact h.elim

theorem Survives.chars_eq_cons {n : Number} (h : n.Survives) :
    ∃ c cs, n.chars = c :: cs ∧ (c = '-' ∨ c.isDigit) := by
  obtain ⟨l, read, -⟩ := ofChars?_eq_some_iff.1 h
  obtain ⟨afterWhole, -, -, whole, -⟩ := Json.readLiteral?_eq_some_iff.1 read
  obtain ⟨digits, notEmpty, -⟩ := Json.readWhole?_eq_some_iff.1 whole
  cases written : n.chars with
  | nil =>
    rw [written] at digits
    exact absurd (congrArg Prod.fst digits).symm notEmpty
  | cons c cs =>
    refine ⟨c, cs, rfl, ?_⟩
    by_cases minus : c = '-'
    · exact .inl minus
    · right
      have unsigned : Json.minusOf ((c :: cs).map .char) = (false, (c :: cs).map .char) := by
        rw [Json.minusOf]
        intro rest signed
        exact minus (Utf8.Symbol.char.inj (List.cons.inj signed).1)
      by_contra noDigit
      have range : ¬('0' ≤ c ∧ c ≤ '9') := by simpa [Char.isDigit, Char.le_def] using noDigit
      rw [written, unsigned, List.map_cons, Json.readDigits, if_neg range] at digits
      exact notEmpty (congrArg Prod.fst digits).symm

end Number

end IControl
