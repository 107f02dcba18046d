import IControl.Json.Reader
import IControl.Proofs.Text.Utf8
import IControl.Text.Percent

/-!
# Reading percent-encoded text

Percent-encoding leaves plain characters and percent signs with two hexadecimal
digits each, and nothing else. Read from left to right, such a text gives its
bytes back: a percent sign and its digits are one byte, a plain character stands
for itself. The bytes are those of the text that was encoded, so no two texts
have the same encoding. Encoding goes character by character, and a tilde stays a
tilde.
-/

namespace IControl

namespace Percent

/-- The characters that stand for themselves: the letters and digits of ASCII and four marks. -/
def isPlainChar (c : Char) : Bool := c.isAlphanum || ['-', '.', '_', '~'].contains c

def isHexChar (c : Char) : Bool := (Json.hexValue? c).isSome

/-- Texts of plain characters and of percent signs that are followed by two hexadecimal digits. -/
inductive Encoded : List Char → Prop
  | nil : Encoded []
  | plain {c : Char} {cs : List Char} : isPlainChar c = true → Encoded cs → Encoded (c :: cs)
  | escape {high low : Char} {cs : List Char} : isHexChar high = true → isHexChar low = true →
      Encoded cs → Encoded ('%' :: high :: low :: cs)

/-- The bytes of a text. A percent sign needs its two digits, every other character may stay. -/
def bytes? : List Char → Option Bytes
  | [] => some []
  | '%' :: high :: low :: cs => do
    let high ← Json.hexValue? high
    let low ← Json.hexValue? low
    let rest ← bytes? cs
    some (UInt8.ofNat (high * 16 + low) :: rest)
  | c :: cs => if c = '%' then none else (bytes? cs).map (String.utf8EncodeChar c ++ ·)

/-- The text that was encoded. -/
def decode? (text : String) : Option String := (bytes? text.toList).bind Utf8.text?

theorem unreserved_byte {b : UInt8} (h : isUnreserved b = true) :
    isPlainChar (Char.ofNat b.toNat) = true ∧ Char.ofNat b.toNat ≠ '%' ∧
      String.utf8EncodeChar (Char.ofNat b.toNat) = [b] := by
  have bytes : ∀ n < 256, isUnreserved (UInt8.ofNat n) = true →
      isPlainChar (Char.ofNat (UInt8.ofNat n).toNat) = true ∧
        Char.ofNat (UInt8.ofNat n).toNat ≠ '%' ∧
        String.utf8EncodeChar (Char.ofNat (UInt8.ofNat n).toNat) = [UInt8.ofNat n] := by
    decide +kernel
  have byte := bytes b.toNat b.toNat_lt
  rw [UInt8.ofNat_toNat] at byte
  exact byte h

theorem hexValue?_hexDigit : ∀ n < 16, Json.hexValue? (hexDigit n) = some n := by decide

theorem isHexChar_hexDigit {n : Nat} (h : n < 16) : isHexChar (hexDigit n) = true := by
  rw [isHexChar, hexValue?_hexDigit n h, Option.isSome_some]

theorem bytes?_plain {c : Char} (h : c ≠ '%') (cs : List Char) :
    bytes? (c :: cs) = (bytes? cs).map (String.utf8EncodeChar c ++ ·) := by
  rw [bytes?, if_neg h]
  intro _ _ _ escape _
  exact h escape

theorem bytes?_encodeByte (b : UInt8) (rest : List Char) :
    bytes? (encodeByte isUnreserved b ++ rest) = (bytes? rest).map (b :: ·) := by
  unfold encodeByte
  split
  · rename_i stays
    obtain ⟨-, percent, own⟩ := unreserved_byte stays
    rw [List.singleton_append, bytes?_plain percent, own]
    rfl
  · have byte : b.toNat < 256 := b.toNat_lt
    have whole : b.toNat / 16 * 16 + b.toNat % 16 = b.toNat := Nat.div_add_mod' b.toNat 16
    simp only [List.cons_append, List.nil_append, bytes?,
      hexValue?_hexDigit _ (by omega : b.toNat / 16 < 16),
      hexValue?_hexDigit _ (by omega : b.toNat % 16 < 16), Option.bind_eq_bind, Option.bind_some,
      whole, UInt8.ofNat_toNat]
    rw [Option.map_eq_bind]
    rfl

theorem encoded_encodeByte (b : UInt8) {rest : List Char} (h : Encoded rest) :
    Encoded (encodeByte isUnreserved b ++ rest) := by
  unfold encodeByte
  split
  · rename_i stays
    exact .plain (unreserved_byte stays).1 h
  · have byte : b.toNat < 256 := b.toNat_lt
    exact .escape (isHexChar_hexDigit (by omega)) (isHexChar_hexDigit (by omega)) h

/-- An encoded text gives its bytes back. -/
theorem bytes?_encode (cs : List Char) : bytes? (encode cs) = some (Utf8.encodeChars cs) := by
  unfold encode encodeExcept
  induction Utf8.encodeChars cs with
  | nil => rfl
  | cons b bs ih => rw [List.flatMap_cons, bytes?_encodeByte, ih, Option.map_some]

theorem encoded_encode (cs : List Char) : Encoded (encode cs) := by
  unfold encode encodeExcept
  induction Utf8.encodeChars cs with
  | nil => exact .nil
  | cons b bs ih => exact List.flatMap_cons ▸ encoded_encodeByte b ih

theorem decode?_encode (cs : List Char) :
    decode? (String.ofList (encode cs)) = some (String.ofList cs) := by
  rw [decode?, String.toList_ofList, bytes?_encode, Option.bind_some, Utf8.text?_encodeChars]

theorem encode_injective {cs ds : List Char} (h : encode cs = encode ds) : cs = ds := by
  have texts : some (String.ofList cs) = some (String.ofList ds) := by
    rw [← decode?_encode, ← decode?_encode, h]
  exact String.ofList_injective (Option.some.inj texts)

theorem Encoded.mem {cs : List Char} (h : Encoded cs) {c : Char} (inside : c ∈ cs) :
    isPlainChar c = true ∨ c = '%' ∨ isHexChar c = true := by
  induction h with
  | nil => exact absurd inside List.not_mem_nil
  | plain first _ ih =>
    rcases List.mem_cons.1 inside with rfl | inside
    · exact .inl first
    · exact ih inside
  | escape high low _ ih =>
    rcases List.mem_cons.1 inside with rfl | inside
    · exact .inr (.inl rfl)
    rcases List.mem_cons.1 inside with rfl | inside
    · exact .inr (.inr high)
    rcases List.mem_cons.1 inside with rfl | inside
    · exact .inr (.inr low)
    · exact ih inside

/-- An encoded text holds none of the characters that divide a URL. -/
theorem Encoded.not_mem {cs : List Char} (h : Encoded cs) {c : Char}
    (dividing : c ∈ ['/', '?', '#', ' ']) : c ∉ cs := by
  intro inside
  have none : ['/', '?', '#', ' '].all (fun c =>
      !(isPlainChar c || c == '%' || isHexChar c)) = true := by rfl
  have free := List.all_eq_true.1 none c dividing
  rcases h.mem inside with plain | percent | hex
  · simp [plain] at free
  · simp [percent] at free
  · simp [hex] at free

theorem isAlphanum_iff {c : Char} : c.isAlphanum = true ↔
    0x41 ≤ c.toNat ∧ c.toNat ≤ 0x5a ∨ 0x61 ≤ c.toNat ∧ c.toNat ≤ 0x7a ∨
      0x30 ≤ c.toNat ∧ c.toNat ≤ 0x39 := by
  have ranges : c.isAlphanum = (decide (c.val ≥ 'A'.val ∧ c.val ≤ 'Z'.val) ||
      (decide (c.val ≥ 'a'.val) && decide (c.val ≤ 'z'.val)) ||
      (decide (c.val ≥ '0'.val) && decide (c.val ≤ '9'.val))) := rfl
  rw [ranges]
  simp only [Bool.or_eq_true, Bool.and_eq_true, decide_eq_true_eq, UInt32.le_iff_toNat_le,
    ge_iff_le, or_assoc]
  rfl

theorem isPlainChar_of_isHexChar {c : Char} (h : isHexChar c = true) : isPlainChar c = true := by
  have letterOrDigit : c.isAlphanum = true := by
    unfold isHexChar Json.hexValue? at h
    simp only [Char.le_def, UInt32.le_iff_toNat_le] at h
    rw [isAlphanum_iff]
    split_ifs at h with digit small capital
    · exact .inr (.inr digit)
    · have last : 'f'.val.toNat ≤ 'z'.val.toNat := by decide
      exact .inr (.inl ⟨small.1, Nat.le_trans small.2 last⟩)
    · have last : 'F'.val.toNat ≤ 'Z'.val.toNat := by decide
      exact .inl ⟨capital.1, Nat.le_trans capital.2 last⟩
    · cases h
  rw [isPlainChar, letterOrDigit, Bool.true_or]

/-! ### Parts of a text -/

theorem encode_append (cs ds : List Char) : encode (cs ++ ds) = encode cs ++ encode ds := by
  simp [encode, encodeExcept, Utf8.encodeChars]

theorem encode_cons (c : Char) (cs : List Char) : encode (c :: cs) = encode [c] ++ encode cs :=
  encode_append [c] cs

theorem encode_tilde_cons (cs : List Char) : encode ('~' :: cs) = '~' :: encode cs := by
  have tilde : encode ['~'] = ['~'] := by decide
  rw [encode_cons, tilde, List.singleton_append]

theorem slash_not_mem_encode (cs : List Char) : '/' ∉ encode cs :=
  (encoded_encode cs).not_mem (by simp)

theorem encodeByte_ne_nil (b : UInt8) : encodeByte isUnreserved b ≠ [] := by
  unfold encodeByte
  split <;> simp

theorem length_encode_cons (c : Char) (cs : List Char) :
    (encode cs).length < (encode (c :: cs)).length := by
  have first : encode [c] ≠ [] := by
    intro none
    obtain ⟨b, bs, bytes⟩ : ∃ b bs, String.utf8EncodeChar c = b :: bs := by
      cases encoded : String.utf8EncodeChar c with
      | nil => exact absurd encoded (by simp)
      | cons b bs => exact ⟨b, bs, rfl⟩
    rw [encode, encodeExcept, Utf8.encodeChars, List.flatMap_singleton, bytes, List.flatMap_cons,
      List.append_eq_nil_iff] at none
    exact encodeByte_ne_nil b none.1
  rw [encode_cons, List.length_append]
  have := List.length_pos_of_ne_nil first
  omega

theorem encode_eq_nil {cs : List Char} (h : encode cs = []) : cs = [] := by
  cases cs with
  | nil => rfl
  | cons c cs =>
    have longer := length_encode_cons c cs
    rw [h] at longer
    exact absurd longer (Nat.not_lt_zero _)

theorem head?_encode (cs : List Char) : (encode cs).head? = some '~' ↔ cs.head? = some '~' := by
  constructor
  · intro tilde
    obtain ⟨rest, chars⟩ := List.head?_eq_some_iff.1 tilde
    have bytes := bytes?_encode cs
    rw [chars, bytes?_plain (by decide)] at bytes
    obtain ⟨others, -, encoded⟩ := Option.map_eq_some_iff.1 bytes
    -- The byte of a tilde is read as a tilde, whatever follows it.
    have symbols := Utf8.symbols_encodeChars cs
    rw [← encoded, Utf8.symbols, Utf8.scan_utf8EncodeChar] at symbols
    cases cs with
    | nil => exact nomatch symbols
    | cons c cs =>
      obtain rfl := Utf8.Symbol.char.inj (List.cons.inj symbols).1
      rfl
  · intro tilde
    obtain ⟨rest, rfl⟩ := List.head?_eq_some_iff.1 tilde
    rw [encode_tilde_cons, List.head?_cons]

end Percent

end IControl
