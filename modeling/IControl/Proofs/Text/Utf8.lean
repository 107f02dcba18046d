import IControl.Proofs.Outcome
import IControl.Text.Utf8
import Mathlib.Data.List.Flatten
import Mathlib.Tactic.SplitIfs

/-!
# Reading back encoded text

The bytes of a character bring the reader back to where it stood, with this one
character read. A character is written in one to four bytes. The first of them
fixes how many follow, and the range of the second excludes exactly the values
that have a shorter form, are half of a surrogate pair, or lie beyond the last
character. Texts in the order of their characters have their bytes in the same
order, and a text that lacks characters of another one has fewer bytes.
-/

namespace IControl.Utf8

theorem toNat_byte {n : Nat} (h : n < 256) : (UInt8.ofNat n).toNat = n := by
  simp [Nat.mod_eq_of_lt h]

theorem scan_ascii {n : Nat} (h : n < 0x80) (rest : Bytes) :
    scan none (UInt8.ofNat n :: rest) = .char (Char.ofNat n) :: scan none rest := by
  simp only [scan, lead, toNat_byte (by omega : n < 256), h, if_true]

theorem scan_last (code : Nat) {value low high n : Nat} (hn : n < 256) (hl : low ≤ n)
    (hh : n ≤ high) (hcode : value * 64 + (n - 0x80) = code) (rest : Bytes) :
    scan (some ⟨value, 0, low, high⟩) (UInt8.ofNat n :: rest) =
      .char (Char.ofNat code) :: scan none rest := by
  simp only [scan, toNat_byte hn, hl, hh, and_self, if_true, hcode]

theorem scan_inner {value owed low high n : Nat} (hn : n < 256) (hl : low ≤ n) (hh : n ≤ high)
    (rest : Bytes) : scan (some ⟨value, owed + 1, low, high⟩) (UInt8.ofNat n :: rest) =
      scan (some ⟨value * 64 + (n - 0x80), owed, 0x80, 0xBF⟩) rest := by
  simp only [scan, toNat_byte hn, hl, hh, and_self, if_true]

theorem lead_two {n : Nat} (low : 0xC2 ≤ n) (high : n < 0xE0) :
    lead (UInt8.ofNat n) = .inr ⟨n - 0xC0, 0, 0x80, 0xBF⟩ := by
  simp only [lead, toNat_byte (by omega : n < 256)]
  rw [if_neg (by omega), if_neg (by omega), if_pos high]

theorem lead_three {n : Nat} (low : 0xE0 ≤ n) (high : n < 0xF0) :
    lead (UInt8.ofNat n) = .inr ⟨n - 0xE0, 1, if n = 0xE0 then 0xA0 else 0x80,
      if n = 0xED then 0x9F else 0xBF⟩ := by
  simp only [lead, toNat_byte (by omega : n < 256)]
  rw [if_neg (by omega), if_neg (by omega), if_neg (by omega)]
  split_ifs <;> first | omega | simp [*]

theorem lead_four {n : Nat} (low : 0xF0 ≤ n) (high : n ≤ 0xF4) :
    lead (UInt8.ofNat n) = .inr ⟨n - 0xF0, 2, if n = 0xF0 then 0x90 else 0x80,
      if n = 0xF4 then 0x8F else 0xBF⟩ := by
  simp only [lead, toNat_byte (by omega : n < 256)]
  rw [if_neg (by omega), if_neg (by omega), if_neg (by omega), if_neg (by omega),
    if_neg (by omega), if_neg (by omega)]
  split_ifs <;> first | omega | simp [*]

/-- The bytes of a character are read as this character. -/
theorem scan_utf8EncodeChar (c : Char) (rest : Bytes) :
    scan none (String.utf8EncodeChar c ++ rest) = .char c :: scan none rest := by
  have valid : c.val.toNat < 0xd800 ∨ 0xdfff < c.val.toNat ∧ c.val.toNat < 0x110000 := c.valid
  have back : Char.ofNat c.val.toNat = c := Char.ofNat_toNat c
  unfold String.utf8EncodeChar
  generalize c.val.toNat = v at valid back ⊢
  dsimp only
  split_ifs with one two three
  · rw [List.singleton_append, scan_ascii (by omega), back]
  · rw [List.cons_append, List.singleton_append, scan, lead_two (by omega) (by omega)]
    dsimp only
    rw [scan_last v (by omega) (by omega) (by omega) (by omega), back]
  · rw [List.cons_append, List.cons_append, List.singleton_append, scan,
      lead_three (by omega) (by omega)]
    dsimp only
    -- the narrowed range of the second byte holds because `v` is no half of a surrogate pair
    rw [scan_inner (by omega) (by split_ifs <;> omega) (by split_ifs <;> omega),
      scan_last v (by omega) (by omega) (by omega) (by omega), back]
  · rw [List.cons_append, List.cons_append, List.cons_append, List.singleton_append, scan,
      lead_four (by omega) (by omega)]
    dsimp only
    rw [scan_inner (by omega) (by split_ifs <;> omega) (by split_ifs <;> omega),
      scan_inner (by omega) (by omega) (by omega),
      scan_last v (by omega) (by omega) (by omega) (by omega), back]

theorem symbols_encodeChars (cs : List Char) : symbols (encodeChars cs) = cs.map .char := by
  unfold symbols encodeChars
  induction cs with
  | nil => rfl
  | cons c cs ih => rw [List.flatMap_cons, scan_utf8EncodeChar, ih, List.map_cons]

@[simp] theorem symbols_encode (s : String) : symbols (encode s) = s.toList.map .char :=
  symbols_encodeChars s.toList

theorem encode_injective {s t : String} (same : encode s = encode t) : s = t := by
  have symbols : s.toList.map Symbol.char = t.toList.map Symbol.char := by
    rw [← symbols_encode, ← symbols_encode, same]
  apply String.toList_inj.1
  exact (List.map_inj_right fun _ _ => Symbol.char.inj).1 symbols

theorem length_encode_lt {s t : String} (part : s.toList.Sublist t.toList) (other : s ≠ t) :
    (encode s).length < (encode t).length := by
  have bytes : (encode s).Sublist (encode t) := part.flatMap String.utf8EncodeChar
  apply Nat.lt_of_le_of_ne bytes.length_le
  intro lengths
  apply other
  apply encode_injective
  exact bytes.eq_of_length lengths

/-- The first character in which two texts differ decides between their bytes, whatever follows. -/
theorem utf8EncodeChar_lt {c d : Char} (h : c < d) (xs ys : Bytes) :
    String.utf8EncodeChar c ++ xs < String.utf8EncodeChar d ++ ys := by
  have below : c.val.toNat < d.val.toNat := h
  have valid : d.val.toNat < 0x110000 := by
    rcases d.valid with h | ⟨-, h⟩
    · exact Nat.lt_trans h (by decide)
    · exact h
  have less : ∀ m n : Nat, m < 256 → n < 256 → (UInt8.ofNat m < UInt8.ofNat n ↔ m < n) := by
    intro m n hm hn
    rw [UInt8.lt_iff_toNat_lt, toNat_byte hm, toNat_byte hn]
  have same : ∀ m n : Nat, m < 256 → n < 256 → (UInt8.ofNat m = UInt8.ofNat n ↔ m = n) := by
    intro m n hm hn
    rw [← UInt8.toNat_inj, toNat_byte hm, toNat_byte hn]
  -- The bytes hold the digits of the code point to the base 64, so they compare as it does.
  have digits : ∀ n < 0x110000,
      n = n / 262144 % 8 * 262144 + n / 4096 % 64 * 4096 + n / 64 % 64 * 64 + n % 64 := by
    intro n hn
    omega
  unfold String.utf8EncodeChar
  generalize c.val.toNat = v at below ⊢
  generalize d.val.toNat = w at below valid ⊢
  have left := digits v (Nat.lt_trans below valid)
  have right := digits w valid
  dsimp only
  split_ifs <;> simp (disch := omega) only [List.cons_append, List.nil_append,
    List.cons_lt_cons_iff, less, same] <;> omega

theorem encodeChars_lt {cs ds : List Char} (h : cs < ds) : encodeChars cs < encodeChars ds := by
  induction cs generalizing ds with
  | nil =>
    cases ds with
    | nil => exact absurd h (List.lt_irrefl [])
    | cons d ds =>
      obtain ⟨b, bytes, encoded⟩ := List.exists_cons_of_ne_nil (@String.utf8EncodeChar_ne_nil d)
      rw [encodeChars, encodeChars, List.flatMap_cons, encoded]
      exact List.nil_lt_cons b _
  | cons c cs ih =>
    cases ds with
    | nil => exact absurd h (List.not_lt_nil _)
    | cons d ds =>
      rw [encodeChars, encodeChars, List.flatMap_cons, List.flatMap_cons]
      rcases List.cons_lt_cons_iff.1 h with first | ⟨rfl, rest⟩
      · exact utf8EncodeChar_lt first _ _
      · exact List.append_left_lt (ih rest)

/-- The order of texts is that of their bytes. -/
theorem encode_lt {s t : String} (h : s < t) : encode s < encode t :=
  encodeChars_lt (String.lt_iff.1 h)

@[simp] theorem text?_encodeChars (cs : List Char) : text? (encodeChars cs) = some (String.ofList cs) := by
  have chars : (cs.map Symbol.char).mapM Symbol.char? = some cs := by
    rw [mapM_eq_some_iff, List.forall₂_map_left_iff]
    exact List.forall₂_same.2 fun _ _ => rfl
  rw [text?, symbols_encodeChars, chars, Option.map_some]

end IControl.Utf8
