import IControl.Text.Utf8

/-!
# Base64

The standard alphabet with padding. Three bytes make four digits of six bits; a
last group of one or two bytes is filled up with zero bits and its missing
digits are written as equals signs.
-/

namespace IControl.Base64

/-- The digit of a value below 64. -/
def digit (n : Nat) : Char :=
  if n < 26 then Char.ofNat (n + 65)
  else if n < 52 then Char.ofNat (n - 26 + 97)
  else if n < 62 then Char.ofNat (n - 52 + 48)
  else if n = 62 then '+'
  else '/'

def encode : Bytes → List Char
  | [] => []
  | [a] =>
    let n := a.toNat * 65536
    [digit (n / 262144), digit (n / 4096 % 64), '=', '=']
  | [a, b] =>
    let n := a.toNat * 65536 + b.toNat * 256
    [digit (n / 262144), digit (n / 4096 % 64), digit (n / 64 % 64), '=']
  | a :: b :: c :: rest =>
    let n := a.toNat * 65536 + b.toNat * 256 + c.toNat
    digit (n / 262144) :: digit (n / 4096 % 64) :: digit (n / 64 % 64) :: digit (n % 64) ::
      encode rest

theorem digit_eq (n : Nat) : ∃ m < 64, digit n = digit m := by
  by_cases small : n < 64
  · exact ⟨n, small, rfl⟩
  · refine ⟨63, by decide, ?_⟩
    unfold digit
    rw [if_neg (by omega), if_neg (by omega), if_neg (by omega), if_neg (by omega)]
    rfl

/-- An encoded text consists of digits and of the sign that fills it up. -/
theorem all_encode {p : Char → Bool} (digits : ∀ n, p (digit n) = true) (padding : p '=' = true)
    (bytes : Bytes) : (encode bytes).all p = true := by
  fun_induction encode bytes with
  | case1 => rfl
  | case2 => simp [digits, padding]
  | case3 => simp [digits, padding]
  | case4 _ _ _ _ _ ih => simp [digits, ih]

end IControl.Base64
