import IControl.Text.Utf8

/-!
# Percent encoding

A text becomes part of a URL byte by byte: the bytes that may stay stand for
themselves, and every other one is written as a percent sign and two hexadecimal
digits in capitals. When only the unreserved characters stay, no slash, blank or
percent sign of the text remains, so the result is one segment of a path
whatever the text is.
-/

namespace IControl.Percent

/-- Letters and digits of ASCII, the hyphen, the full stop, the underscore and the tilde. -/
def isUnreserved (b : UInt8) : Bool :=
  let n := b.toNat
  (0x41 ≤ n && n ≤ 0x5A) || (0x61 ≤ n && n ≤ 0x7A) || (0x30 ≤ n && n ≤ 0x39) ||
    n == 0x2D || n == 0x2E || n == 0x5F || n == 0x7E

/-- The hexadecimal digit of a value below 16, in capitals. -/
def hexDigit (n : Nat) : Char := if n < 10 then Char.ofNat (n + 48) else Char.ofNat (n + 55)

/-- A byte as it is if it may stay, and encoded otherwise. -/
def encodeByte (stays : UInt8 → Bool) (b : UInt8) : List Char :=
  if stays b then [Char.ofNat b.toNat]
  else ['%', hexDigit (b.toNat / 16), hexDigit (b.toNat % 16)]

/-- The text with every byte encoded that may not stay. -/
def encodeExcept (stays : UInt8 → Bool) (cs : List Char) : List Char :=
  (Utf8.encodeChars cs).flatMap (encodeByte stays)

/-- The text as one segment of a path. -/
def encode (cs : List Char) : List Char := encodeExcept isUnreserved cs

end IControl.Percent
