import IControl.Number.Shortest

/-!
# Numbers of a document

A number is an integer between `-2^63` and `2^64 - 1` or a double. A literal
without fraction and exponent is an integer when it lies in that range and is
not `-0`; every other literal is a double. Its digits are gathered from the left
while the significand stays below `2^64`; the digits after that only shift the
exponent, or are dropped when they stand after the point.
-/

namespace IControl

inductive Number where
  | integer (value : Int)
  | double (value : Double)
  deriving DecidableEq, Repr

namespace Number

def intChars : Int → List Char
  | .ofNat n => Nat.toDigits 10 n
  | .negSucc n => '-' :: Nat.toDigits 10 (n + 1)

/-- A number with its sign, also when it is positive. -/
def signedChars (n : Int) : List Char := if 0 ≤ n then '+' :: intChars n else intChars n

/-- The written form of nonzero digits: with a point when `10^-5 ≤ x < 10^16`, and with a signed
exponent otherwise. A whole number keeps one zero after the point. -/
def digitChars (d : Double.Digits) : List Char :=
  let n := d.digits.length
  if (n : Int) ≤ d.point ∧ d.point ≤ 16 then
    d.digits ++ List.replicate (d.point.toNat - n) '0' ++ ['.', '0']
  else if 0 < d.point ∧ d.point ≤ 16 then
    d.digits.take d.point.toNat ++ '.' :: d.digits.drop d.point.toNat
  else if -5 < d.point ∧ d.point ≤ 0 then
    '0' :: '.' :: List.replicate (-d.point).toNat '0' ++ d.digits
  else
    let fraction := d.digits.drop 1
    d.digits.take 1 ++ (if fraction.isEmpty then [] else '.' :: fraction) ++
      'e' :: signedChars (d.point - 1)

def doubleChars (d : Double) : List Char :=
  let magnitude := if d.isZero then ['0', '.', '0'] else digitChars d.shortest
  if d.negative then '-' :: magnitude else magnitude

/-- The written form of a number. -/
def chars : Number → List Char
  | .integer i => intChars i
  | .double d => doubleChars d

/-- The parts of a number as written: its sign, the digits before the point, those after it, and
the sign and digits of the exponent. -/
structure Literal where
  negative : Bool
  whole : List Nat
  fraction : Option (List Nat)
  exponent : Option (Bool × List Nat)
  deriving DecidableEq, Repr

/-- Appends digits to a significand while it stays below `2^64`, and counts those left over. -/
def gather (significand : Nat) : List Nat → Nat × Nat
  | [] => (significand, 0)
  | d :: ds =>
    if Nat.pow 2 64 ≤ 10 * significand + d then (significand, ds.length + 1)
    else gather (10 * significand + d) ds

def natOfDigits (ds : List Nat) : Nat := ds.foldl (fun n d => 10 * n + d) 0

def Literal.exponentValue (l : Literal) : Int :=
  match l.exponent with
  | none => 0
  | some (true, ds) => -(natOfDigits ds : Int)
  | some (false, ds) => natOfDigits ds

/-- The double a literal stands for; none when it is out of range. -/
def Literal.double? (l : Literal) : Option Double :=
  let (whole, shifted) := gather 0 l.whole
  let digits := l.fraction.getD []
  let (significand, dropped) := gather whole digits
  let exponent := (shifted : Int) - ((digits.length - dropped : Nat) : Int) + l.exponentValue
  (Double.ofDecimal? significand exponent).map (Double.signed l.negative)

/-- The number a literal stands for; none when it is out of range. -/
def Literal.number? (l : Literal) : Option Number :=
  let n := natOfDigits l.whole
  if l.fraction.isSome ∨ l.exponent.isSome then l.double?.map .double
  else if l.negative then
    if n = 0 ∨ Nat.pow 2 63 < n then l.double?.map .double else some (.integer (-(n : Int)))
  else if Nat.pow 2 64 ≤ n then l.double?.map .double
  else some (.integer n)

end Number

end IControl
