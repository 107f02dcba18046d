/-!
# Doubles

Finite numbers of the binary interchange format with 64 bits. Every one of them
is a natural multiple of `2^-1074` with a sign, so its magnitude is kept as a
significand below `2^53` and a scale: the multiple is the significand times two
to the scale. Arithmetic is exact arithmetic on these multiples followed by one
rounding to the nearest double, where a tie goes to the even significand.
-/

namespace IControl

structure Double where
  negative : Bool
  significand : Nat
  scale : Nat
  deriving DecidableEq, Repr, Inhabited

namespace Double

/-- The magnitude as a multiple of `2^-1074`. -/
def units (d : Double) : Nat := d.significand * Nat.pow 2 d.scale

def zero : Double := ⟨false, 0, 0⟩

def isZero (d : Double) : Bool := d.significand == 0

def signed (negative : Bool) (d : Double) : Double := { d with negative }

/-- The double nearest to `num / den`, unless that lies beyond the largest one. -/
def nearest? (num den : Nat) : Option Double :=
  let n := num * Nat.pow 2 1074
  let scale := (n / den).log2 - 52
  let step := den * Nat.pow 2 scale
  let low := n / step
  let rest := n % step
  let rounded := if step < 2 * rest ∨ (2 * rest = step ∧ low % 2 = 1) then low + 1 else low
  let (significand, scale) :=
    if rounded = Nat.pow 2 53 then (Nat.pow 2 52, scale + 1) else (rounded, scale)
  if 2045 < scale then none else some ⟨false, significand, scale⟩

def times? (a b : Double) : Option Double := nearest? (a.units * b.units) (Nat.pow 2 2148)

def over? (a b : Double) : Option Double := nearest? a.units b.units

/-- The double nearest to a power of ten, for exponents up to 308. -/
def powerOfTen (exponent : Nat) : Double := (nearest? (Nat.pow 10 exponent) 1).getD zero

/-- The magnitude that a decimal significand and exponent are read as. The
significand is rounded first and then multiplied or divided once by a rounded
power of ten; below `10^-308` the division is done in two steps, and what is
left after them is zero. Beyond the largest double there is no answer. -/
def ofDecimal? (significand : Nat) (exponent : Int) : Option Double := do
  let start ← nearest? significand 1
  match exponent with
  | .ofNat e =>
    if e ≤ 308 then start.times? (powerOfTen e)
    else if start.isZero then some zero
    else none
  | .negSucc e =>
    let e := e + 1
    if e ≤ 308 then start.over? (powerOfTen e)
    else if e ≤ 616 then do
      let first ← start.over? (powerOfTen 308)
      first.over? (powerOfTen (e - 308))
    else some zero

end Double

end IControl
