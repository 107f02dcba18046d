import IControl.Number.Double
import IControl.Text.Trim

/-!
# The fewest digits of a double

A double stands for all reals that round to it: the interval between the
midpoints to its neighbours, with the ends when its significand is even. For one
digit, two digits and so on, the two points of that decimal grid around the
double are tested against the interval. The first grid with a point inside gives
the digits; of two such points the nearer one is taken, and in a tie the even
one. Seventeen digits always suffice.
-/

namespace IControl.Double

/-- Decimal digits after a point at the front, times ten to the power `point`. -/
structure Digits where
  digits : List Char
  point : Int
  deriving DecidableEq, Repr

/-- The number of digits before the decimal point; negative by the zeros after it. -/
def leadingPlace (d : Double) : Int :=
  (Nat.toDigits 10 (d.units * Nat.pow 10 400 / Nat.pow 2 1074)).length - (400 : Int)

/-- Four times the ends of the interval of reals that round to `d`, in units. -/
def interval (d : Double) : Nat × Nat :=
  let gap := Nat.pow 2 d.scale
  let below := if d.significand = Nat.pow 2 52 ∧ 0 < d.scale then Nat.pow 2 (d.scale - 1) else gap
  (4 * d.units - 2 * below, 4 * d.units + 2 * gap)

/-- The best point of the grid with `count` digits, if one lies in the interval. -/
def gridPoint? (d : Double) (count : Nat) : Option (Nat × Int) :=
  let place := d.leadingPlace - count
  let up := Nat.pow 10 place.toNat
  let down := Nat.pow 10 (-place).toNat
  let value := d.units * down
  let cell := Nat.pow 2 1074 * up
  let low := d.interval.1 * down
  let high := d.interval.2 * down
  let inside (c : Nat) : Bool :=
    let x := 4 * c * cell
    if d.significand % 2 = 0 then low ≤ x && x ≤ high else low < x && x < high
  let c := value / cell
  let twice := (2 * c + 1) * cell
  let upper := twice < 2 * value || (2 * value == twice && c % 2 == 1)
  match inside c, inside (c + 1) with
  | true, true => some (if upper then c + 1 else c, place)
  | true, false => some (c, place)
  | false, true => some (c + 1, place)
  | false, false => none

/-- The shortest digits that are read back as `d`, without zeros at the end. -/
def shortest (d : Double) : Digits :=
  match ((List.range 17).map (· + 1)).findSome? d.gridPoint? with
  | none => ⟨['0'], 1⟩
  | some (c, place) =>
    let cs := Nat.toDigits 10 c
    ⟨Text.trimEnd (· == '0') cs, cs.length + place⟩

end IControl.Double
