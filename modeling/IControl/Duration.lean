import IControl.Text.Trim

/-!
# Durations

A span of time in whole nanoseconds. It is shown in the largest of the units
second, millisecond, microsecond and nanosecond that fits into it, with the exact
fraction of that unit and no zeros behind its last digit. Waiting happens in
whole milliseconds, so a limit that is no whole number of them is rounded up.
-/

namespace IControl

structure Duration where
  nanoseconds : Nat
  deriving DecidableEq, Repr

namespace Duration

def ofSeconds (n : Nat) : Duration := ⟨n * 1000000000⟩

def ofMilliseconds (n : Nat) : Duration := ⟨n * 1000000⟩

/-- The whole seconds of a duration. -/
def seconds (d : Duration) : Nat := d.nanoseconds / 1000000000

/-- The nanoseconds beyond the whole seconds. -/
def subsecond (d : Duration) : Nat := d.nanoseconds % 1000000000

/-- The least number of milliseconds that covers the duration. -/
def milliseconds (d : Duration) : Nat := (d.nanoseconds + 999999) / 1000000

/-- Exactly `count` digits of a number, with zeros in front. -/
def paddedDigits (count n : Nat) : List Char :=
  let digits := Nat.toDigits 10 n
  List.replicate (count - digits.length) '0' ++ digits

/-- A number of units of `10 ^ places` parts each, as a decimal without needless zeros. -/
def decimal (places parts : Nat) : List Char :=
  let whole := Nat.toDigits 10 (parts / Nat.pow 10 places)
  match Text.trimEnd (· == '0') (paddedDigits places (parts % Nat.pow 10 places)) with
  | [] => whole
  | fraction => whole ++ '.' :: fraction

def shown (d : Duration) : String :=
  let n := d.nanoseconds
  if 1000000000 ≤ n then String.ofList (decimal 9 n) ++ "s"
  else if 1000000 ≤ n then String.ofList (decimal 6 n) ++ "ms"
  else if 1000 ≤ n then String.ofList (decimal 3 n) ++ "µs"
  else String.ofList (decimal 0 n) ++ "ns"

end Duration

end IControl
