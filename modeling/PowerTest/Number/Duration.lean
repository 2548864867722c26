import PowerTest.Text.Digits

/-!
# Durations

A duration is a number of nanoseconds. It is written in the largest of the units second,
millisecond, microsecond and nanosecond that it reaches, with as many places as it needs.
-/

namespace PowerTest.Number

/-- The places after the point of `part / 10 ^ width`, without zeros at the end. -/
def places (width part : Nat) : List Char :=
  let digits := Nat.toDigits 10 part
  let padded := List.replicate (width - digits.length) '0' ++ digits
  (padded.reverse.dropWhile (· == '0')).reverse

/-- A count of a unit that is `10 ^ width` nanoseconds long. -/
def inUnit (width : Nat) (unit : String) (nanoseconds : Nat) : String :=
  let fraction := places width (nanoseconds % 10 ^ width)
  let point := if fraction.isEmpty then "" else "."
  Text.decimal (nanoseconds / 10 ^ width) ++ point ++ String.ofList fraction ++ unit

/-- The text of a duration. -/
def durationText (nanoseconds : Nat) : String :=
  if 10 ^ 9 ≤ nanoseconds then inUnit 9 "s" nanoseconds
  else if 10 ^ 6 ≤ nanoseconds then inUnit 6 "ms" nanoseconds
  else if 10 ^ 3 ≤ nanoseconds then inUnit 3 "µs" nanoseconds
  else inUnit 0 "ns" nanoseconds

example : durationText 1500 = "1.5µs" := by decide +kernel
example : durationText 59090000000 = "59.09s" := by decide +kernel
example : durationText 0 = "0ns" := by decide +kernel

end PowerTest.Number
