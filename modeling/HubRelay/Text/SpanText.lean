import HubRelay.Time

/-!
A span in the largest unit it fills, with the fraction trimmed of trailing zeros.
-/

namespace HubRelay.Text

/-- The `width` decimal digits of `n` without the zeros they end in. -/
def trimmedFraction (width n : Nat) : List Char :=
  let digits := Nat.toDigits 10 n
  let padded := List.replicate (width - digits.length) '0' ++ digits
  (padded.reverse.dropWhile (· == '0')).reverse

/-- `whole` and the fraction `part / 10 ^ width`, followed by the unit. -/
def decimal (whole width part : Nat) (unit : String) : String :=
  match trimmedFraction width part with
  | [] => toString whole ++ unit
  | digits => toString whole ++ "." ++ String.ofList digits ++ unit

/-- A span in seconds, milliseconds, microseconds or nanoseconds, the first of these that it
reaches. -/
def ofSpan (span : Span) : String :=
  if 1000000000 ≤ span then decimal (span / 1000000000) 9 (span % 1000000000) "s"
  else if 1000000 ≤ span then decimal (span / 1000000) 6 (span % 1000000) "ms"
  else if 1000 ≤ span then decimal (span / 1000) 3 (span % 1000) "µs"
  else toString span ++ "ns"

/-- Zeros at the end of the fraction are not shown. -/
example : ofSpan 1500000000 = "1.5s" := by decide +kernel

/-- Zeros at the start of the fraction are. -/
example : ofSpan 8001000 = "8.001ms" := by decide +kernel

end HubRelay.Text
