/-!
This module contains lengths of time and how they are shown.
-/

namespace Signpost.Pipeline

/-- A length of time in nanoseconds. -/
structure Duration where
  nanos : Nat
  deriving DecidableEq, Inhabited

namespace Duration

def ofMillis (n : Nat) : Duration := ⟨n * 1000000⟩

/-- Whole seconds and nanoseconds, of which there can be more than fit into a second. -/
def ofSeconds (seconds nanos : Nat) : Duration := ⟨seconds * 1000000000 + nanos⟩

def millis (d : Duration) : Nat := d.nanos / 1000000

/-- The number of units of a length, with as many decimals as it takes. -/
def inUnits (n unit : Nat) : String :=
  let whole := toString (n / unit)
  if n % unit = 0 then whole
  else
    let digits := (Nat.toDigits 10 (n % unit + unit)).drop 1
    whole ++ "." ++ String.ofList (digits.reverse.dropWhile (· == '0')).reverse

/-- The length in the largest unit of which it holds one. -/
def describe (d : Duration) : String :=
  if 1000000000 ≤ d.nanos then inUnits d.nanos 1000000000 ++ "s"
  else if 1000000 ≤ d.nanos then inUnits d.nanos 1000000 ++ "ms"
  else if 1000 ≤ d.nanos then inUnits d.nanos 1000 ++ "µs"
  else inUnits d.nanos 1 ++ "ns"

end Duration

end Signpost.Pipeline
