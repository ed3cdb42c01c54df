import Signpost.Decimal.Binary

/-!
This module contains the shortest decimals that read back as a given double. The search runs over the
numbers of digits and looks at the two neighbours of the double on each decimal grid.
-/

namespace Signpost.Decimal

/-- A positive ratio of integers. -/
structure Ratio where
  num : Nat
  den : Nat

namespace Ratio

def lt (a b : Ratio) : Bool :=
  a.num * b.den < b.num * a.den

/-- `n` times two to the power `q`. -/
def dyadic (n : Nat) (q : Int) : Ratio :=
  let (num, den) := scaleRatio n 1 q
  ⟨num, den⟩

/-- `n` times ten to the power `p`. -/
def decimal (n : Nat) : (p : Int) → Ratio
  | .ofNat k => ⟨n * Nat.pow 10 k, 1⟩
  | .negSucc k => ⟨n, Nat.pow 10 (k + 1)⟩

/-- The largest `e` for which ten to the power `e` is at most the ratio. -/
def floorLog10 (r : Ratio) : Int :=
  let guess := floorLog2 r.num r.den * 30103 / 100000
  if !r.lt (decimal 1 (guess + 1)) then guess + 1
  else if !r.lt (decimal 1 guess) then guess
  else guess - 1

end Ratio

/-- A positive number and the bounds between which a decimal reads back as that number. -/
structure Reach where
  value : Ratio
  low : Ratio
  high : Ratio
  /-- Whether the bounds themselves read back. -/
  closed : Bool

namespace Reach

/--
The reach of `m` times two to the power `q`. Below the least number of a power of two the numbers lie twice as
close.
-/
def ofDyadic (m : Nat) (q : Int) (leastOfPower : Bool) : Reach where
  value := .dyadic m q
  low := if leastOfPower then .dyadic (4 * m - 1) (q - 2) else .dyadic (2 * m - 1) (q - 1)
  high := .dyadic (2 * m + 1) (q - 1)
  closed := m % 2 == 0

def contains (r : Reach) (x : Ratio) : Bool :=
  if r.closed then !x.lt r.low && !r.high.lt x
  else r.low.lt x && x.lt r.high

/-- The multiple of ten to the power `step` that lies in the reach, of two the nearer to the number. -/
def onGrid? (r : Reach) (step : Int) : Option Nat :=
  let unit := Ratio.decimal 1 step
  let num := r.value.num * unit.den
  let den := r.value.den * unit.num
  let near := roundHalfEven num den
  let other := if near = num / den then near + 1 else num / den
  if r.contains (.decimal near step) then some near
  else if r.contains (.decimal other step) then some other
  else none

/-- The first grid from `step` downwards, of `count` many, with a multiple in the reach. -/
def coarsest (r : Reach) (step : Int) : (count : Nat) → Nat × Int
  | 0 => (0, step)
  | count + 1 =>
    match r.onGrid? step with
    | some digits => (digits, step)
    | none => r.coarsest (step - 1) count

end Reach

/--
The shortest digits that read back as a finite positive double, and the power of ten of the first digit.
Seventeen digits always suffice.
-/
def Double.shortest (x : Double) : List Char × Int :=
  let (m, q) := Layout.double.decode x.bits.toNat
  let leastOfPower := m == Nat.pow 2 Layout.double.fraction && Layout.double.least < q
  let reach := Reach.ofDyadic m q leastOfPower
  let (digits, step) := reach.coarsest reach.value.floorLog10 17
  let text := Nat.toDigits 10 digits
  ((text.reverse.dropWhile (· == '0')).reverse, step + (text.length - 1 : Nat))

end Signpost.Decimal
