/-!
This module contains binary floating-point numbers as bit patterns: which ratio of integers a pattern stands
for, and the pattern nearest to a ratio.
-/

namespace Signpost.Decimal

/-- The widths of the two fields of a binary floating-point format. -/
structure Layout where
  fraction : Nat
  exponent : Nat
  deriving DecidableEq

namespace Layout

/-- Numbers of 64 bits. -/
def double : Layout := ⟨52, 11⟩

/-- Numbers of 32 bits. -/
def single : Layout := ⟨23, 8⟩

/-- The exponent of the spacing between the smallest numbers. -/
def least (l : Layout) : Int :=
  2 - Int.pow 2 (l.exponent - 1) - l.fraction

/-- The pattern of the infinite number. -/
def infinity (l : Layout) : Nat :=
  (Nat.pow 2 l.exponent - 1) * Nat.pow 2 l.fraction

/-- The pattern of a value that is not a number. -/
def notANumber (l : Layout) : Nat :=
  l.infinity + Nat.pow 2 (l.fraction - 1)

/-- The bit that marks negative numbers. -/
def signBit (l : Layout) : Nat :=
  Nat.pow 2 (l.fraction + l.exponent)

end Layout

/-- The quotient rounded to the nearest integer. A half goes to the even neighbour. -/
def roundHalfEven (num den : Nat) : Nat :=
  let floor := num / den
  let twice := 2 * (num % den)
  if twice < den then floor
  else if den < twice then floor + 1
  else floor + floor % 2

/-- The ratio `num / den` times a power of two, as a ratio. -/
def scaleRatio (num den : Nat) (power : Int) : Nat × Nat :=
  match power with
  | .ofNat k => (num * Nat.pow 2 k, den)
  | .negSucc k => (num, den * Nat.pow 2 (k + 1))

/-- The largest `k` for which two to the power `k` is at most `num / den`, for positive integers. -/
def floorLog2 (num den : Nat) : Int :=
  let guess : Int := (num.log2 : Int) - den.log2
  let (n, d) := scaleRatio num den (-guess)
  if d ≤ n then guess else guess - 1

/-- The pattern of the number nearest to `num / den`, of two the one that is even. -/
def Layout.nearest (l : Layout) (num den : Nat) : Nat :=
  if num = 0 then 0
  else
    let spacing := max (floorLog2 num den - l.fraction) l.least
    let (n, d) := scaleRatio num den (-spacing)
    min ((spacing - l.least).toNat * Nat.pow 2 l.fraction + roundHalfEven n d) l.infinity

/-- The integer and the exponent of two whose product is the finite number of a pattern, sign apart. -/
def Layout.decode (l : Layout) (pattern : Nat) : Nat × Int :=
  let magnitude := pattern % l.signBit
  let biased := magnitude / Nat.pow 2 l.fraction
  let fraction := magnitude % Nat.pow 2 l.fraction
  if biased = 0 then (fraction, l.least)
  else (fraction + Nat.pow 2 l.fraction, l.least + (biased - 1 : Nat))

/-- The pattern nearest to `num / den`, with a sign. -/
def Layout.ofRatio (l : Layout) (negative : Bool) (num den : Nat) : Nat :=
  l.nearest num den + if negative then l.signBit else 0

/-- The pattern nearest to `digits` times ten to the power `exponent`, with a sign. -/
def Layout.ofDecimal (l : Layout) (negative : Bool) (digits : Nat) (exponent : Int) : Nat :=
  let places : Int := (Nat.toDigits 10 digits).length
  if digits = 0 then l.ofRatio negative 0 1
  else if exponent + places > 400 then l.infinity + if negative then l.signBit else 0
  else if exponent + places < -400 then l.ofRatio negative 0 1
  else
    match exponent with
    | .ofNat k => l.ofRatio negative (digits * Nat.pow 10 k) 1
    | .negSucc k => l.ofRatio negative digits (Nat.pow 10 (k + 1))

/-- A number of 64 bits, given by its pattern. -/
structure Double where
  bits : UInt64
  deriving DecidableEq, Inhabited

/-- A number of 32 bits, given by its pattern. -/
structure Single where
  bits : UInt32
  deriving DecidableEq, Inhabited

namespace Double

def isNegative (x : Double) : Bool :=
  Layout.double.signBit ≤ x.bits.toNat

/-- The pattern without its sign. -/
def magnitude (x : Double) : Nat :=
  x.bits.toNat % Layout.double.signBit

def isFinite (x : Double) : Bool :=
  x.magnitude < Layout.double.infinity

def isNaN (x : Double) : Bool :=
  Layout.double.infinity < x.magnitude

def neg (x : Double) : Double :=
  ⟨x.bits ^^^ 0x8000000000000000⟩

def ofRatio (negative : Bool) (num den : Nat) : Double :=
  ⟨.ofNat (Layout.double.ofRatio negative num den)⟩

/-- The double nearest to an integer. -/
def ofInt (i : Int) : Double :=
  ofRatio (i < 0) i.natAbs 1

/-- The ratio that a finite double stands for, sign apart. -/
def toRatio (x : Double) : Nat × Nat :=
  let (m, q) := Layout.double.decode x.bits.toNat
  scaleRatio m 1 q

/-- The product of two finite doubles, rounded to the nearest. -/
def mul (x y : Double) : Double :=
  let (a, b) := x.toRatio
  let (c, d) := y.toRatio
  ofRatio (x.isNegative != y.isNegative) (a * c) (b * d)

/-- The quotient of two finite doubles, the second not zero, rounded to the nearest. -/
def div (x y : Double) : Double :=
  let (a, b) := x.toRatio
  let (c, d) := y.toRatio
  ofRatio (x.isNegative != y.isNegative) (a * d) (b * c)

/-- The single nearest to a finite double. -/
def toSingle (x : Double) : Single :=
  let (a, b) := x.toRatio
  ⟨.ofNat (Layout.single.ofRatio x.isNegative a b)⟩

end Double

namespace Single

def isNaN (x : Single) : Bool :=
  Layout.single.infinity < x.bits.toNat % Layout.single.signBit

/-- The single nearest to an integer. -/
def ofInt (i : Int) : Single :=
  ⟨.ofNat (Layout.single.ofRatio (i < 0) i.natAbs 1)⟩

/-- The double that stands for the same number as a finite single. -/
def toDouble (x : Single) : Double :=
  let (m, q) := Layout.single.decode x.bits.toNat
  let (num, den) := scaleRatio m 1 q
  Double.ofRatio (Layout.single.signBit ≤ x.bits.toNat) num den

end Single

end Signpost.Decimal
