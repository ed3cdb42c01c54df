import Signpost.Decimal.Binary

/-!
This module contains the reading of numbers from texts: integers of a given range and floating-point
numbers.
-/

namespace Signpost.Decimal

def digitValue (c : Char) : Nat :=
  c.toNat - '0'.toNat

/-- The number that decimal digits stand for. -/
def digitsValue (cs : List Char) : Nat :=
  cs.foldl (fun n c => n * 10 + digitValue c) 0

/-- The number that a list of decimal digits stands for, at least one digit and nothing else. -/
def natOfDigits? (cs : List Char) : Option Nat :=
  if cs ≠ [] ∧ cs.all Char.isDigit then some (digitsValue cs) else none

/-- A number from its decimal digits, with an optional sign of plus. -/
def readNat? : List Char → Option Nat
  | '+' :: cs => natOfDigits? cs
  | cs => natOfDigits? cs

/-- An integer from its decimal digits, with an optional sign. -/
def readInt? : List Char → Option Int
  | '-' :: cs => (natOfDigits? cs).map fun n => -(n : Int)
  | cs => (readNat? cs).map Int.ofNat

/-- The value of a hexadecimal digit, in either case. -/
def hexValue? (c : Char) : Option Nat :=
  if c.isDigit then some (digitValue c)
  else if 'a' ≤ c ∧ c ≤ 'f' then some (c.toNat - 'a'.toNat + 10)
  else if 'A' ≤ c ∧ c ≤ 'F' then some (c.toNat - 'A'.toNat + 10)
  else none

/-- A number from its hexadecimal digits, at least one. -/
def readHex? (cs : List Char) : Option Nat :=
  if cs = [] then none
  else cs.foldlM (fun n c => (hexValue? c).map (n * 16 + ·)) 0

/-- The exponent after the digits of a number: nothing, or a letter, an optional sign and digits. -/
def readExponent? : List Char → Option Int
  | [] => some 0
  | c :: cs => if c = 'e' ∨ c = 'E' then readInt? cs else none

/-- The magnitude of a floating-point number that is not one of the special words. -/
def readMagnitude? (l : Layout) (negative : Bool) (cs : List Char) : Option Nat :=
  let whole := cs.takeWhile Char.isDigit
  let rest := cs.dropWhile Char.isDigit
  let (fraction, tail) :=
    match rest with
    | '.' :: after => (after.takeWhile Char.isDigit, after.dropWhile Char.isDigit)
    | _ => ([], rest)
  if whole ++ fraction = [] then none
  else
    (readExponent? tail).map fun exponent =>
      l.ofDecimal negative (digitsValue (whole ++ fraction)) (exponent - fraction.length)

/--
The pattern of a floating-point number: digits with at most one point among or around them and an optional
exponent, or one of the words for the infinite number and for what is no number, in any case.
-/
def readFloat? (l : Layout) (cs : List Char) : Option Nat :=
  let (negative, rest) : Bool × List Char :=
    match cs with
    | '-' :: rest => (true, rest)
    | '+' :: rest => (false, rest)
    | _ => (false, cs)
  let sign := if negative then l.signBit else 0
  let word := String.ofList (rest.map Char.toLower)
  if word = "inf" ∨ word = "infinity" then some (l.infinity + sign)
  else if word = "nan" then some (l.notANumber + sign)
  else readMagnitude? l negative rest

end Signpost.Decimal
