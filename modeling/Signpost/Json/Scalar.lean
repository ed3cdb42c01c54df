import Signpost.Decimal.Binary
import Signpost.Json.Cursor
import Signpost.Json.Value

/-!
This module contains the reading of JSON strings and JSON numbers.
-/

namespace Signpost.Json.Read

def quoteByte : UInt8 := 0x22
def backslash : UInt8 := 0x5C

def isDigit (b : UInt8) : Bool :=
  0x30 ≤ b && b ≤ 0x39

def digit (b : UInt8) : Nat :=
  b.toNat - 0x30

def isExponentMark (b : UInt8) : Bool :=
  b == 0x65 || b == 0x45

def isPoint (b : UInt8) : Bool :=
  b == 0x2E

/-! ## Strings -/

def hexDigit? (b : UInt8) : Option Nat :=
  if isDigit b then some (digit b)
  else if 0x61 ≤ b ∧ b ≤ 0x66 then some (b.toNat - 0x61 + 10)
  else if 0x41 ≤ b ∧ b ≤ 0x46 then some (b.toNat - 0x41 + 10)
  else none

/-- The number written as four hexadecimal digits. -/
def hexEscape : Read Nat := do
  if (← left) < 4 then
    let _ ← skipWhile fun _ => true
    fail .unfinishedString
  else
    let a ← next
    let b ← next
    let c ← next
    let d ← next
    match a.bind hexDigit?, b.bind hexDigit?, c.bind hexDigit?, d.bind hexDigit? with
    | some a, some b, some c, some d => return ((a * 16 + b) * 16 + c) * 16 + d
    | _, _, _, _ => fail .invalidEscape

def expectInEscape (expected : UInt8) : Read Unit := do
  match ← peek with
  | none => fail .unfinishedString
  | some b =>
    eat
    if b ≠ expected then fail .unfinishedHexEscape

/-- The character of an escape that gives its number. A surrogate needs its other half. -/
def unicodeEscape : Read Char := do
  let n ← hexEscape
  if 0xDC00 ≤ n ∧ n ≤ 0xDFFF then
    fail .loneSurrogate
  else if n < 0xD800 ∨ 0xDBFF < n then
    return Char.ofNat n
  else
    expectInEscape backslash
    expectInEscape 0x75
    let m ← hexEscape
    if m < 0xDC00 ∨ 0xDFFF < m then
      fail .loneSurrogate
    else
      return Char.ofNat ((n - 0xD800) * 0x400 + (m - 0xDC00) + 0x10000)

/-- The character that a letter after a backslash stands for. -/
def shortEscape? (b : UInt8) : Option Char :=
  if b = quoteByte then some '"'
  else if b = backslash then some '\\'
  else if b = 0x2F then some '/'
  else if b = 0x62 then some '\x08'
  else if b = 0x66 then some '\x0c'
  else if b = 0x6E then some '\n'
  else if b = 0x72 then some '\r'
  else if b = 0x74 then some '\t'
  else none

/-- The character of an escape whose backslash has been taken. -/
def escape : Read Char := do
  match ← next with
  | none => fail .unfinishedString
  | some b =>
    if b = 0x75 then unicodeEscape
    else
      match shortEscape? b with
      | some c => return c
      | none => fail .invalidEscape

/-- The bytes of a string up to its closing quote, which is taken. -/
def stringBytes : Read Bytes := do
  go ((← left) + 1)
where
  go : Nat → Read Bytes
    | 0 => fail .unfinishedString
    | n + 1 => do
      match ← next with
      | none => fail .unfinishedString
      | some b =>
        if b = quoteByte then
          return []
        else if b = backslash then
          let c ← escape
          return String.utf8EncodeChar c ++ (← go n)
        else if b < 0x20 then
          fail .controlCharacter
        else
          return b :: (← go n)

/--
A string whose opening quote has been taken. Its bytes are looked at once it has ended; the first byte that is
no part of a character is reported where it stands.
-/
def string : Read String := do
  let start ← get
  match Text.ofUtf8? (← stringBytes) with
  | some s => return s
  | none => failAfter start (Text.wellFormedSize start.rest + 1) .invalidCodePoint

/-- Pass over a string whose opening quote has been taken. Escapes are not decoded. -/
def skipString : Read Unit := do
  go ((← left) + 1)
where
  go : Nat → Read Unit
    | 0 => fail .unfinishedString
    | n + 1 => do
      match ← peek with
      | none => fail .unfinishedString
      | some b =>
        if b = quoteByte then
          eat
        else if b = backslash then
          eat
          match ← next with
          | none => fail .unfinishedString
          | some e =>
            if e = 0x75 then
              let _ ← hexEscape
            else if (shortEscape? e).isNone then
              fail .invalidEscape
            go n
        else if b < 0x20 then
          fail .controlCharacter
        else
          eat
          go n

/-! ## Numbers -/

/-- Take digits into a number as long as it stays below `limit`, and count them. -/
def digitsBelow (limit : Nat) (n : Nat) : Read (Nat × Nat) := do
  go (← left) n
where
  go : Nat → Nat → Read (Nat × Nat)
    | 0, n => return (n, 0)
    | fuel + 1, n => do
      match ← peek with
      | none => return (n, 0)
      | some b =>
        if isDigit b ∧ n * 10 + digit b < limit then
          eat
          let (m, count) ← go fuel (n * 10 + digit b)
          return (m, count + 1)
        else
          return (n, 0)

/-- The double nearest to a power of ten. -/
def powerOfTen (k : Nat) : Decimal.Double :=
  .ofRatio false (Nat.pow 10 k) 1

/--
A double scaled by a power of ten, with one rounding after each step; `none` if that is out of range. A divisor
too large for a double is split.
-/
def scale? (x : Decimal.Double) (exponent : Int) : Option Decimal.Double :=
  if x.magnitude = 0 then some x
  else if 308 < exponent then none
  else if 0 ≤ exponent then
    let y := x.mul (powerOfTen exponent.toNat)
    if y.isFinite then some y else none
  else if -308 ≤ exponent then some (x.div (powerOfTen exponent.natAbs))
  else scale? (x.div (powerOfTen 308)) (exponent + 308)
termination_by exponent.natAbs
decreasing_by omega

/-- The float of a significand and an exponent of ten. -/
def floatOf (negative : Bool) (significand : Nat) (exponent : Int) : Read Number := do
  match scale? (.ofInt significand) exponent with
  | none => fail .numberOutOfRange
  | some x => return .float (if negative then x.neg else x)

/-- The largest exponent that is read in full. -/
def exponentLimit : Nat := Nat.pow 2 31

/-- The exponent of a number, at its mark. `start` is the exponent that the digits before it call for. -/
def exponentPart (negative : Bool) (significand : Nat) (start : Int) : Read Number := do
  eat
  let sign ← peek
  let below := sign == some 0x2D
  if below || sign == some 0x2B then eat
  match ← next with
  | none => fail .unfinishedValue
  | some b =>
    if !isDigit b then
      fail .invalidNumber
    else
      let (exponent, _) ← digitsBelow exponentLimit (digit b)
      if ← nextIs isDigit then
        -- the exponent is too large to be read in full
        eat
        if significand ≠ 0 ∧ !below then
          fail .numberOutOfRange
        else
          let _ ← skipWhile isDigit
          floatOf negative 0 0
      else
        floatOf negative significand (start + if below then -(exponent : Int) else exponent)

/-- What follows the digits of a number that is not an integer. -/
def afterDigits (negative : Bool) (significand : Nat) (exponent : Int) : Read Number := do
  if ← nextIs isExponentMark then exponentPart negative significand exponent
  else floatOf negative significand exponent

/--
The digits after the point of a number, at the point. They extend the significand as long as it fits into 64
bits; digits beyond are dropped.
-/
def fractionPart (negative : Bool) (significand : Nat) (start : Int) : Read Number := do
  eat
  let (significand, count) ← digitsBelow (Nat.pow 2 64) significand
  if ← nextIs isDigit then
    let _ ← skipWhile isDigit
  else if count = 0 then
    if (← peek).isNone then fail .unfinishedValue
    failNext .invalidNumber
  afterDigits negative significand (start - count)

/-- A number whose digits before the point have been taken, without a fraction an integer. -/
def integerOr (negative : Bool) (significand : Nat) : Read Number := do
  if ← nextIs isPoint then
    fractionPart negative significand 0
  else if ← nextIs isExponentMark then
    exponentPart negative significand 0
  else if !negative then
    return .int significand
  else if significand = 0 ∨ Nat.pow 2 63 < significand then
    return .float (Decimal.Double.ofInt significand).neg
  else
    return .int (-significand)

/--
A number after its sign. An integer that does not fit into 64 bits is read as a float, from the digits that do
fit.
-/
def number (negative : Bool) : Read Number := do
  match ← next with
  | none => fail .unfinishedValue
  | some b =>
    if b = 0x30 then
      if ← nextIs isDigit then failNext .invalidNumber
      integerOr negative 0
    else if !isDigit b then
      fail .invalidNumber
    else
      let (significand, _) ← digitsBelow (Nat.pow 2 64) (digit b)
      if ← nextIs isDigit then
        let dropped ← skipWhile isDigit
        if ← nextIs isPoint then fractionPart negative significand dropped
        else afterDigits negative significand dropped
      else
        integerOr negative significand

end Signpost.Json.Read
