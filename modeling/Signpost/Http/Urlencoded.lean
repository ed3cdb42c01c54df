import Signpost.Text.Pieces
import Signpost.Text.Utf8

/-!
This module contains the urlencoded form: names and values in a text, with an ampersand between the pairs
and bytes written by their numbers.
-/

namespace Signpost.Http.Urlencoded

def percent : UInt8 := 0x25
def plus : UInt8 := 0x2B
def ampersand : UInt8 := 0x26
def equals : UInt8 := 0x3D

def hexValue? (b : UInt8) : Option UInt8 :=
  if 0x30 ≤ b ∧ b ≤ 0x39 then some (b - 0x30)
  else if 0x41 ≤ b ∧ b ≤ 0x46 then some (b - 0x41 + 10)
  else if 0x61 ≤ b ∧ b ≤ 0x66 then some (b - 0x61 + 10)
  else none

/-- Replace every plus by a blank and every number after a percent sign by its byte. -/
def decodeBytes : Bytes → Bytes
  | [] => []
  | [b] => [if b = plus then 0x20 else b]
  | [b, c] => [if b = plus then 0x20 else b, if c = plus then 0x20 else c]
  | b :: c :: d :: rest =>
    if b = percent then
      match hexValue? c, hexValue? d with
      | some high, some low => (high * 16 + low) :: decodeBytes rest
      | _, _ => b :: decodeBytes (c :: d :: rest)
    else
      (if b = plus then 0x20 else b) :: decodeBytes (c :: d :: rest)

def decode (bytes : Bytes) : String :=
  Text.ofUtf8Lossy (decodeBytes bytes)

/-- The name and the value of a pair. A pair without an equals sign has an empty value. -/
def parsePair (piece : Bytes) : String × String :=
  match Text.cutAt [equals] piece with
  | some (name, value) => (decode name, decode value)
  | none => (decode piece, "")

/-- The pairs of a form. Empty pieces are no pairs. -/
def parse (form : String) : List (String × String) :=
  ((Text.pieces (· == ampersand) (Text.utf8 form)).filter (· ≠ [])).map parsePair

/-- The bytes that stand for themselves. -/
def isPlain (b : UInt8) : Bool :=
  (0x30 ≤ b && b ≤ 0x39) || (0x41 ≤ b && b ≤ 0x5A) || (0x61 ≤ b && b ≤ 0x7A)
    || b == 0x2A || b == 0x2D || b == 0x2E || b == 0x5F

def upperHexDigit (n : Nat) : Char :=
  Char.ofNat (if n < 10 then 0x30 + n else 0x41 + (n - 10))

def encodeByte (b : UInt8) : List Char :=
  if isPlain b then [Char.ofNat b.toNat]
  else if b = 0x20 then ['+']
  else ['%', upperHexDigit (b.toNat / 16), upperHexDigit (b.toNat % 16)]

def encode (s : String) : List Char :=
  (Text.utf8 s).flatMap encodeByte

/-- The form that carries these pairs. -/
def serialize (pairs : List (String × String)) : String :=
  "&".intercalate (pairs.map fun (name, value) => String.ofList (encode name ++ '=' :: encode value))

end Signpost.Http.Urlencoded
