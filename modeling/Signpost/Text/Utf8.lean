/-!
This module contains the reading of bytes as UTF-8, both exact and forgiving, and the writing of texts as
bytes.
-/

namespace Signpost

/-- A run of bytes: a body, a header value, the contents of a file. -/
abbrev Bytes := List UInt8

namespace Text

/-- The bytes of a text. -/
def utf8 (s : String) : Bytes :=
  s.toList.flatMap String.utf8EncodeChar

/-- How many bytes follow a leading byte, the bits it carries, and the bounds of the byte right after it. -/
structure Lead where
  more : Nat
  bits : Nat
  low : UInt8
  high : UInt8

/--
The leading bytes of characters beyond ASCII. The bounds of the second byte leave out overlong forms,
surrogates and numbers past the last character.
-/
def Lead.of (b : UInt8) : Option Lead :=
  if b < 0xC2 then none
  else if b < 0xE0 then some ⟨1, b.toNat - 0xC0, 0x80, 0xBF⟩
  else if b = 0xE0 then some ⟨2, 0, 0xA0, 0xBF⟩
  else if b = 0xED then some ⟨2, 0xD, 0x80, 0x9F⟩
  else if b < 0xF0 then some ⟨2, b.toNat - 0xE0, 0x80, 0xBF⟩
  else if b = 0xF0 then some ⟨3, 0, 0x90, 0xBF⟩
  else if b < 0xF4 then some ⟨3, b.toNat - 0xF0, 0x80, 0xBF⟩
  else if b = 0xF4 then some ⟨3, 4, 0x80, 0x8F⟩
  else none

/-- Whether a byte can stand after the second byte of a character. -/
def isTrail (b : UInt8) : Bool :=
  0x80 ≤ b && b ≤ 0xBF

/-- Append the six bits of a trailing byte. -/
def addTrail (bits : Nat) (b : UInt8) : Nat :=
  bits * 64 + (b.toNat - 0x80)

/--
Read bytes as characters. Every longest run of bytes that begins a character and does not finish it, or that
cannot begin one, is reported as `none`.
-/
def utf8Scan : Bytes → List (Option Char)
  | [] => []
  | b :: rest =>
    if b < 0x80 then
      some (Char.ofNat b.toNat) :: utf8Scan rest
    else
      match Lead.of b with
      | none => none :: utf8Scan rest
      | some lead =>
        match rest with
        | [] => [none]
        | c :: rest₁ =>
          if c < lead.low || lead.high < c then
            none :: utf8Scan (c :: rest₁)
          else if lead.more = 1 then
            some (Char.ofNat (addTrail lead.bits c)) :: utf8Scan rest₁
          else
            match rest₁ with
            | [] => [none]
            | d :: rest₂ =>
              if !isTrail d then
                none :: utf8Scan (d :: rest₂)
              else if lead.more = 2 then
                some (Char.ofNat (addTrail (addTrail lead.bits c) d)) :: utf8Scan rest₂
              else
                match rest₂ with
                | [] => [none]
                | e :: rest₃ =>
                  if !isTrail e then
                    none :: utf8Scan (e :: rest₃)
                  else
                    some (Char.ofNat (addTrail (addTrail (addTrail lead.bits c) d) e))
                      :: utf8Scan rest₃

/-- The text that the bytes hold, if they are well formed. -/
def ofUtf8? (bytes : Bytes) : Option String :=
  ((utf8Scan bytes).mapM id).map String.ofList

/-- How many bytes stand before the first ill-formed run. -/
def wellFormedSize (bytes : Bytes) : Nat :=
  (((utf8Scan bytes).takeWhile Option.isSome).filterMap id).foldl (fun n c => n + c.utf8Size) 0

/-- The text that the bytes hold, with a replacement character for every ill-formed run. -/
def ofUtf8Lossy (bytes : Bytes) : String :=
  String.ofList ((utf8Scan bytes).map fun c => c.getD '\uFFFD')

end Text

end Signpost
