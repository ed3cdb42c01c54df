import Signpost.Decimal.Reading
import Signpost.Text.Blank

/-!
This module contains the modes in which a pattern is read, and the smallest parts of a pattern: characters,
kinds of characters and places in the text.
-/

namespace Signpost.Pattern

/-- How the text of a pattern is read. -/
structure Modes where
  /-- Whether a letter stands for both of its cases. -/
  ignoreCase : Bool
  /-- Whether the pattern is about characters, not about bytes. -/
  unicode : Bool
  /-- Whether blanks and comments between the parts are passed over. -/
  verbose : Bool
  deriving DecidableEq

def Modes.standard : Modes := ⟨false, true, false⟩

/-- The rest after blanks and comments. A comment goes from `#` to the end of its line. -/
def afterBlanks (inComment : Bool) : List Char → List Char
  | [] => []
  | c :: cs =>
    if inComment then afterBlanks (c ≠ '\n') cs
    else if c = '#' then afterBlanks true cs
    else if Text.isBlank c then afterBlanks false cs
    else c :: cs

namespace Modes

def skip (m : Modes) (cs : List Char) : List Char :=
  if m.verbose then afterBlanks false cs else cs

/-- The character that comes next after blanks. Only the mark of a comment is passed over, not its text. -/
def look (m : Modes) (cs : List Char) : Option Char :=
  if m.verbose then
    match cs.dropWhile Text.isBlank with
    | '#' :: rest => (rest.dropWhile Text.isBlank).head?
    | rest => rest.head?
  else
    cs.head?

/-- Whether characters can stand for themselves. Nothing tells the two cases of a letter apart. -/
def allowsChars (m : Modes) : Bool :=
  !(m.unicode && m.ignoreCase)

/-- Whether kinds of characters have a meaning. They are known for ASCII alone, and what is left out is not. -/
def allowsKind (m : Modes) (negated : Bool) : Bool :=
  !m.unicode && !negated

end Modes

/-- A smallest part of a pattern. -/
inductive Atom where
  | char (c : Char)
  /-- A character that is given by two hexadecimal digits, as a byte can be. -/
  | byte (c : Char)
  /-- The digits, the blanks or the letters of words, or all other characters. -/
  | kind (negated : Bool)
  /-- An edge of a word, or a place without one. -/
  | wordEdge
  /-- An end of the text or of a line. -/
  | textEdge
  /-- Any character within a line. -/
  | any
  deriving DecidableEq

namespace Atom

/-- Whether a part has a meaning outside of brackets. A pattern only matches whole characters. -/
def isAllowed (m : Modes) : Atom → Bool
  | .char _ => m.allowsChars
  | .byte c => m.allowsChars && (m.unicode || c.toNat < 0x80)
  | .kind negated => m.allowsKind negated
  | .wordEdge => !m.unicode
  | .textEdge => true
  | .any => m.unicode

/-- Whether a part has a meaning in brackets. -/
def isMember (m : Modes) : Atom → Bool
  | .char c | .byte c => m.allowsChars && (m.unicode || c.toNat < 0x80)
  | .kind negated => m.allowsKind negated
  | _ => false

/-- The character of a part that is one. -/
def char? : Atom → Option Char
  | .char c | .byte c => some c
  | _ => none

end Atom

/-! ## Escapes -/

/-- Take `n` hexadecimal digits. -/
def hexDigits? (m : Modes) : (n value : Nat) → List Char → Option (Nat × List Char)
  | 0, value, cs => some (value, cs)
  | n + 1, value, cs =>
    match m.skip cs with
    | [] => none
    | c :: rest => (Decimal.hexValue? c).bind fun digit => hexDigits? m n (value * 16 + digit) rest

/-- The character that `n` hexadecimal digits stand for. -/
def hexChar? (m : Modes) (n : Nat) (cs : List Char) : Option (Char × List Char) :=
  (hexDigits? m n 0 cs).bind fun (value, rest) =>
    if value.isValidChar then some (Char.ofNat value, rest) else none

/-- The control character that a letter after a backslash stands for. -/
def control? (c : Char) : Option Char :=
  if c = 'a' then some '\x07'
  else if c = 'f' then some '\x0c'
  else if c = 't' then some '\t'
  else if c = 'n' then some '\n'
  else if c = 'r' then some '\r'
  else if c = 'v' then some '\x0b'
  else none

/-- What a single character after a backslash stands for. Marks of ASCII stand for themselves. -/
def shortEscape? (c : Char) : Option Atom :=
  if c = 'd' ∨ c = 's' ∨ c = 'w' then some (.kind false)
  else if c = 'D' ∨ c = 'S' ∨ c = 'W' then some (.kind true)
  else if c = 'b' ∨ c = 'B' ∨ c = '<' ∨ c = '>' then some .wordEdge
  else if c = 'A' ∨ c = 'z' then some .textEdge
  else if c.toNat < 0x80 ∧ !c.isAlphanum then some (.char c)
  else (control? c).map .char

/-- An escape whose backslash has been taken. There are no tables for the properties of characters. -/
def escape? (m : Modes) : List Char → Option (Atom × List Char)
  | [] => none
  | c :: cs =>
    if c = 'x' then (hexChar? m 2 cs).map fun (d, rest) => (.byte d, rest)
    else if c = 'u' then (hexChar? m 4 cs).map fun (d, rest) => (.char d, rest)
    else if c = 'U' then (hexChar? m 8 cs).map fun (d, rest) => (.char d, rest)
    else (shortEscape? c).map fun atom => (atom, cs)

end Signpost.Pattern
