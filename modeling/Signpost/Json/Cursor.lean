import Signpost.Text.Utf8

/-!
This module contains the position of a reader in the bytes of a JSON document, the ways in which reading
goes wrong, and the small steps of a reader.
-/

namespace Signpost.Json

/-- What is left of a document, and how far the reader has come: the line, and the bytes read of it. -/
structure Cursor where
  line : Nat
  column : Nat
  rest : Bytes

/-- The start of a document. -/
def Cursor.start (bytes : Bytes) : Cursor :=
  ⟨1, 0, bytes⟩

/-- One byte further. -/
def Cursor.next (c : Cursor) : Cursor :=
  match c.rest with
  | [] => c
  | b :: rest => if b = 0x0A then ⟨c.line + 1, 0, rest⟩ else ⟨c.line, c.column + 1, rest⟩

/-- What is wrong with a document. -/
inductive Issue where
  | unfinishedValue
  | unfinishedList
  | unfinishedObject
  | unfinishedString
  | expectedColon
  | expectedCommaOrBracket
  | expectedCommaOrBrace
  | expectedValue
  | expectedIdent
  | trailingComma
  | trailingCharacters
  | keyNotText
  | invalidNumber
  | numberOutOfRange
  | invalidEscape
  | unfinishedHexEscape
  | loneSurrogate
  | invalidCodePoint
  | controlCharacter
  | tooDeep
  /-- A value of the wrong sort. -/
  | invalidType (found wanted : String)
  /-- A value of the right sort that is not admitted. -/
  | invalidValue (found wanted : String)
  | missingField (name : String)
  | duplicateField (name : String)
  | invalidLength (length : Nat) (wanted : String)
  deriving DecidableEq

def Issue.message : Issue → String
  | .unfinishedValue => "EOF while parsing a value"
  | .unfinishedList => "EOF while parsing a list"
  | .unfinishedObject => "EOF while parsing an object"
  | .unfinishedString => "EOF while parsing a string"
  | .expectedColon => "expected `:`"
  | .expectedCommaOrBracket => "expected `,` or `]`"
  | .expectedCommaOrBrace => "expected `,` or `\x7d`"
  | .expectedValue => "expected value"
  | .expectedIdent => "expected ident"
  | .trailingComma => "trailing comma"
  | .trailingCharacters => "trailing characters"
  | .keyNotText => "key must be a string"
  | .invalidNumber => "invalid number"
  | .numberOutOfRange => "number out of range"
  | .invalidEscape => "invalid escape"
  | .unfinishedHexEscape => "unexpected end of hex escape"
  | .loneSurrogate => "lone leading surrogate in hex escape"
  | .invalidCodePoint => "invalid unicode code point"
  | .controlCharacter => "control character (\\u0000-\\u001F) found while parsing a string"
  | .tooDeep => "recursion limit exceeded"
  | .invalidType found wanted => "invalid type: " ++ found ++ ", expected " ++ wanted
  | .invalidValue found wanted => "invalid value: " ++ found ++ ", expected " ++ wanted
  | .missingField name => "missing field `" ++ name ++ "`"
  | .duplicateField name => "duplicate field `" ++ name ++ "`"
  | .invalidLength length wanted => "invalid length " ++ toString length ++ ", expected " ++ wanted

/-- An issue and where it was met. -/
structure Problem where
  issue : Issue
  line : Nat
  column : Nat
  deriving DecidableEq

def Problem.message (p : Problem) : String :=
  p.issue.message ++ " at line " ++ toString p.line ++ " column " ++ toString p.column

/-- A step of a reader. -/
abbrev Read := StateT Cursor (Except Problem)

namespace Read

/-- Stop with an issue at the last byte that was read. -/
def fail (issue : Issue) : Read α := fun c =>
  .error ⟨issue, c.line, c.column⟩

/-- Stop with an issue at the byte that comes next. -/
def failNext (issue : Issue) : Read α := fun c =>
  .error ⟨issue, c.next.line, c.next.column⟩

/-- Stop with an issue at the byte `n` places after a position, with no line break between them. -/
def failAfter (start : Cursor) (n : Nat) (issue : Issue) : Read α := fun _ =>
  .error ⟨issue, start.line, start.column + n⟩

/-- The byte that comes next. -/
def peek : Read (Option UInt8) := fun c =>
  .ok (c.rest.head?, c)

/-- Take the byte that comes next. -/
def eat : Read Unit := fun c =>
  .ok ((), c.next)

/-- The byte that comes next, taken. -/
def next : Read (Option UInt8) := fun c =>
  .ok (c.rest.head?, c.next)

/-- How many bytes are left. -/
def left : Read Nat := fun c =>
  .ok (c.rest.length, c)

/-- Whether the byte that comes next satisfies `p`. -/
def nextIs (p : UInt8 → Bool) : Read Bool := do
  return (← peek).any p

def isSpace (b : UInt8) : Bool :=
  b == 0x20 || b == 0x0A || b == 0x09 || b == 0x0D

/-- The position after the blanks. -/
def skipBlanksFrom (line column : Nat) : Bytes → Cursor
  | [] => ⟨line, column, []⟩
  | b :: rest =>
    if b = 0x0A then skipBlanksFrom (line + 1) 0 rest
    else if isSpace b then skipBlanksFrom line (column + 1) rest
    else ⟨line, column, b :: rest⟩

/-- The byte that comes next after blanks. -/
def peekPastBlanks : Read (Option UInt8) := fun c =>
  let c := skipBlanksFrom c.line c.column c.rest
  .ok (c.rest.head?, c)

/-- Take the rest of a word whose first letter has been taken. -/
def word : Bytes → Read Unit
  | [] => return
  | expected :: more => do
    match ← next with
    | none => fail .unfinishedValue
    | some b => if b = expected then word more else fail .expectedIdent

/-- Take the bytes that satisfy `p`, and count them. -/
def skipWhile (p : UInt8 → Bool) : Read Nat := do
  go (← left)
where
  go : Nat → Read Nat
    | 0 => return 0
    | n + 1 => do
      if ← nextIs p then
        eat
        return (← go n) + 1
      else
        return 0

/--
Read items as long as there are more. Each item takes at least one byte, so that there are no more items than
bytes.
-/
def collect (more : (first : Bool) → Read Bool) (item : Read α) : Read (List α) := do
  go ((← left) + 1) true
where
  go : Nat → Bool → Read (List α)
    | 0, _ => fail .unfinishedValue
    | n + 1, first => do
      if ← more first then
        let x ← item
        return x :: (← go n false)
      else
        return []

end Read

end Signpost.Json
