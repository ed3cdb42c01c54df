import Signpost.Json.Scalar

/-!
This module contains the reading of JSON values. Reading is incremental: the first problem that is met is
the one reported.
-/

namespace Signpost.Json.Read

def comma : UInt8 := 0x2C
def openList : UInt8 := 0x5B
def closeList : UInt8 := 0x5D
def openObject : UInt8 := 0x7B
def closeObject : UInt8 := 0x7D

/-- How many brackets may be open at once. -/
def maxDepth : Nat := 127

/-- Whether a list has one more item. A comma in front of it is taken. -/
def moreItems (first : Bool) : Read Bool := do
  match ← peekPastBlanks with
  | none => failNext .unfinishedList
  | some b =>
    if b = closeList then
      return false
    else if first then
      return true
    else if b = comma then
      eat
      match ← peekPastBlanks with
      | none => failNext .unfinishedValue
      | some b => if b = closeList then failNext .trailingComma else return true
    else
      failNext .expectedCommaOrBracket

/-- Whether an object has one more field. A comma in front of it is taken, its opening quote is not. -/
def moreFields (first : Bool) : Read Bool := do
  match ← peekPastBlanks with
  | none => failNext .unfinishedObject
  | some b =>
    if b = closeObject then
      return false
    else if first then
      if b = quoteByte then return true else failNext .keyNotText
    else if b = comma then
      eat
      match ← peekPastBlanks with
      | none => failNext .unfinishedValue
      | some b =>
        if b = quoteByte then return true
        else if b = closeObject then failNext .trailingComma
        else failNext .keyNotText
    else
      failNext .expectedCommaOrBrace

/-- The name of a field, from its opening quote. -/
def fieldName : Read String := do
  eat
  string

/-- Take the colon between the name of a field and its value. -/
def colon : Read Unit := do
  match ← peekPastBlanks with
  | none => failNext .unfinishedObject
  | some b => if b = 0x3A then eat else failNext .expectedColon

/-- Take the bracket that closes a list. -/
def endList : Read Unit := do
  match ← peekPastBlanks with
  | none => failNext .unfinishedList
  | some b =>
    if b = closeList then
      eat
    else if b = comma then
      eat
      if (← peekPastBlanks) == some closeList then failNext .trailingComma
      else failNext .trailingCharacters
    else
      failNext .trailingCharacters

/-- Take the bracket that closes an object. -/
def endObject : Read Unit := do
  match ← peekPastBlanks with
  | none => failNext .unfinishedObject
  | some b =>
    if b = closeObject then eat
    else if b = comma then failNext .trailingComma
    else failNext .trailingCharacters

/-- The byte that begins a value. -/
def peekValue : Read UInt8 := do
  match ← peekPastBlanks with
  | none => failNext .unfinishedValue
  | some b => return b

/-- The name of a field and its value. -/
def field (value : Read α) : Read (String × α) := do
  let name ← fieldName
  colon
  return (name, ← value)

/-- A value that is not a list or an object, and `none` for those two. -/
def scalar? : Read (Option Json) := do
  let b ← peekValue
  if b = 0x6E then
    eat
    word [0x75, 0x6C, 0x6C]
    return some .null
  else if b = 0x74 then
    eat
    word [0x72, 0x75, 0x65]
    return some (.bool true)
  else if b = 0x66 then
    eat
    word [0x61, 0x6C, 0x73, 0x65]
    return some (.bool false)
  else if b = 0x2D then
    eat
    return some (.number (← number true))
  else if isDigit b then
    return some (.number (← number false))
  else if b = quoteByte then
    eat
    return some (.text (← string))
  else if b = openList ∨ b = openObject then
    return none
  else
    failNext .expectedValue

/-- A value in which at most `depth` brackets are open at once. -/
def value (depth : Nat) : Read Json := do
  match ← scalar? with
  | some v => return v
  | none =>
    match depth with
    | 0 => failNext .tooDeep
    | depth + 1 =>
      match ← next with
      | some b =>
        if b = openList then
          let items ← collect moreItems (value depth)
          endList
          return .array items
        else
          let fields ← collect moreFields (field (value depth))
          endObject
          return .ofFields fields
      | none => fail .unfinishedValue

/-- Only blanks are left. -/
def finish : Read Unit := do
  if (← peekPastBlanks).isSome then failNext .trailingCharacters

/-- Read a whole document. -/
def document (read : Read α) (bytes : Bytes) : Except Problem α :=
  (read <* finish).run' (.start bytes)

/-! ## Passing over values -/

/-- Pass over a number after its sign. -/
def skipNumber : Read Unit := do
  match ← next with
  | none => fail .invalidNumber
  | some b =>
    if b = 0x30 then
      if ← nextIs isDigit then failNext .invalidNumber
    else if isDigit b then
      let _ ← skipWhile isDigit
    else
      fail .invalidNumber
    if ← nextIs isPoint then
      eat
      if (← skipWhile isDigit) = 0 then failNext .invalidNumber
    if ← nextIs isExponentMark then
      eat
      if ← nextIs fun b => b == 0x2B || b == 0x2D then eat
      match ← next with
      | none => fail .invalidNumber
      | some b => if !isDigit b then fail .invalidNumber
      let _ ← skipWhile isDigit

/-- Pass over a value that is no list or object. The bracket is given back for those two. -/
def skipScalar : Read (Option UInt8) := do
  let b ← peekValue
  if b = 0x6E then
    eat
    word [0x75, 0x6C, 0x6C]
    return none
  else if b = 0x74 then
    eat
    word [0x72, 0x75, 0x65]
    return none
  else if b = 0x66 then
    eat
    word [0x61, 0x6C, 0x73, 0x65]
    return none
  else if b = 0x2D then
    eat
    skipNumber
    return none
  else if isDigit b then
    skipNumber
    return none
  else if b = quoteByte then
    eat
    skipString
    return none
  else if b = openList ∨ b = openObject then
    eat
    return some b
  else
    failNext .expectedValue

/-- Pass over the name of a field and the colon after it. -/
def skipFieldName : Read Unit := do
  match ← peekPastBlanks with
  | none => failNext .unfinishedObject
  | some b =>
    if b = quoteByte then eat else failNext .keyNotText
  skipString
  match ← peekPastBlanks with
  | none => failNext .unfinishedObject
  | some b => if b = 0x3A then eat else failNext .expectedColon

/--
After an item, or after an opening bracket if `fresh`: close what ends here and stop before the next item. The
result is the list of brackets that stay open, the innermost first.
-/
def closeBrackets (fresh : Bool) : (opened : List UInt8) → Read (List UInt8)
  | [] => return []
  | bracket :: outer => do
    let closing := if bracket = openList then closeList else closeObject
    match ← peekPastBlanks with
    | none => failNext (if bracket = openList then .unfinishedList else .unfinishedObject)
    | some b =>
      if b = comma ∧ !fresh then
        eat
        return bracket :: outer
      else if b = closing then
        eat
        closeBrackets false outer
      else if fresh then
        return bracket :: outer
      else
        failNext (if bracket = openList then .expectedCommaOrBracket else .expectedCommaOrBrace)

/-- Pass over a value. Brackets may be nested to any depth. -/
def skipValue : Read Unit := do
  go ((← left) + 1) []
where
  go : Nat → List UInt8 → Read Unit
    | 0, _ => fail .unfinishedValue
    | n + 1, opened => do
      let bracket ← skipScalar
      let opened ← closeBrackets bracket.isSome (bracket.toList ++ opened)
      match opened with
      | [] => return
      | b :: _ =>
        if b = openObject then skipFieldName
        go n opened

end Signpost.Json.Read

namespace Signpost.Json

/-- The value that a document holds. -/
def ofBytes? (bytes : Bytes) : Except Problem Json :=
  Read.document (Read.value Read.maxDepth) bytes

def ofText? (text : String) : Except Problem Json :=
  ofBytes? (Text.utf8 text)

end Signpost.Json
