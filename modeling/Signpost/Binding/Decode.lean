import Signpost.Binding.Type
import Signpost.Json.Printer
import Signpost.Json.Reader
import Signpost.Text.Quoted

/-!
This module contains the reading of parameters from JSON text. The type is followed while the text is read, so
that a value of the wrong sort is reported where it stands.
-/

namespace Signpost.Binding

open Json.Read
open Json (Read)

/-- A number as it is named in messages. -/
def describeNumber : Json.Number → String
  | .int i => "integer `" ++ toString i ++ "`"
  | .float x => "floating point `" ++ x.text ++ "`"

def describeText (s : String) : String :=
  "string " ++ Text.quoted s

/-- Report the value that comes next as one of the wrong sort. A scalar is read, a bracket is not. -/
def mismatch (wanted : String) : Read α := do
  match ← scalar? with
  | some .null => fail (.invalidType "null" wanted)
  | some (.bool true) => fail (.invalidType "boolean `true`" wanted)
  | some (.bool false) => fail (.invalidType "boolean `false`" wanted)
  | some (.number n) => fail (.invalidType (describeNumber n) wanted)
  | some (.text s) => fail (.invalidType (describeText s) wanted)
  | _ => fail (.invalidType (if ← nextIs (· == openList) then "sequence" else "map") wanted)

def readText (wanted : String) : Read String := do
  if (← peekValue) = quoteByte then
    eat
    string
  else
    mismatch wanted

def readNumber (wanted : String) : Read Json.Number := do
  let b ← peekValue
  if b = 0x2D then
    eat
    number true
  else if isDigit b then
    number false
  else
    mismatch wanted

def Scalar.read : Scalar → Read Datum
  | .text => return .text (← readText "a string")
  | .bool => do
    let b ← peekValue
    if b = 0x74 ∨ b = 0x66 then
      match ← scalar? with
      | some (.bool b) => return .bool b
      | _ => fail .expectedIdent
    else
      mismatch "a boolean"
  | .char => do
    let s ← readText "a character"
    match s.toList with
    | [c] => return .char c
    | _ => fail (.invalidValue (describeText s) "a character")
  | .int t => do
    match ← readNumber t.name with
    | .int i =>
      if t.contains i then return .int i
      else fail (.invalidValue (describeNumber (.int i)) t.name)
    | n => fail (.invalidType (describeNumber n) t.name)
  | .single => do
    match ← readNumber "f32" with
    | .int i => return .single (.ofInt i)
    | .float x => return .single x.toSingle
  | .double => do
    match ← readNumber "f64" with
    | .int i => return .double (.ofInt i)
    | .float x => return .double x

/-- Take an opening bracket and go on inside of it. -/
def inBracket (depth : Nat) (inside : (depth : Nat) → Read α) : Read α :=
  match depth with
  | 0 => failNext .tooDeep
  | depth + 1 => do
    eat
    inside depth

def readList (depth : Nat) (item : (depth : Nat) → Read Datum) : Read Datum := do
  if (← peekValue) = openList then
    inBracket depth fun depth => do
      let items ← collect moreItems (item depth)
      endList
      return .list items
  else
    mismatch "a sequence"

def ValueType.read : ValueType → (depth : Nat) → Read Datum
  | .scalar s, _ => s.read
  | .optional t, depth => do
    if (← peekPastBlanks) = some 0x6E then
      eat
      word [0x75, 0x6C, 0x6C]
      return .absent
    else
      return .present (← t.read depth)
  | .list t, depth => readList depth t.read

def readDictionary (depth : Nat) : Read Datum := do
  if (← peekValue) = openObject then
    inBracket depth fun _ => do
      let entries ← collect moreFields (field (readText "a string"))
      endObject
      return .dictionary (Json.sortFields entries)
  else
    mismatch "a map"

/-- A field of a record that JSON can set, with what reads it and what it is if it is left out. -/
structure Slot where
  name : String
  read : (depth : Nat) → Read Datum
  fallback : Option Datum

/-- The value of a slot that is left out of an object. -/
def Slot.missing (slot : Slot) : Read Datum :=
  match slot.fallback with
  | some d => return d
  | none => fail (.missingField slot.name)

/-- The slots in order from the items of a list. -/
def readItems (wanted : String) (lenient : Bool) (depth : Nat) :
    List Slot → (index : Nat) → Read (List (String × Datum))
  | [], _ => return []
  | slot :: rest, index => do
    if ← moreItems (index = 0) then
      let d ← slot.read depth
      return (slot.name, d) :: (← readItems wanted lenient depth rest (index + 1))
    else
      match slot.fallback.filter fun _ => lenient with
      | some d => return (slot.name, d) :: (← readItems wanted lenient depth rest index)
      | none =>
        endList
        fail (.invalidLength index wanted)

/-- A name that stands twice in an object. The object is left before it is reported, if it ends here. -/
def duplicate (name : String) : Read α := do
  if (← peekPastBlanks) = some closeObject then eat
  fail (.duplicateField name)

/-- The fields of an object that are slots. Fields of other names are passed over. -/
def readFields (slots : List Slot) (depth : Nat) : Read (List (String × Datum)) := do
  go ((← left) + 1) true []
where
  go : Nat → (first : Bool) → List (String × Datum) → Read (List (String × Datum))
    | 0, _, _ => fail .unfinishedObject
    | n + 1, first, found => do
      if ← moreFields first then
        let name ← fieldName
        match slots.find? (·.name = name) with
        | none =>
          colon
          skipValue
          go n false found
        | some slot =>
          if (found.lookup name).isSome then
            duplicate name
          else
            colon
            let d ← slot.read depth
            go n false ((name, d) :: found)
      else
        return found

/-- What the messages call a record that is written as a list. -/
def describeLength (name : String) (count : Nat) : String :=
  "struct " ++ name ++ " with " ++ toString count ++ if count = 1 then " element" else " elements"

/--
A record, written as an object or as the list of its fields in order. A field that is no slot keeps its value in
`unset`.
-/
def readRecord (info : RecordInfo) (unset : List (String × Datum)) (slots : List Slot) (depth : Nat) :
    Read Datum := do
  let b ← peekValue
  if b = openList then
    inBracket depth fun depth => do
      let found ← readItems (describeLength info.name slots.length) info.lenient depth slots 0
      endList
      return .record (unset.map fun (name, d) => (name, (found.lookup name).getD d))
  else if b = openObject then
    inBracket depth fun depth => do
      let found ← readFields slots depth
      endObject
      let missing ← (slots.filter fun slot => (found.lookup slot.name).isNone).mapM fun slot => do
        return (slot.name, ← slot.missing)
      return .record (unset.map fun (name, d) => (name, ((found ++ missing).lookup name).getD d))
  else
    mismatch ("struct " ++ info.name)

/-- The value of a field that a JSON object leaves out. -/
def fallback? (lenient : Bool) (initial : Datum) : Role ParamType → Option Datum
  | .bound (.optional _) .. => some (if lenient then initial else .absent)
  | .ignored (.value (.optional _)) => some (if lenient then initial else .absent)
  | _ => if lenient then some initial else none

mutual

/-- Read a parameter. -/
def ParamType.read : ParamType → (depth : Nat) → Read Datum
  | .value t, depth => t.read depth
  | .dictionary, depth => readDictionary depth
  | .json, depth => return .json (← value depth)
  | .record info fields, depth =>
    readRecord info (fields.map fun f => (f.name, f.unset info.lenient)) (slots info.lenient fields) depth

/-- The fields of a record that JSON can set. -/
def slots (lenient : Bool) : List (Field ParamType) → List Slot
  | [] => []
  | ⟨name, role, _, decoded, initial⟩ :: rest =>
    let slot : Slot := ⟨name, readRole role, fallback? lenient initial role⟩
    if decoded then slot :: slots lenient rest else slots lenient rest

def readRole : Role ParamType → (depth : Nat) → Read Datum
  | .captures, depth => readList depth fun _ => Scalar.text.read
  | .bound t .., depth => t.read depth
  | .nested t, depth => t.read depth
  | .ignored t, depth => t.read depth

end

/-- The parameter that a JSON document holds. -/
def ParamType.decode (t : ParamType) (body : Bytes) : Except Json.Problem Datum :=
  Json.Read.document (t.read maxDepth) body

end Signpost.Binding
