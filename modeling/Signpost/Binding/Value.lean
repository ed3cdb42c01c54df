import Signpost.Binding.Type
import Signpost.Decimal.Reading
import Signpost.Json.Cursor
import Signpost.Text.Blank
import Signpost.Text.Quoted

/-!
This module contains the conversion of the texts that a request carries under one name, and the ways in which
the binding of parameters goes wrong.
-/

namespace Signpost.Binding

/-- A text that is no value of a type. -/
structure ValueError where
  value : String
  expected : String
  deriving DecidableEq

def ValueError.message (e : ValueError) : String :=
  "cannot parse " ++ Text.quoted e.value ++ " as " ++ e.expected

/-- Why a parameter was not populated. -/
inductive ParseError where
  /-- The body is not JSON of the declared type. -/
  | json (problem : Json.Problem)
  /-- The values of a field do not convert. -/
  | field (name : String) (source : ValueError)
  /-- The populated value is not of the declared type. -/
  | typeMismatch (expected : String)
  deriving DecidableEq

namespace ParseError

def message : ParseError → String
  | .json problem => "invalid JSON body: " ++ problem.message
  | .field name source => "field `" ++ name ++ "`: " ++ source.message
  | .typeMismatch expected => "populated parameter is not a " ++ expected

/-- The messages of what is behind the error. -/
def sources : ParseError → List String
  | .json problem => [problem.message]
  | .field _ source => [source.message]
  | .typeMismatch _ => []

end ParseError

/-- The spellings of a truth value. -/
def readBool? (s : String) : Option Bool :=
  if s ∈ ["1", "t", "T", "true", "TRUE", "True"] then some true
  else if s ∈ ["0", "f", "F", "false", "FALSE", "False"] then some false
  else none

def IntType.read? (t : IntType) (cs : List Char) : Option Int :=
  let read := if t.signed then Decimal.readInt? cs else (Decimal.readNat? cs).map Int.ofNat
  read.filter t.contains

/-- The value of a type that a text spells. Blanks around numbers and characters do not count. -/
def Scalar.read? (s : Scalar) (raw : String) : Option Datum :=
  let trimmed := (Text.trim raw).toList
  match s with
  | .text => some (.text raw)
  | .bool => (readBool? raw).map .bool
  | .char =>
    match trimmed with
    | [c] => some (.char c)
    | _ => none
  | .int t => (t.read? trimmed).map .int
  | .single => (Decimal.readFloat? .single trimmed).map fun bits => .single ⟨.ofNat bits⟩
  | .double => (Decimal.readFloat? .double trimmed).map fun bits => .double ⟨.ofNat bits⟩

/-- Convert the values of one name. A scalar takes the first of them, a list takes them all. -/
def ValueType.ofValues : ValueType → List String → Except ValueError Datum
  | .scalar s, values =>
    let raw := values.headD ""
    match s.read? raw with
    | some d => .ok d
    | none => .error ⟨raw, s.name⟩
  | .optional _, [] => .ok .absent
  | .optional t, values => (t.ofValues values).map .present
  | .list t, values => (values.mapM fun value => t.ofValues [value]).map .list

end Signpost.Binding
