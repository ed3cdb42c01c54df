import Signpost.Decimal.Binary

/-!
This module contains the type of JSON values. The fields of an object are kept in increasing order of their
names, one field for each name.
-/

namespace Signpost

/-- A JSON number: an integer of 64 bits, with or without a sign, or a finite double. -/
inductive Json.Number where
  | int (i : Int)
  | float (x : Decimal.Double)
  deriving DecidableEq, Inhabited

inductive Json where
  | null
  | bool (b : Bool)
  | number (n : Json.Number)
  | text (s : String)
  | array (items : List Json)
  | object (fields : List (String × Json))
  deriving Inhabited

namespace Json

/-- Give a name a value in a list that is ordered by names, in place of the value it had. -/
def setField (name : String) (value : α) : List (String × α) → List (String × α)
  | [] => [(name, value)]
  | (n, v) :: rest =>
    if name < n then (name, value) :: (n, v) :: rest
    else if name = n then (name, value) :: rest
    else (n, v) :: setField name value rest

/-- The list ordered by names in which every name has the last of its values. -/
def sortFields (fields : List (String × α)) : List (String × α) :=
  fields.foldl (fun sorted (name, value) => setField name value sorted) []

/-- The object with these fields. Of fields with one name the last is kept. -/
def ofFields (fields : List (String × Json)) : Json :=
  .object (sortFields fields)

def ofInt (i : Int) : Json :=
  .number (.int i)

def ofNat (n : Nat) : Json :=
  .ofInt n

def ofOption : Option Json → Json
  | none => .null
  | some value => value

def texts (items : List String) : Json :=
  .array (items.map .text)

def isNull : Json → Bool
  | .null => true
  | _ => false

/-- The value of a field of an object. -/
def field? (value : Json) (name : String) : Option Json :=
  match value with
  | .object fields => fields.lookup name
  | _ => none

end Json

end Signpost
