import Signpost.Decimal.Binary
import Signpost.Json.Value

/-!
This module contains the types of the parameters that handlers declare, as data, and the values of these
types. A record says of each of its fields how the field is bound.
-/

namespace Signpost.Binding

/-- The width of an integer type. A word is as wide as a pointer, which is 64 bits. -/
inductive Width where
  | w8
  | w16
  | w32
  | w64
  | word
  deriving DecidableEq

def Width.bits : Width → Nat
  | .w8 => 8
  | .w16 => 16
  | .w32 => 32
  | .w64 => 64
  | .word => 64

structure IntType where
  signed : Bool
  width : Width
  deriving DecidableEq

namespace IntType

def name (t : IntType) : String :=
  (if t.signed then "i" else "u") ++
    match t.width with
    | .word => "size"
    | width => toString width.bits

def low (t : IntType) : Int :=
  if t.signed then -Int.pow 2 (t.width.bits - 1) else 0

def high (t : IntType) : Int :=
  if t.signed then Int.pow 2 (t.width.bits - 1) - 1 else Int.pow 2 t.width.bits - 1

/-- Whether an integer is a value of the type. -/
def contains (t : IntType) (i : Int) : Bool :=
  t.low ≤ i && i ≤ t.high

end IntType

/-- The types that are written as one text. -/
inductive Scalar where
  | text
  | bool
  | char
  | int (t : IntType)
  | single
  | double
  deriving DecidableEq, Inhabited

/-- The types that a request carries under one name. -/
inductive ValueType where
  | scalar (s : Scalar)
  | optional (t : ValueType)
  | list (t : ValueType)
  deriving DecidableEq, Inhabited

/-- A value of a parameter type. -/
inductive Datum where
  | text (s : String)
  | bool (b : Bool)
  | char (c : Char)
  | int (i : Int)
  | single (x : Decimal.Single)
  | double (x : Decimal.Double)
  | absent
  | present (value : Datum)
  | list (items : List Datum)
  /-- Texts by names, in increasing order of the names. -/
  | dictionary (entries : List (String × String))
  | json (value : Json)
  | record (fields : List (String × Datum))
  deriving Inhabited

/-- How a field of a record gets its value. `τ` is the type of parameter types. -/
inductive Role (τ : Type) where
  /-- The segments captured by the route, in order. -/
  | captures
  /-- The values that the request carries under a name. If there are none, `keep` says whether they stay as they are. -/
  | bound (t : ValueType) (source : String) (keep : Bool)
  /-- A record that binds its own fields from the same request. -/
  | nested (t : τ)
  /-- Nothing is bound. -/
  | ignored (t : τ)

/-- A field of a record. -/
structure Field (τ : Type) where
  name : String
  role : Role τ
  /-- The field that says whether this one had a value. -/
  companion : Option String
  /-- Whether a JSON body can set the field. -/
  decoded : Bool
  /-- The value before anything is bound. -/
  initial : Datum

structure RecordInfo where
  name : String
  /-- The name with the place where the record is declared. -/
  path : String
  /-- Whether a JSON body can leave fields out. -/
  lenient : Bool

/-- The type of a parameter. -/
inductive ParamType where
  | value (t : ValueType)
  | dictionary
  | json
  | record (info : RecordInfo) (fields : List (Field ParamType))

def Scalar.name : Scalar → String
  | .text => "String"
  | .bool => "bool"
  | .char => "char"
  | .int t => t.name
  | .single => "f32"
  | .double => "f64"

/-- The name of a type with the place where it is declared. -/
def ValueType.fullName : ValueType → String
  | .scalar .text => "alloc::string::String"
  | .scalar s => s.name
  | .optional t => "core::option::Option<" ++ t.fullName ++ ">"
  | .list t => "alloc::vec::Vec<" ++ t.fullName ++ ">"

def ParamType.fullName : ParamType → String
  | .value t => t.fullName
  | .dictionary =>
    "std::collections::hash::map::HashMap<alloc::string::String, alloc::string::String>"
  | .json => "serde_json::value::Value"
  | .record info _ => info.path

def Scalar.zero : Scalar → Datum
  | .text => .text ""
  | .bool => .bool false
  | .char => .char '\x00'
  | .int _ => .int 0
  | .single => .single ⟨0⟩
  | .double => .double ⟨0⟩

/-- The value of a type that was not given one. -/
def ValueType.zero : ValueType → Datum
  | .scalar s => s.zero
  | .optional _ => .absent
  | .list _ => .list []

/-- The value of a parameter before anything is bound. -/
def ParamType.initial : ParamType → Datum
  | .value t => t.zero
  | .dictionary => .dictionary []
  | .json => .json .null
  | .record _ fields => .record (fields.map fun f => (f.name, f.initial))

/-- The value of a field that was not given one, if the record it is in has no say in it. -/
def Role.zero : Role ParamType → Datum
  | .captures => .list []
  | .bound t .. => t.zero
  | .nested t => t.initial
  | .ignored t => t.initial

/-- The value of a field that JSON does not set: that of the record, if it lets JSON leave fields out. -/
def Field.unset (lenient : Bool) (f : Field ParamType) : Datum :=
  if lenient then f.initial else f.role.zero

/-- How many fields a parameter has. Whatever is no record counts as one. -/
def ParamType.fieldCount : ParamType → Nat
  | .record _ fields => fields.length
  | _ => 1

def Role.isCaptures : Role τ → Bool
  | .captures => true
  | _ => false

/-- The field that takes the captured segments. -/
def ParamType.capturesField? : ParamType → Option String
  | .record _ fields => (fields.find? (·.role.isCaptures)).map (·.name)
  | _ => none

/-- The fields that say of other fields whether they had a value. -/
def companions (fields : List (Field ParamType)) : List String :=
  fields.filterMap (·.companion)

namespace Datum

def field? (d : Datum) (name : String) : Option Datum :=
  match d with
  | .record fields => fields.lookup name
  | _ => none

/-- Give a field of a record a value. Fields that the record does not have are passed over. -/
def setField (name : String) (value : Datum) (fields : List (String × Datum)) : List (String × Datum) :=
  fields.map fun (n, v) => if n = name then (n, value) else (n, v)

def withField (d : Datum) (name : String) (value : Datum) : Datum :=
  match d with
  | .record fields => .record (setField name value fields)
  | d => d

def ofTexts (items : List String) : Datum :=
  .list (items.map .text)

end Datum

end Signpost.Binding
