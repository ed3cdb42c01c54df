import Signpost.Binding.Value
import Signpost.Http.Request

/-!
This module contains the binding of parameters from the values of a request.
-/

namespace Signpost.Binding

/-- Where values come from: the values of each name, and all pairs in order. -/
structure Source where
  values : String → List String
  pairs : List (String × String)

namespace Source

/-- The values of the query. -/
def ofQuery (r : Http.Request) : Source where
  values := r.queryValues
  pairs := r.query

/-- The values of the form. A name that the form does not have is looked up in the query. -/
def ofForm (r : Http.Request) : Source where
  values name :=
    let values := r.formValues name
    if values = [] then r.queryValues name else values
  pairs := r.form ++ r.query

end Source

/-- Bind the values that a request carries under a name. The second component says whether there were any. -/
def bindValue (t : ValueType) (source : Source) (name : String) (keep : Bool) (current : Datum) :
    Except ParseError (Datum × Bool) :=
  match source.values name with
  | [] => .ok (if keep then current else t.zero, false)
  | values =>
    match t.ofValues values with
    | .ok d => .ok (d, true)
    | .error e => .error (.field name e)

/-- Bind a parameter that is no record: a list takes the values of all pairs, a scalar that of the last. -/
def bindWhole (t : ValueType) (source : Source) (current : Datum) : Except ParseError Datum :=
  match t with
  | .list _ => (t.ofValues (source.pairs.map (·.2))).mapError (.field "[]")
  | t =>
    match source.pairs.getLast? with
    | some (name, value) => (t.ofValues [value]).mapError (.field name)
    | none => .ok current

mutual

/-- Bind a parameter, starting from the value that it has. -/
def ParamType.bind : ParamType → Source → Datum → Except ParseError Datum
  | .value t, source, current => bindWhole t source current
  | .dictionary, source, _ => .ok (.dictionary (Json.sortFields source.pairs))
  | .json, source, _ =>
    .ok (.json (.ofFields (source.pairs.map fun (name, value) => (name, .text value))))
  | .record _ fields, source, current =>
    match current with
    | .record values => (bindFields (companions fields) fields source values).map .record
    | current => .ok current

/-- Bind the fields of a record in order. Fields that stand for the presence of others are left out. -/
def bindFields (companions : List String) :
    List (Field ParamType) → Source → List (String × Datum) → Except ParseError (List (String × Datum))
  | [], _, values => .ok values
  | field :: rest, source, values => do
    let values ←
      if field.name ∈ companions then .ok values
      else bindField field.name field.companion field.role source values
    bindFields companions rest source values

/-- Bind one field and say in its companion whether it had values. -/
def bindField (name : String) (companion : Option String) :
    Role ParamType → Source → List (String × Datum) → Except ParseError (List (String × Datum))
  | .captures, _, values => .ok values
  | .ignored _, _, values => .ok values
  | .nested t, source, values =>
    match values.lookup name with
    | some current => (t.bind source current).map fun d => Datum.setField name d values
    | none => .ok values
  | .bound t sourceName keep, source, values => do
    let current := (values.lookup name).getD t.zero
    let (d, isPresent) ← bindValue t source sourceName keep current
    let values := Datum.setField name d values
    match companion with
    | some c => .ok (Datum.setField c (.bool isPresent) values)
    | none => .ok values

end

end Signpost.Binding
