import Signpost.Binding.Bind
import Signpost.Binding.Decode

/-!
This module contains the population of a parameter from a request and from the segments that its route has
captured.
-/

namespace Signpost.Binding

/-- Put the captured segments into the field that takes them, if there are any of both. -/
def ParamType.withCaptures (t : ParamType) (args : List String) (d : Datum) : Datum :=
  match args, t.capturesField? with
  | _ :: _, some name => d.withField name (.ofTexts args)
  | _, _ => d

/-- Whether the captured segments are all that the parameter has. -/
def ParamType.isFilledBy (t : ParamType) (args : List String) : Bool :=
  args ≠ [] && t.capturesField?.isSome && t.fieldCount == 1

/-- Whether the field that takes the captured segments holds none. -/
def ParamType.capturesNothing (t : ParamType) (d : Datum) : Bool :=
  match t.capturesField?.bind d.field? with
  | some (.list []) => true
  | _ => false

/--
Populate a parameter. A JSON body is decoded, and its own value of the captured segments stays if it has one. A
form binds from the form and then from the query, and anything else from the query.
-/
def ParamType.populate (t : ParamType) (r : Http.Request) (args : List String) :
    Except ParseError Datum :=
  let start := t.withCaptures args t.initial
  if t.isFilledBy args then
    .ok start
  else
    match r.kind with
    | .json =>
      if r.body = [] then
        .ok start
      else
        match t.decode r.body with
        | .error problem => .error (.json problem)
        | .ok decoded =>
          .ok (if t.capturesNothing decoded then t.withCaptures args decoded else decoded)
    | .form => t.bind (.ofForm r) start
    | .other => t.bind (.ofQuery r) start

end Signpost.Binding
