import Signpost.Endpoint.Context
import Signpost.Endpoint.Signature

/-!
This module contains the calling of callables: their arguments, what they give back, and how a typed handler
becomes a callable.
-/

namespace Signpost.Endpoint

open Binding (Datum ParamType)

/-- An argument of a call. Data carries the name of its type. -/
inductive Argument where
  | context
  | data (type : String) (value : Datum)

def Argument.describe : Argument → String
  | .context => "Context"
  | .data .. => "Data"

/-- A value that a callable gives back. Either kind can be nil. -/
inductive ReturnValue where
  | error (e : Option Failure)
  | data (value : Option Json)

def ReturnValue.kind : ReturnValue → ReturnKind
  | .error _ => .error
  | .data _ => .data

/-- Why a call did not come about, or its data could not be used. -/
inductive InvokeError where
  | argumentMismatch (expected : String)
  | arity (expected actual : Nat)
  | serialize (reason : String)
  deriving DecidableEq

namespace InvokeError

def message : InvokeError → String
  | .argumentMismatch expected => "argument mismatch: expected " ++ expected
  | .arity expected actual =>
    "expected " ++ toString expected ++ " arguments, got " ++ toString actual
  | .serialize reason => "failed to serialize handler data: " ++ reason

def sources : InvokeError → List String
  | .serialize reason => [reason]
  | _ => []

end InvokeError

/-- Code for a request that takes arguments and gives values back. -/
abbrev Callable (σ : Type) := List Argument → Code (Scope σ) (Except InvokeError (List ReturnValue))

/-! ## What handlers give back -/

/-- A value in JSON, or why it cannot be written so. -/
abbrev Serialized := Except String Json

/-- The data of a return value. The JSON null counts as nil. -/
def toData : Serialized → Except InvokeError (Option Json)
  | .error reason => .error (.serialize reason)
  | .ok .null => .ok none
  | .ok value => .ok (some value)

/-- The forms in which handlers give back errors and data. -/
inductive ReturnForm where
  | unit
  | error
  | data
  /-- An error and data, where a present error wins. -/
  | errorFirst
  /-- Data or an error. -/
  | result
  deriving DecidableEq

namespace ReturnForm

/-- What a handler of the form computes. -/
def Value : ReturnForm → Type
  | .unit => Unit
  | .error => Option Failure
  | .data => Serialized
  | .errorFirst => Option Failure × Option Serialized
  | .result => Except Failure Serialized

def kinds : ReturnForm → List ReturnKind
  | .unit => []
  | .error => [.error]
  | .data => [.data]
  | .errorFirst => [.error, .data]
  | .result => [.data, .error]

/-- The values that are given back. Data is written as JSON before an error is looked at. -/
def returns : (form : ReturnForm) → form.Value → Except InvokeError (List ReturnValue)
  | .unit, _ => .ok []
  | .error, e => .ok [.error e]
  | .data, d => do
    return [.data (← toData d)]
  | .errorFirst, (e, d) => do
    let d ← d.elim (.ok none) toData
    return [.error e, .data d]
  | .result, .ok d => do
    return [.data (← toData d), .error none]
  | .result, .error e => .ok [.data none, .error (some e)]

end ReturnForm

/-! ## Typed handlers -/

namespace ParamShape

/-- The code of a handler with these parameters. Only a handler that takes the context can use it. -/
def Body (σ α : Type) : ParamShape → Type
  | .none => Code σ α
  | .context => Code (Scope σ) α
  | .data _ => Datum → Code σ α
  | .contextData _ => Datum → Code (Scope σ) α
  | .dataContext _ => Datum → Code (Scope σ) α

end ParamShape

namespace Argument

/-- The argument is the context. -/
def asContext : Argument → Except InvokeError Unit
  | .context => .ok ()
  | .data .. => .error (.argumentMismatch "context")

/-- The argument is data of a type. -/
def asData (t : ParamType) : Argument → Except InvokeError Datum
  | .data type value =>
    if type = t.fullName then .ok value else .error (.argumentMismatch t.fullName)
  | .context => .error (.argumentMismatch t.fullName)

end Argument

namespace ParamShape

/-- The code with its arguments, if their number and their kinds are right. The number is looked at first. -/
def apply : (shape : ParamShape) → shape.Body σ α → List Argument → Except InvokeError (Code (Scope σ) α)
  | .none, body, [] => .ok body.inScope
  | .context, body, [a] => do
    a.asContext
    return body
  | .data t, body, [a] => do
    return (body (← a.asData t)).inScope
  | .contextData t, body, [a, b] => do
    a.asContext
    return body (← b.asData t)
  | .dataContext t, body, [a, b] => do
    let d ← a.asData t
    b.asContext
    return body d
  | shape, _, args => .error (.arity shape.arity args.length)

end ParamShape

/-- A handler with the types of its parameters and the form of what it gives back. -/
structure Handler (σ : Type) where
  params : ParamShape
  form : ReturnForm
  body : params.Body σ form.Value

namespace Handler

def signature (h : Handler σ) : Signature :=
  ⟨h.params.toList, h.form.kinds⟩

def call (h : Handler σ) : Callable σ := fun args => do
  match h.params.apply h.body args with
  | .error e => return .error e
  | .ok code => return h.form.returns (← code)

end Handler

end Signpost.Endpoint
