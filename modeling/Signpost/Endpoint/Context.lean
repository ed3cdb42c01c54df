import Signpost.Endpoint.Failure
import Signpost.RequestId

/-!
This module contains the context of a request, which hooks and handlers share, and the code that runs in it.
-/

namespace Signpost.Endpoint

/-- What belongs to one request while it is handled. -/
structure Context where
  requestId : RequestId
  request : Http.Request
  /-- How many nanoseconds after its start the request is late. -/
  deadline : Option Nat
  /-- The headers that the response is to have. -/
  headers : Http.Headers
  /-- Values that hooks and handlers leave for each other. -/
  values : List (String × Json)

namespace Context

def ofRequest (fresh : RequestId) (request : Http.Request) : Context :=
  ⟨.ofRequest fresh request, request, none, .empty, []⟩

def withDeadline (c : Context) (timeout : Option Nat) : Context :=
  { c with deadline := timeout }

/-- Whether the request is late when so many nanoseconds have passed since its start. -/
def isExpired (c : Context) (elapsed : Nat) : Bool :=
  c.deadline.any (· ≤ elapsed)

/-- Set a header of the response in place of its earlier values. -/
def setHeader (c : Context) (name value : String) : Except Failure Context :=
  match Http.HeaderName.ofString? name with
  | none =>
    .error ((Failure.ofMessage "invalid HTTP header name").wrap
      ("invalid header name " ++ Text.quoted name))
  | some name =>
    match Http.headerValue? value with
    | none =>
      .error ((Failure.ofMessage "failed to parse header value").wrap
        ("invalid value for " ++ name.text))
    | some value => .ok { c with headers := c.headers.insert name value }

def set (c : Context) (key : String) (value : Json) : Context :=
  { c with values := Json.setField key value c.values }

def get? (c : Context) (key : String) : Option Json :=
  c.values.lookup key

/-- The context as it is shown to a developer. -/
def describe (c : Context) : String :=
  "Context \x7b request_id: RequestId(Ulid(" ++ toString c.requestId.value ++ ")), method: "
    ++ c.request.method.token ++ ", path: " ++ Text.quoted c.request.path ++ ", .. \x7d"

end Context

/-- The end of a piece of code that gives up without a result. -/
structure Panic where
  message : String
  deriving DecidableEq, Inhabited

/-- Code that works on a state and can give up. What it did to the state before it gave up remains. -/
abbrev Code (σ : Type) := ExceptT Panic (StateM σ)

/-- The state of code that runs for a request: its context and the state of the application. -/
structure Scope (σ : Type) where
  context : Context
  world : σ

namespace Code

def panic (message : String) : Code σ α :=
  throw ⟨message⟩

/-- Run code that knows nothing of requests for a request. -/
def inScope (code : Code σ α) : Code (Scope σ) α := fun scope =>
  let (result, world) := code scope.world
  (result, { scope with world })

/-- Run code for a request in a fresh context, which is given back. -/
def withContext (context : Context) (code : Code (Scope σ) α) : Code σ (α × Context) := fun world =>
  match code ⟨context, world⟩ with
  | (.ok result, scope) => (.ok (result, scope.context), scope.world)
  | (.error panic, scope) => (.error panic, scope.world)

/-- The context of the request. -/
def context : Code (Scope σ) Context := do
  return (← get).context

/-- Change the context of the request. -/
def modifyContext (f : Context → Context) : Code (Scope σ) Unit :=
  modify fun scope => { scope with context := f scope.context }

/-- Set a header of the response. -/
def setHeader (name value : String) : Code (Scope σ) (Except Failure Unit) := do
  match (← context).setHeader name value with
  | .ok c =>
    modifyContext fun _ => c
    return .ok ()
  | .error e => return .error e

end Code

/-- A part of a state that can be read and replaced. -/
structure Part (σ ρ : Type) where
  get : σ → ρ
  set : ρ → σ → σ

def Part.modify (p : Part σ ρ) (f : ρ → ρ) : Code σ Unit :=
  MonadState.modifyGet fun s => ((), p.set (f (p.get s)) s)

end Signpost.Endpoint
