import Signpost.Binding.Value
import Signpost.Http.Response

/-!
This module contains the errors that handlers and hooks give back, and their rendering as responses. An error
has a cause and can be wrapped in explanations.
-/

namespace Signpost.Endpoint

/-- An error with the status that its response has. -/
structure StatusError where
  status : Nat
  message : String
  /-- What the response shows in place of the message. -/
  payload : Option Json

/-- What is at the bottom of an error, or explains another one. -/
inductive Cause where
  | message (text : String)
  | status (e : StatusError)
  | parse (e : Binding.ParseError)
  | value (e : Binding.ValueError)
  /-- Any other error, with the messages of what is behind it. -/
  | other (text : String) (sources : List String)

namespace Cause

def text : Cause → String
  | .message text => text
  | .status e => e.message
  | .parse e => e.message
  | .value e => e.message
  | .other text _ => text

/-- The messages of what is behind the cause. -/
def sources : Cause → List String
  | .parse e => e.sources
  | .other _ sources => sources
  | _ => []

def status? : Cause → Option StatusError
  | .status e => some e
  | _ => none

def isParse : Cause → Bool
  | .parse _ => true
  | _ => false

end Cause

structure Failure where
  cause : Cause
  /-- The explanations that the cause is wrapped in, the outermost first. -/
  contexts : List Cause

namespace Failure

def ofCause (cause : Cause) : Failure :=
  ⟨cause, []⟩

def ofMessage (text : String) : Failure :=
  .ofCause (.message text)

/-- Wrap an error in an explanation. -/
def wrap (f : Failure) (context : String) : Failure :=
  { f with contexts := .message context :: f.contexts }

/-- The explanations and the cause, from the outside to the bottom. -/
def layers (f : Failure) : List Cause :=
  f.contexts ++ [f.cause]

/-- All messages from the outermost explanation to what is behind the cause. -/
def chain (f : Failure) : List String :=
  f.layers.map Cause.text ++ f.cause.sources

/-- The outermost message. -/
def message (f : Failure) : String :=
  (f.contexts.headD f.cause).text

/-- All messages in one line. -/
def text (f : Failure) : String :=
  ": ".intercalate f.chain

/--
The response that shows an error. An error with a status keeps it, whatever it is wrapped in; parameters that
cannot be populated are the fault of the request; everything else is one of the server.
-/
def response (f : Failure) : Http.Response :=
  match f.layers.findSome? Cause.status? with
  | some e =>
    match e.payload with
    | some payload => .json e.status payload
    | none => .failure e.status e.message
  | none =>
    if f.layers.any Cause.isParse then .failure 400 f.text
    else .failure 500 f.text

end Failure

end Signpost.Endpoint
