import Signpost.Pipeline.Hooks
import Signpost.Route.Key

/-!
This module contains endpoints, which controllers offer, and the records that are stored for them in the table
of routes.
-/

namespace Signpost.Pipeline

open Endpoint

/-- A route that is written out instead of derived from a name. -/
structure WrittenRoute where
  method : Http.Method
  path : String
  deriving DecidableEq

def WrittenRoute.describe (r : WrittenRoute) : String :=
  "RouteDescriptor \x7b method: " ++ r.method.token ++ ", path: " ++ Text.quoted r.path ++ " \x7d"

/-- A callable that a controller offers. -/
structure Offer (σ : Type) where
  name : String
  route : Option WrittenRoute
  signature : Signature
  call : Callable σ

/-- What is stored for a registered endpoint. -/
structure Record (σ : Type) where
  name : String
  call : Callable σ
  signature : Signature
  convention : Convention
  hooks : Hooks σ

namespace Offer

/-- A handler whose route is derived from its name. -/
def named (name : String) (h : Handler σ) : Offer σ :=
  ⟨name, none, h.signature, h.call⟩

/-- A handler with a written route. -/
def routed (method : Http.Method) (path : String) (h : Handler σ) : Offer σ :=
  ⟨method.token ++ " " ++ path, some ⟨method, path⟩, h.signature, h.call⟩

/-- A callable with a declared signature, whose route is derived from its name. -/
def declared (name : String) (signature : Signature) (call : Callable σ) : Offer σ :=
  ⟨name, none, signature, call⟩

def withName (o : Offer σ) (name : String) : Offer σ :=
  { o with name }

/-- The record of an endpoint, if its signature is supported. -/
def record (o : Offer σ) (hooks : Hooks σ) : Except SignatureError (Record σ) := do
  return ⟨o.name, o.call, o.signature, ← o.signature.classify, hooks⟩

/-- The endpoint as it is shown to a developer. -/
def describe (o : Offer σ) : String :=
  let route := o.route.elim "None" fun r => "Some(" ++ r.describe ++ ")"
  "Endpoint \x7b name: " ++ Text.quoted o.name ++ ", route: " ++ route ++ ", signature: "
    ++ o.signature.describe ++ ", .. \x7d"

end Offer

/-- The record as it is shown to a developer. -/
def Record.describe (r : Record σ) : String :=
  "HandlerRecord \x7b name: " ++ Text.quoted r.name ++ ", convention: "
    ++ Text.quoted r.convention.text ++ ", hooks: " ++ r.hooks.describe ++ " \x7d"

end Signpost.Pipeline
