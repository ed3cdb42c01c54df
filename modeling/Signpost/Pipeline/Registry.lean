import Signpost.Pipeline.Record
import Signpost.Route.Name

/-!
This module contains the registration of controllers in a table of routes. An endpoint that cannot be
registered is passed over and reported.
-/

namespace Signpost.Pipeline

open Endpoint
open Route (Table)

/-- Endpoints that belong together, and the hooks that they share. -/
structure Controller (σ : Type) where
  offers : List (Offer σ)
  hooks : Hooks σ

/-- Why an endpoint is not registered. -/
inductive RegistrationError where
  /-- The name says that it is a hook. -/
  | hookName (name : String)
  | naming (e : Route.NameError)
  | signature (name : String) (e : SignatureError)
  | route (e : Route.InvalidKey)
  deriving DecidableEq

namespace RegistrationError

def message : RegistrationError → String
  | .hookName name => name ++ " is a hook, not a route"
  | .naming e => "naming: " ++ e.message
  | .signature name e => "signature of " ++ name ++ ": " ++ e.message
  | .route e => "router: " ++ e.message

def sources : RegistrationError → List String
  | .hookName _ => []
  | .naming e => [e.message]
  | .signature _ e => [e.message]
  | .route e => [e.message]

end RegistrationError

/-- What became of the endpoints of a controller. -/
structure Report where
  /-- The keys of the registered endpoints, in order. -/
  registered : List String
  /-- The names of the endpoints that were passed over, in order, with the reasons. -/
  skipped : List (String × RegistrationError)

def Report.isComplete (r : Report) : Bool :=
  r.skipped.isEmpty

/-- How endpoints are registered. -/
structure Registry (σ : Type) where
  /-- The key of an endpoint without a written route. -/
  naming : String → Except Route.NameError String
  /-- Hooks that run after those of the controller. -/
  hooks : Hooks σ

namespace Registry

/-- Names are in camel case with the usual marker. -/
def ofWildcard (wildcard : String) : Registry σ :=
  ⟨(Route.Naming.mk Route.Naming.defaultMarker wildcard).key, .empty⟩

def withNaming (r : Registry σ) (naming : Route.Naming) : Registry σ :=
  { r with naming := naming.key }

def withHooks (r : Registry σ) (hooks : Hooks σ) : Registry σ :=
  { r with hooks := r.hooks.append hooks }

/-- The word in a name that says that it is a hook. -/
def hookWord : String := "Hook"

/-- The key of an endpoint. -/
def key (r : Registry σ) (wildcard : String) (offer : Offer σ) : Except RegistrationError String :=
  if Text.occursIn hookWord.toList offer.name.toList then .error (.hookName offer.name)
  else
    match offer.route with
    | some route => .ok (Route.routeKey route.method.token route.path wildcard)
    | none => (r.naming offer.name).mapError .naming

/-- Register an endpoint with hooks. Its key is given back. -/
def registerOffer (r : Registry σ) (table : Table (Record σ)) (offer : Offer σ) (hooks : Hooks σ) :
    Except RegistrationError (String × Table (Record σ)) := do
  let key ← r.key table.wildcard offer
  let record ← (offer.record hooks).mapError (.signature offer.name)
  let (_, table) ← (table.add key record).mapError .route
  return (key, table)

/-- Register endpoints with hooks, one after the other. -/
def registerAll (r : Registry σ) (hooks : Hooks σ) :
    List (Offer σ) → Table (Record σ) → Report × Table (Record σ)
  | [], table => (⟨[], []⟩, table)
  | offer :: offers, table =>
    match r.registerOffer table offer hooks with
    | .ok (key, table) =>
      let (report, table) := r.registerAll hooks offers table
      ({ report with registered := key :: report.registered }, table)
    | .error e =>
      let (report, table) := r.registerAll hooks offers table
      ({ report with skipped := (offer.name, e) :: report.skipped }, table)

/-- Register a controller. Its own hooks come before those of the registry. -/
def register (r : Registry σ) (table : Table (Record σ)) (controller : Controller σ) :
    Report × Table (Record σ) :=
  r.registerAll (controller.hooks.append r.hooks) controller.offers table

/-- A table of routes as it is shown to a developer. -/
def describeRouter (table : Table α) : String :=
  "Router \x7b trie: " ++ table.describe ++ " \x7d"

/-- The registry as it is shown to a developer. -/
def describe (r : Registry σ) (table : Table (Record σ)) : String :=
  "Registry \x7b router: " ++ describeRouter table ++ ", global_hooks: " ++ r.hooks.describe ++ ", .. \x7d"

end Registry

end Signpost.Pipeline
