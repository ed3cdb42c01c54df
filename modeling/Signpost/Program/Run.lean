import Signpost.Demo
import Signpost.Pipeline.Metrics
import Signpost.Pipeline.Tracing
import Signpost.Program.CommandLine

/-!
This module contains what the commands do: one lists the routes of the demo, the other serves it.
-/

namespace Signpost.Program

open Pipeline
open Route (Table)

/-- What the program keeps while it serves. -/
structure State where
  served : Nat
  metrics : Metrics
  /-- The events to be logged, the latest first. -/
  events : List Event

namespace State

def initial : State := ⟨0, .zero, []⟩

def servedPart : Endpoint.Part State Nat :=
  ⟨(·.served), fun served s => { s with served }⟩

def metricsPart : Endpoint.Part State Metrics :=
  ⟨(·.metrics), fun metrics s => { s with metrics }⟩

def log (event : Event) : StateM State Unit :=
  modify fun s => { s with events := event :: s.events }

end State

/-- The routes of the demo. -/
def demoTable (settings : Settings) : Table (Record State) :=
  let registry : Registry State :=
    (Registry.ofWildcard settings.wildcard).withNaming ⟨settings.marker, settings.wildcard⟩
  (registry.register (.empty settings.wildcard) (Demo.controller State.servedPart)).2

/-- The service of the demo. A request is late after so many milliseconds. -/
def demoService (settings : Settings) (timeout : Option Nat) : Service State where
  dispatcher := { Dispatcher.ofTable (demoTable settings) with timeout := timeout.map Duration.ofMillis }
  middlewares := [tracing slowThreshold State.log, Metrics.middleware State.metricsPart]

/-! ## Listing -/

def keyWidth : Nat := 32

def padRight (width : Nat) (s : String) : String :=
  s ++ String.ofList (List.replicate (width - s.length) ' ')

/-- A route in the listing: its key and the name of its handler. -/
def routeLine (key name : String) : String :=
  padRight keyWidth key ++ " " ++ name ++ "\n"

def listing (table : Table (Record σ)) : String :=
  String.join (table.routes.map fun (key, record) => routeLine key record.name)

/-! ## Listening -/

/-- Why a text is no address. -/
inductive AddressError where
  | noPort
  | badPort
  deriving DecidableEq

def AddressError.message : AddressError → String
  | .noPort => "invalid socket address"
  | .badPort => "invalid port value"

/-- A host and a port. -/
structure Address where
  host : String
  port : Nat
  deriving DecidableEq

/-- The address that a text spells. The port stands behind the last colon. -/
def Address.ofString (s : String) : Except AddressError Address :=
  match Text.splitOnce ':' (String.ofList s.toList.reverse) with
  | none => .error .noPort
  | some (port, host) =>
    match (Decimal.readNat? port.toList.reverse).filter (· < Nat.pow 2 16) with
    | none => .error .badPort
    | some port => .ok ⟨String.ofList host.toList.reverse, port⟩

/-- What a command comes to. -/
inductive Outcome where
  | print (text : String)
  | fail (message : String)
  | listen (address : Address) (service : Service State)

/-- The message about an address on which the service is not started. -/
def startFailure (address reason : String) : String :=
  "failed to start server on " ++ address ++ ": " ++ reason

/-- Run a command. -/
def Command.run (env : Environment) : Command → Outcome
  | .routes => .print (listing (demoTable (.ofEnvironment env)))
  | .serve address timeout =>
    let settings := Settings.ofEnvironment env
    let address := address.getD settings.address
    match Address.ofString address with
    | .error e => .fail (startFailure address e.message)
    | .ok parsed => .listen parsed (demoService settings timeout)

end Signpost.Program
