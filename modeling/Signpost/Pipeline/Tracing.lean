import Signpost.Pipeline.Metrics

/-!
This module contains the events that report requests and their outcomes.
-/

namespace Signpost.Pipeline

open Http (Request Response)

/-- How much an event matters. -/
inductive EventLevel where
  | info
  | warn
  | error
  deriving DecidableEq

def EventLevel.describe : EventLevel → String
  | .info => "INFO"
  | .warn => "WARN"
  | .error => "ERROR"

/-- Something that happened, with what is known about it. -/
structure Event where
  level : EventLevel
  message : String
  fields : List (String × String)
  deriving DecidableEq

namespace Event

/-- A count as it stands in an event, in 64 bits. -/
def count (n : Nat) : String :=
  toString (n % Nat.pow 2 64)

/-- The fields that name a request. -/
def target (request : Request) : List (String × String) :=
  [("method", request.method.token), ("path", request.path)]

/-- A request arrived. -/
def received (request : Request) : Event where
  level := .info
  message := "Request received"
  fields :=
    target request ++ [("request_id", (request.header? Http.HeaderName.requestId.text).getD "")]

/-- A request was answered. An error of the server matters most, then a latency above the threshold. -/
def answered (threshold : Duration) (request : Request) (latency : Duration) (status : Nat) : Event :=
  let fields := target request ++ [("status", toString status), ("latency_ms", count latency.millis)]
  if isServerError status then
    ⟨.error, "Request failed", fields⟩
  else if threshold.nanos < latency.nanos then
    ⟨.warn, "Slow request", fields ++ [("threshold_ms", count threshold.millis)]⟩
  else
    ⟨.info, "Request completed", fields⟩

end Event

/-- The latency above which a request is slow. -/
def slowThreshold : Duration := .ofMillis 500

/-- The middleware that reports every request to a sink. -/
def tracing (threshold : Duration) (sink : Event → StateM σ Unit) : Middleware σ where
  before request := do
    sink (.received request)
    return none
  after request latency response := do
    sink (.answered threshold request latency response.status)
    return response

end Signpost.Pipeline
