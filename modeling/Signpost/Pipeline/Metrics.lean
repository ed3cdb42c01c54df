import Signpost.Pipeline.Service

/-!
This module contains the counting of requests and responses.
-/

namespace Signpost.Pipeline

open Endpoint (Part)

/-- What was counted. -/
structure Metrics where
  /-- How many requests were seen. -/
  requests : Nat
  /-- The latencies of all responses in nanoseconds, added up in 64 bits. -/
  latency : UInt64
  /-- How many responses were errors of the server. -/
  serverErrors : Nat
  /-- How many responses had each status. -/
  statuses : List (Nat × Nat)
  deriving DecidableEq, Inhabited

/-- Whether a status says that the server is at fault. -/
def isServerError (status : Nat) : Bool :=
  500 ≤ status && status < 600

/-- Count one more under a key. -/
def countUp (key : Nat) : List (Nat × Nat) → List (Nat × Nat)
  | [] => [(key, 1)]
  | (k, n) :: rest => if k = key then (k, n + 1) :: rest else (k, n) :: countUp key rest

/-- All counts together. -/
def total (counts : List (Nat × Nat)) : Nat :=
  counts.foldr (fun entry sum => entry.2 + sum) 0

namespace Metrics

def zero : Metrics :=
  ⟨0, 0, 0, []⟩

/-- How many responses had a status. -/
def statusCount (m : Metrics) (status : Nat) : Nat :=
  (m.statuses.lookup status).getD 0

/-- How many responses were seen. -/
def completed (m : Metrics) : Nat :=
  total m.statuses

/-- The mean of all latencies, and zero before the first response. -/
def averageLatency (m : Metrics) : Duration :=
  ⟨m.latency.toNat / m.completed⟩

def countRequest (m : Metrics) : Metrics :=
  { m with requests := m.requests + 1 }

def countResponse (m : Metrics) (status : Nat) (latency : Duration) : Metrics where
  requests := m.requests
  latency := m.latency + .ofNat latency.nanos
  serverErrors := if isServerError status then m.serverErrors + 1 else m.serverErrors
  statuses := countUp status m.statuses

theorem lookup_countUp (key other : Nat) (counts : List (Nat × Nat)) :
    ((countUp key counts).lookup other).getD 0
      = (counts.lookup other).getD 0 + if other = key then 1 else 0 := by
  induction counts with
  | nil => by_cases h : other = key <;> simp [countUp, List.lookup_cons, beq_false_of_ne, h]
  | cons entry rest ih =>
    obtain ⟨k, n⟩ := entry
    by_cases hk : k = key
    . subst hk
      by_cases h : other = k
      . simp [countUp, h]
      . simp [countUp, List.lookup_cons, beq_false_of_ne h, h]
    . by_cases h : other = k
      . subst h
        simp [countUp, hk]
      . simp [countUp, hk, List.lookup_cons, beq_false_of_ne h, ih]

theorem total_countUp (key : Nat) (counts : List (Nat × Nat)) :
    total (countUp key counts) = total counts + 1 := by
  induction counts with
  | nil => rfl
  | cons entry rest ih =>
    obtain ⟨k, n⟩ := entry
    unfold total at ih
    by_cases hk : k = key <;> simp [countUp, total, hk, ih] <;> omega

theorem statusCount_countResponse (m : Metrics) (status other : Nat) (latency : Duration) :
    (m.countResponse status latency).statusCount other
      = m.statusCount other + if other = status then 1 else 0 :=
  lookup_countUp status other m.statuses

theorem completed_countResponse (m : Metrics) (status : Nat) (latency : Duration) :
    (m.countResponse status latency).completed = m.completed + 1 :=
  total_countUp status m.statuses

/-- The middleware that counts. -/
def middleware (part : Part σ Metrics) : Middleware σ where
  before _ := do
    modify fun s => part.set (part.get s).countRequest s
    return none
  after _ latency response := do
    modify fun s => part.set ((part.get s).countResponse response.status latency) s
    return response

end Metrics

end Signpost.Pipeline
