import Signpost.Endpoint.Callable

/-!
This module contains the hooks that run around a handler: before anything is parsed, after the parameter is
populated, and on the data of a result.
-/

namespace Signpost.Pipeline

open Endpoint
open Binding (Datum)

/-- Code that can fail with an error. -/
abbrev Attempt (σ : Type) := ExceptT Failure (Code σ)

/-- Code that runs before the parameter is populated. -/
abbrev PreHook (σ : Type) := Attempt (Scope σ) Unit

/-- Code that looks at the populated parameter, given the name of its type. -/
abbrev ParamHook (σ : Type) := (type : String) → Datum → Attempt σ Unit

/-- Code that changes the data of a result. -/
abbrev ResultHook (σ : Type) := Json → Attempt σ Json

/-- Hooks of the three kinds, each in the order in which they run. -/
structure Hooks (σ : Type) where
  pre : List (PreHook σ)
  param : List (ParamHook σ)
  result : List (ResultHook σ)

namespace Hooks

def empty : Hooks σ :=
  ⟨[], [], []⟩

/-- The hooks of one set and then those of the other. -/
def append (h k : Hooks σ) : Hooks σ :=
  ⟨h.pre ++ k.pre, h.param ++ k.param, h.result ++ k.result⟩

def isEmpty (h : Hooks σ) : Bool :=
  h.pre.isEmpty && h.param.isEmpty && h.result.isEmpty

def hasResult (h : Hooks σ) : Bool :=
  !h.result.isEmpty

/-- Run the hooks up to the first that fails. -/
def runPre (h : Hooks σ) : Attempt (Scope σ) Unit :=
  h.pre.forM id

/-- Show the parameter to the hooks up to the first that fails. -/
def runParam (h : Hooks σ) (type : String) (value : Datum) : Attempt σ Unit :=
  h.param.forM fun hook => hook type value

/-- Pass the data through the hooks up to the first that fails. -/
def runResult (h : Hooks σ) (data : Json) : Attempt σ Json :=
  h.result.foldlM (fun data hook => hook data) data

/-- The hooks as they are shown to a developer. -/
def describe (h : Hooks σ) : String :=
  "HookSet \x7b pre_execute: " ++ toString h.pre.length ++ ", post_parse: " ++ toString h.param.length
    ++ ", post_execute: " ++ toString h.result.length ++ " \x7d"

end Hooks

/-- A hook for parameters of one type. Others pass. -/
def ParamHook.only (name : String) (hook : Datum → Attempt σ Unit) : ParamHook σ := fun type value =>
  if type = name then hook value else return

/-- Write the data as a JSON text. -/
def ResultHook.asText : ResultHook σ := fun data =>
  return .text data.compact

end Signpost.Pipeline
