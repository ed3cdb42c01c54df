import Signpost.Pipeline.Duration
import Signpost.Pipeline.Record
import Signpost.Pipeline.Registry

/-!
This module contains the way of a request through the pipeline: its route is found, the hooks and the handler
run in a fresh context, and what they give back becomes a response.
-/

namespace Signpost.Pipeline

open Endpoint
open Binding (Datum)
open Http (Request Response)
open Route (Table)

/-- Why a request left the pipeline early. -/
inductive AbortReason where
  | notFound
  | preHook
  | population
  | paramHook
  | invocation
  deriving DecidableEq

/-- How a request left the pipeline. -/
inductive Ending where
  | rendered
  | aborted (reason : AbortReason)
  deriving DecidableEq

def AbortReason.describe : AbortReason → String
  | .notFound => "NotFound"
  | .preHook => "PreExecuteHook"
  | .population => "ParamsParse"
  | .paramHook => "PostParseHook"
  | .invocation => "Invocation"

def Ending.describe : Ending → String
  | .rendered => "ResultRendered"
  | .aborted reason => "Aborted(" ++ reason.describe ++ ")"

/-- The response that shows data. Nil and null leave it empty. -/
def dataResponse : Option Json → Response
  | none | some .null => .emptySuccess
  | some value => .success value

/-- The last error and the last data among returned values. -/
def lastOfKinds (values : List ReturnValue) : Option Failure × Option Json :=
  values.foldl
    (fun (error, data) value =>
      match value with
      | .error e => (e, data)
      | .data d => (error, d))
    (none, none)

/--
Render returned values. A present error wins. Only data that comes before its error is passed through the result
hooks.
-/
def render (hooks : Hooks σ) (shape : ReturnShape) (values : List ReturnValue) : Code σ Response :=
  match shape, lastOfKinds values with
  | .none, _ => return .emptySuccess
  | _, (some e, _) => return e.response
  | .dataError, (none, some data) => do
    if hooks.hasResult then
      match ← (hooks.runResult data).run with
      | .ok data => return dataResponse (some data)
      | .error e => return e.response
    else
      return dataResponse (some data)
  | _, (none, data) => return dataResponse data

/-- Populate the data parameter, if there is one. The name of its type is kept beside it. -/
def populateParam (shape : ParamShape) (request : Request) (args : List String) :
    Except Binding.ParseError (Option (String × Datum)) :=
  match shape.dataType? with
  | some t => (t.populate request args).map fun d => some (t.fullName, d)
  | none => .ok none

/-- The arguments for declared parameters. The data is handed over once. -/
def arguments : List ParamKind → Option (String × Datum) → List Argument
  | [], _ => []
  | .context :: rest, data => .context :: arguments rest data
  | .data _ :: rest, some (type, value) => .data type value :: arguments rest none
  | .data _ :: rest, none => arguments rest none

/-- Populate the data parameter and show it to the hooks. -/
def prepare (record : Record σ) (args : List String) :
    Code (Scope σ) (Except (Response × AbortReason) (Option (String × Datum))) := do
  let request := (← Code.context).request
  match populateParam record.convention.params request args with
  | .error e => return .error (.failure 400 e.message, .population)
  | .ok none => return .ok none
  | .ok (some (type, value)) =>
    match ← Code.inScope (record.hooks.runParam type value).run with
    | .error e => return .error (e.response, .paramHook)
    | .ok () => return .ok (some (type, value))

/-- Call the handler and render what it gives back. -/
def invoke (record : Record σ) (data : Option (String × Datum)) : Code (Scope σ) (Response × Ending) := do
  match ← record.call (arguments record.signature.params data) with
  | .error e => return (.failure 500 e.message, .aborted .invocation)
  | .ok values =>
    return (← Code.inScope (render record.hooks record.convention.returns values), .rendered)

/-- Take a matched request through hooks, population and the handler. -/
def drive (record : Record σ) (args : List String) : Code (Scope σ) (Response × Ending) := do
  match ← record.hooks.runPre.run with
  | .error e => return (e.response, .aborted .preHook)
  | .ok () =>
    match ← prepare record args with
    | .error (response, reason) => return (response, .aborted reason)
    | .ok data => invoke record data

/-- What dispatching needs to know. -/
structure Dispatcher (σ : Type) where
  table : Table (Record σ)
  /-- Code that runs in every fresh context. -/
  contextInit : List (Code (Scope σ) Unit)
  timeout : Option Duration

namespace Dispatcher

/-- A dispatcher without code for fresh contexts and without a timeout. -/
def ofTable (table : Table (Record σ)) : Dispatcher σ :=
  ⟨table, [], none⟩

/-- Take a matched request through the pipeline, and give the response the headers that were set on the way. -/
def runMatch (d : Dispatcher σ) (fresh : RequestId) (found : Route.Match (Record σ)) (request : Request) :
    Code σ (Response × Ending) := do
  let context := (Context.ofRequest fresh request).withDeadline (d.timeout.map (·.nanos))
  let ((response, ending), context) ← Code.withContext context do
    d.contextInit.forM id
    drive found.value found.args
  return (response.mergeHeaders context.headers, ending)

/-- Dispatch a request. Every response names the server. -/
def dispatchWithEnding (d : Dispatcher σ) (fresh : RequestId) (request : Request) :
    Code σ (Response × Ending) := do
  let (response, ending) ←
    match d.table.match? request.method.token request.path with
    | some found => d.runMatch fresh found request
    | none => pure (.notFound, .aborted .notFound)
  return (response.withServer, ending)

def dispatch (d : Dispatcher σ) (fresh : RequestId) (request : Request) : Code σ Response := do
  return (← d.dispatchWithEnding fresh request).1

/-- The dispatcher as it is shown to a developer. -/
def describe (d : Dispatcher σ) : String :=
  "Dispatcher \x7b routes: " ++ toString d.table.size ++ ", context_init_hooks: "
    ++ toString d.contextInit.length ++ ", request_timeout: "
    ++ d.timeout.elim "None" (fun t => "Some(" ++ t.describe ++ ")") ++ " \x7d"

end Dispatcher

end Signpost.Pipeline
