import Signpost.Pipeline.Registry
import Signpost.Pipeline.Validation

/-!
This module contains the controller that the program serves: it echoes what it is sent and counts the requests
that it has served.
-/

namespace Signpost.Demo

open Binding Endpoint Pipeline

/-- What to echo. -/
def echoParams : ParamType :=
  let u32 : IntType := ⟨false, .w32⟩
  .record ⟨"EchoParams", "jetrouter::echo::EchoParams", true⟩
    [⟨"name", .bound (.scalar .text) "name" false, none, true, .text ""⟩,
      ⟨"age", .bound (.scalar (.int u32)) "age" false, none, true, .int 0⟩]

/-- Nothing but the segments that the route captures. -/
def userPath : ParamType :=
  .record ⟨"UserPath", "jetrouter::echo::UserPath", false⟩
    [⟨"args", .captures, none, true, .list []⟩]

def echoRules : List Rule :=
  [⟨"name", .length none (some 64), some "must be at most 64 characters"⟩,
    ⟨"age", .range none (some 150), some "must be at most 150"⟩]

/-- The text in a field. -/
def textOf (d : Datum) (name : String) : String :=
  match d.field? name with
  | some (.text s) => s
  | _ => ""

/-- The number in a field. -/
def intOf (d : Datum) (name : String) : Int :=
  match d.field? name with
  | some (.int i) => i
  | _ => 0

/-- The first of the captured segments. -/
def firstArg (d : Datum) : String :=
  match d.field? "args" with
  | some (.list (.text s :: _)) => s
  | _ => ""

section
variable (served : Part σ Nat)

/-- Count a request. -/
def count : Code σ Unit :=
  served.modify (· + 1)

def getPing : Handler σ where
  params := .none
  form := .data
  body := do
    count served
    return .ok (.text "pong")

/-- Give the parameters back, and say in a header whether they have a name. -/
def getEcho : Handler σ where
  params := .contextData echoParams
  form := .result
  body params := do
    (count served).inScope
    let named := if textOf params "name" = "" then "false" else "true"
    match ← Code.setHeader "x-echo-named" named with
    | .error e => return .error e
    | .ok () =>
      return .ok (.ok (.ofFields
        [("name", .text (textOf params "name")), ("age", .ofInt (intOf params "age"))]))

/-- Give the parameter back. -/
def postEcho : Handler σ where
  params := .data .json
  form := .data
  body param := do
    count served
    match param with
    | .json value => return .ok value
    | _ => return .ok .null

/-- Name the user in the path. -/
def getUserInfo : Handler σ where
  params := .data userPath
  form := .errorFirst
  body path := do
    count served
    let id := firstArg path
    if id = "" then
      return (some (.ofCause (.status ⟨400, "missing user id", none⟩)), none)
    else
      return (none, some (.ok (.ofFields [("id", .text id)])))

/-- Tell how many requests were served. This one does not count. -/
def getStats : Handler σ where
  params := .context
  form := .data
  body := do
    let scope ← get
    return .ok (.ofFields
      [("served", .ofNat (served.get scope.world)),
        ("request_id", .text scope.context.requestId.text)])

/-- The controller that counts in a part of the state. -/
def controller : Controller σ where
  offers :=
    [.named "GetPing" (getPing served), .named "GetEcho" (getEcho served),
      .named "PostEcho" (postEcho served), .named "GetUser_Info" (getUserInfo served),
      .named "GetStats" (getStats served)]
  hooks := ⟨[], [validate echoParams.fullName echoRules], []⟩

end

end Signpost.Demo
