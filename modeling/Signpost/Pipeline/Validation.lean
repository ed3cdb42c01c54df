import Signpost.Pipeline.Hooks

/-!
This module contains the rules that the fields of a parameter have to keep, and the hook that checks them.
-/

namespace Signpost.Pipeline

open Endpoint
open Binding (Datum)

/-- What is asked of a value. -/
inductive Demand where
  /-- A text with a number of characters within these bounds. -/
  | length (min max : Option Nat)
  /-- An integer within these bounds. -/
  | range (min max : Option Int)
  /-- A text in which a pattern occurs. -/
  | contains (pattern : String)

namespace Demand

/-- The name under which a failure is reported that has no message of its own. -/
def code : Demand → String
  | .length .. => "length"
  | .range .. => "range"
  | .contains _ => "contains"

/-- Whether a value is as demanded. A demand on another sort of value asks nothing. -/
def holds : Demand → Datum → Bool
  | .length min max, .text s => min.all (· ≤ s.length) && max.all (s.length ≤ ·)
  | .range min max, .int i => min.all (· ≤ i) && max.all (i ≤ ·)
  | .contains pattern, .text s => Text.occursIn pattern.toList s.toList
  | _, _ => true

end Demand

/-- A demand on a field, and what is said if it is not kept. -/
structure Rule where
  field : String
  demand : Demand
  message : Option String

/-- A field and what is wrong with it. -/
structure FieldError where
  field : String
  message : String
  deriving DecidableEq

def Rule.check? (rule : Rule) (value : Datum) : Option FieldError :=
  match value.field? rule.field with
  | some d => if rule.demand.holds d then none else some ⟨rule.field, rule.message.getD rule.demand.code⟩
  | none => none

/-- The rules that are not kept, ordered by their fields. Rules on one field stay in their order. -/
def brokenRules (rules : List Rule) (value : Datum) : List FieldError :=
  (rules.filterMap (·.check? value)).mergeSort fun a b => decide (a.field ≤ b.field)

/-- What the response says about broken rules. -/
def validationPayload (errors : List FieldError) : Json :=
  .ofFields
    [("code", .ofNat 400), ("message", .text "bad request"),
      ("data", .array (errors.map fun e =>
        .ofFields [("field", .text e.field), ("message", .text e.message)]))]

/-- A hook that refuses parameters of a type that do not keep the rules. -/
def validate (type : String) (rules : List Rule) : ParamHook σ :=
  .only type fun value =>
    match brokenRules rules value with
    | [] => return
    | errors => throw (.ofCause (.status ⟨400, "bad request", some (validationPayload errors)⟩))

end Signpost.Pipeline
