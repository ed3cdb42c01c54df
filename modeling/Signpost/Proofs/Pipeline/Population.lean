import Signpost.Proofs.Binding.Carried
import Signpost.Proofs.Pipeline.Invocation
import Signpost.Proofs.Route.Written
import Signpost.Proofs.Text.Utf8

/-!
This module contains how an error of the population is shown. A request whose parameter cannot be populated is told
so once, but the same error in the hands of a hook or a handler tells what is behind it a second time.
-/

namespace Signpost

namespace Binding

/-- Behind a value of the wrong type there is nothing that could be told twice. -/
theorem ParseError.sources_eq_nil_iff {e : ParseError} :
    e.sources = [] ↔ ∃ expected, e = .typeMismatch expected := by
  cases e <;> simp [sources]

end Binding

namespace Endpoint

open Binding (ParseError)

theorem Failure.response_ofCause_parse (e : ParseError) :
    (ofCause (.parse e)).response = .failure 400 (": ".intercalate (e.message :: e.sources)) := by
  rfl

end Endpoint

namespace Pipeline

open Binding (ParseError)
open Endpoint
open Http (Request Response)

theorem populateParam_of_dataType? {shape : ParamShape} (h : shape.dataType? = some t) (request : Request)
    (args : List String) :
    populateParam shape request args = (t.populate request args).map fun d => some (t.fullName, d) := by
  unfold populateParam
  rw [h]

section
variable {record : Record σ} {args : List String} {s s' : Scope σ} {response : Response}

theorem prepare_eq_population_iff :
    prepare record args s = (.ok (.error (response, .population)), s') ↔
      s' = s ∧ ∃ e, populateParam record.convention.params s.context.request args = .error e ∧
        response = .failure 400 e.message := by
  unfold prepare
  rw [Code.bind_of_ok (Code.context_eq s)]
  cases hparam : populateParam record.convention.params s.context.request args with
  | error e =>
    constructor
    . intro h
      cases h
      exact ⟨rfl, e, rfl, rfl⟩
    . rintro ⟨rfl, e, heq, rfl⟩
      cases heq
      rfl
  | ok data =>
    constructor
    . intro h
      cases data with
      | none => cases h
      | some data =>
        -- only the hooks can refuse what was populated, and they give another reason
        obtain ⟨verdict, s₁, _, h⟩ := Code.exists_of_bind h
        cases verdict <;> cases h
    . rintro ⟨_, e, heq, _⟩
      cases heq

/-- Only the population makes a request leave at the population, and the request leaves with its error. -/
theorem drive_eq_population_iff :
    drive record args s = (.ok (response, .aborted .population), s') ↔
      record.hooks.runPre.run s = (.ok (.ok ()), s') ∧
        ∃ e, populateParam record.convention.params s'.context.request args = .error e ∧
          response = .failure 400 e.message := by
  constructor
  . intro h
    obtain ⟨passed, s₁, hpre, h⟩ := Code.exists_of_bind h
    cases passed with
    | error e => cases h
    | ok _ =>
      obtain ⟨prepared, s₂, hprepare, h⟩ := Code.exists_of_bind h
      cases prepared with
      | error early =>
        obtain ⟨early, reason⟩ := early
        cases h
        obtain ⟨rfl, hpopulate⟩ := prepare_eq_population_iff.1 hprepare
        exact ⟨hpre, hpopulate⟩
      | ok data =>
        obtain ⟨called, s₃, _, h⟩ := Code.exists_of_bind h
        cases called with
        | error e => cases h
        | ok values =>
          obtain ⟨rendered, s₄, _, h⟩ := Code.exists_of_bind h
          cases h
  . rintro ⟨hpre, hpopulate⟩
    have hprepare := prepare_eq_population_iff.2 ⟨rfl, hpopulate⟩
    exact (Code.bind_of_ok hpre).trans (Code.bind_of_ok hprepare)

end

namespace Dispatcher

variable {d : Dispatcher σ} {fresh : RequestId} {request : Request} {found : Route.Match (Record σ)}
  {world world' : σ} {response : Response}

/-- The code that runs for a matched request before its parameter is populated. -/
def opening (d : Dispatcher σ) (record : Record σ) : Code (Scope σ) (Except Failure Unit) := do
  d.contextInit.forM id
  record.hooks.runPre.run

theorem dispatchWithEnding_eq_population_iff
    (hfound : d.table.match? request.method.token request.path = some found) :
    d.dispatchWithEnding fresh request world = (.ok (response, .aborted .population), world') ↔
      ∃ s e, d.opening found.value (d.scope fresh request world) = (.ok (.ok ()), s) ∧
        populateParam found.value.convention.params s.context.request found.args = .error e ∧
        response = ((Response.failure 400 e.message).mergeHeaders s.context.headers).withServer ∧
        world' = s.world := by
  rw [dispatchWithEnding_eq_ok_iff hfound]
  constructor
  . rintro ⟨driven, s, hcode, rfl, rfl⟩
    obtain ⟨_, s₁, hinit, hdrive⟩ := Code.exists_of_bind hcode
    obtain ⟨hpre, e, hpopulate, rfl⟩ := drive_eq_population_iff.1 hdrive
    exact ⟨s, e, (Code.bind_of_ok hinit).trans hpre, hpopulate, rfl, rfl⟩
  . rintro ⟨s, e, hopening, hpopulate, rfl, rfl⟩
    obtain ⟨_, s₁, hinit, hpre⟩ := Code.exists_of_bind hopening
    have hdrive := drive_eq_population_iff.2 ⟨hpre, e, hpopulate, rfl⟩
    exact ⟨_, s, (Code.bind_of_ok hinit).trans hdrive, rfl, rfl⟩

/--
How an error of the population is shown. The request that it ends gets it with the status 400 and its message alone.
As the error of a hook or a handler it has the same status, but its message is followed by what is behind it, which
the message has told already. Both are the same only if there is nothing behind it.
-/
theorem response_of_population (hfound : d.table.match? request.method.token request.path = some found)
    {s : Scope σ} {e : ParseError} (hopening : d.opening found.value (d.scope fresh request world) = (.ok (.ok ()), s))
    (hpopulate : populateParam found.value.convention.params s.context.request found.args = .error e) :
    let returned := (Failure.ofCause (.parse e)).response
    ∃ shown, d.dispatchWithEnding fresh request world = (.ok (shown, .aborted .population), s.world) ∧
      shown.status = 400 ∧ shown.body = Text.utf8 e.message ∧
      returned.status = 400 ∧ returned.body = Text.utf8 (": ".intercalate (e.message :: e.sources)) ∧
      (returned.body = shown.body ↔ ∃ expected, e = .typeMismatch expected) := by
  intro returned
  have hreturned : returned = .failure 400 (": ".intercalate (e.message :: e.sources)) :=
    Failure.response_ofCause_parse e
  have hdispatch := (dispatchWithEnding_eq_population_iff hfound).2 ⟨s, e, hopening, hpopulate, rfl, rfl⟩
  rw [hreturned, ← ParseError.sources_eq_nil_iff]
  exact ⟨_, hdispatch, rfl, rfl, rfl, rfl, Text.utf8_intercalate_cons_eq_iff (by decide)⟩

/-- A limit is a number without a sign. -/
def limit : Binding.Scalar := .int ⟨false, .w32⟩

/-- A route whose handler takes a limit. -/
def limited : Record Unit where
  name := "GetItems"
  call _ := return .ok []
  signature := ⟨[.data (.value (.scalar limit))], []⟩
  convention := ⟨.data (.value (.scalar limit)), .none⟩
  hooks := .empty

/-- What is wrong with a limit that is no number. -/
def badLimit : ParseError :=
  .field "limit" ⟨"x", limit.name⟩

theorem bind_limit (current : Binding.Datum) :
    (Binding.ParamType.value (.scalar limit)).bind (.ofPairs [("limit", "x")]) current = .error badLimit := by
  have hread : limit.read? "x" = none := by decide +kernel
  change ((Binding.ValueType.scalar limit).ofValues ["x"]).mapError (ParseError.field "limit") = _
  rw [Binding.ValueType.ofValues, List.headD_cons, hread]
  rfl

theorem response_of_population_limited :
    let d : Dispatcher Unit := .ofTable (.single "*" (.fixed "get/items") limited)
    let returned := (Failure.ofCause (.parse badLimit)).response
    let request := Request.ofUri .get "/items?limit=x"
    ∃ shown, d.dispatchWithEnding ⟨0⟩ request () = (.ok (shown, .aborted .population), ()) ∧
      shown.body = Text.utf8 "field `limit`: cannot parse \"x\" as u32" ∧ returned.body ≠ shown.body := by
  intro d returned request
  have hfound : d.table.match? request.method.token request.path = some ⟨⟨limited, []⟩, "get/items"⟩ := by
    unfold Route.Table.match?
    rw [show Route.requestKey request.method.token request.path = "get/items" by decide +kernel]
    rfl
  have hopening : d.opening limited (d.scope ⟨0⟩ request ()) = (.ok (.ok ()), d.scope ⟨0⟩ request ()) := rfl
  have hcarries : Binding.Carries [("limit", "x")] request := .query (Request.kind_ofUri _ _) (by decide +kernel)
  have hpopulate : populateParam limited.convention.params request [] = .error badLimit := by
    have heq := hcarries.populate_eq (.value (.scalar limit)) []
    rw [if_neg (by decide), bind_limit] at heq
    have hparam := populateParam_of_dataType? (show limited.convention.params.dataType? = _ from rfl) request []
    rw [heq] at hparam
    exact hparam
  obtain ⟨shown, hdispatch, _, hbody, _, _, hsame⟩ := response_of_population hfound hopening hpopulate
  refine ⟨shown, hdispatch, ?_, ?_⟩
  . rw [hbody]
    decide +kernel
  . rw [ne_eq, hsame]
    rintro ⟨expected, heq⟩
    cases heq

/-- The error of the population tells twice what is behind it if a hook or a handler gives it back. -/
theorem body_badLimit_twice :
    (Failure.ofCause (.parse badLimit)).response.body
      = Text.utf8 "field `limit`: cannot parse \"x\" as u32: cannot parse \"x\" as u32" ∧
      (Failure.ofCause (.parse badLimit)).response.body ≠ Text.utf8 badLimit.message := by
  decide +kernel

end Dispatcher

end Pipeline

end Signpost
