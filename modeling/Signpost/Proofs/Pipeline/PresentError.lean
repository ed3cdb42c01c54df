import Signpost.Proofs.Pipeline.Population
import Signpost.Proofs.Pipeline.Rendering

/-!
This module contains what a dispatch makes of the value that a typed handler gives back. A present error in front of
data is shown as long as the data can be serialized: the data is written before the error is looked at, and data that
cannot be written ends the request at the invocation, whatever the error is.
-/

namespace Signpost

open Endpoint
open Http (Request Response)

/-! ## Errors in front of data -/

namespace Endpoint.ReturnForm

theorem returns_errorFirst_of_ok (e : Option Failure) {data : Option Serialized}
    (h : ∀ reason, data ≠ some (.error reason)) :
    ∃ written, returns .errorFirst (e, data) = .ok [.error e, .data written] := by
  cases data with
  | none => exact ⟨none, rfl⟩
  | some data =>
    cases data with
    | error reason => exact absurd rfl (h reason)
    | ok value => cases value <;> exact ⟨_, rfl⟩

theorem returns_errorFirst_of_error (e : Option Failure) (reason : String) :
    returns .errorFirst (e, some (.error reason)) = .error (.serialize reason) := by
  rfl

end Endpoint.ReturnForm

namespace Pipeline

theorem eq_errorData_of_toList {shape : ReturnShape} (h : shape.toList = ReturnForm.errorFirst.kinds) :
    shape = .errorData := by
  cases shape with
  | errorData => rfl
  | _ => cases h

/-! ## Values that handlers give back -/

/-- A request gets as far as the handler, which gives back a value and leaves the scope of the request behind. -/
inductive Dispatcher.Gives (d : Dispatcher σ) (fresh : RequestId) (request : Request) (world : σ)
    (found : Route.Match (Record σ)) (h : Handler σ) : h.form.Value → Scope σ → Prop
  | mk (opened : d.opening found.value (d.scope fresh request world) = (.ok (.ok ()), s₁))
    (prepared : prepare found.value found.args s₁ = (.ok (.ok data), s₂))
    (applied : h.params.apply h.body (arguments h.signature.params data) = .ok code)
    (gave : code s₂ = (.ok value, s)) : Gives d fresh request world found h value s

section
variable {d : Dispatcher σ} {fresh : RequestId} {request : Request} {world : σ} {found : Route.Match (Record σ)}
  {name : String} {route : Option WrittenRoute} {hooks : Hooks σ} {s s' : Scope σ}

theorem Dispatcher.Gives.exists_call {h : Handler σ} {value : h.form.Value}
    (hgives : d.Gives fresh request world found h value s) :
    ∃ s₁ s₂ data, d.opening found.value (d.scope fresh request world) = (.ok (.ok ()), s₁) ∧
      prepare found.value found.args s₁ = (.ok (.ok data), s₂) ∧
      h.call (arguments h.signature.params data) s₂ = (.ok (h.form.returns value), s) := by
  cases hgives with
  | mk opened prepared applied gave =>
    refine ⟨_, _, _, opened, prepared, ?_⟩
    unfold Handler.call
    rw [applied]
    exact Code.bind_of_ok gave

/-- What is dispatched is completed from the value that the handler gives back, in the scope that it leaves. -/
theorem Dispatcher.Gives.dispatch_eq {h : Handler σ} {value : h.form.Value}
    (hgives : d.Gives fresh request world found h value s)
    (hfound : d.table.match? request.method.token request.path = some found)
    (hrecord : (Offer.mk name route h.signature h.call).record hooks = .ok found.value)
    (hcomplete : found.value.complete (h.form.returns value) s = (.ok (response, ending), s')) :
    d.dispatchWithEnding fresh request world
      =
    (.ok ((response.mergeHeaders s'.context.headers).withServer, ending), s'.world) := by
  obtain ⟨convention, _, hvalue⟩ := Offer.exists_of_record hrecord
  obtain ⟨s₁, s₂, data, hopened, hprepared, hcalled⟩ := hgives.exists_call
  obtain ⟨_, s₀, hinit, hpre⟩ := Code.exists_of_bind hopened
  have hcall : found.value.call (arguments found.value.signature.params data) s₂
      = (.ok (h.form.returns value), s) := by
    rw [hvalue]
    exact hcalled
  have hinvoke : invoke found.value data s₂ = (.ok (response, ending), s') :=
    (Code.bind_of_ok hcall).trans hcomplete
  have hdrive : drive found.value found.args s₀ = (.ok (response, ending), s') :=
    (Code.bind_of_ok hpre).trans ((Code.bind_of_ok hprepared).trans hinvoke)
  rw [dispatchWithEnding_eq_ok_iff hfound]
  exact ⟨response, s', (Code.bind_of_ok hinit).trans hdrive, rfl, rfl⟩

/-- The values of an error in front of data are rendered as the error, and nothing else runs. -/
theorem complete_of_present_error {record : Record σ} (hreturns : record.convention.returns = .errorData) (e : Failure)
    (data : Option Json) (s : Scope σ) :
    record.complete (.ok [.error (some e), .data data]) s = (.ok (e.response, .rendered), s) := by
  have hrender : render record.hooks .errorData [.error (some e), .data data] = pure e.response :=
    (Returns.errorData (some e) data).render_of_error
  unfold Record.complete
  rw [hreturns]
  dsimp only
  rw [hrender]
  rfl

/--
A handler gives back a present error in front of data. The request ends with the response that shows the error exactly
if the data is absent or can be serialized, be it nil or not. Data that cannot be serialized ends the request at the
invocation, with what is wrong with the data and without a word of the error.
-/
theorem dispatchWithEnding_of_present_error {params : ParamShape} {body : params.Body σ (ReturnForm.Value .errorFirst)}
    {e : Failure} {data : Option Serialized}
    (hfound : d.table.match? request.method.token request.path = some found)
    (hrecord : (Offer.mk name route (Handler.mk params .errorFirst body).signature
      (Handler.mk params .errorFirst body).call).record hooks = .ok found.value)
    (hgives : d.Gives fresh request world found ⟨params, .errorFirst, body⟩ (some e, data) s) :
    let dispatched := d.dispatchWithEnding fresh request world
    let finish (response : Response) := (response.mergeHeaders s.context.headers).withServer
    (dispatched = (.ok (finish e.response, .rendered), s.world) ↔ ∀ reason, data ≠ some (.error reason)) ∧
      ∀ reason, data = some (.error reason) →
        dispatched
          = (.ok (finish (.failure 500 (InvokeError.serialize reason).message), .aborted .invocation), s.world) := by
  intro dispatched finish
  have hreturns : found.value.convention.returns = .errorData := by
    obtain ⟨convention, hclassify, hvalue⟩ := Offer.exists_of_record hrecord
    rw [hvalue]
    exact eq_errorData_of_toList (Signature.toList_of_classify hclassify).2
  have hunwritten : ∀ reason, data = some (.error reason) → dispatched
      = (.ok (finish (.failure 500 (InvokeError.serialize reason).message), .aborted .invocation), s.world) := by
    intro reason hdata
    apply hgives.dispatch_eq hfound hrecord
    rw [hdata, ReturnForm.returns_errorFirst_of_error]
    rfl
  refine ⟨?_, hunwritten⟩
  constructor
  . intro hrendered reason hdata
    rw [hunwritten reason hdata, Prod.mk.injEq, Except.ok.injEq, Prod.mk.injEq] at hrendered
    cases hrendered.1.2
  . intro hwritten
    obtain ⟨written, hvalues⟩ := ReturnForm.returns_errorFirst_of_ok (some e) hwritten
    apply hgives.dispatch_eq hfound hrecord
    rw [hvalues]
    exact complete_of_present_error hreturns e written s

end

/-- A handler that counts its calls and gives back an error in front of data. -/
def failing (data : Option Serialized) : Handler Nat where
  params := .none
  form := .errorFirst
  body := do
    modify (· + 1)
    return (some (.ofMessage "gone"), data)

/-- What is stored for that handler. -/
def failingRecord (data : Option Serialized) : Record Nat where
  name := "GetThing"
  call := (failing data).call
  signature := ⟨[], [.error, .data]⟩
  convention := ⟨.none, .errorData⟩
  hooks := .empty

theorem match?_failingRecord (data : Option Serialized) {path : String} (hpath : path = "/thing") :
    (Route.Table.single "*" (.fixed "get/thing") (failingRecord data)).match? "GET" path
      =
    some ⟨⟨failingRecord data, []⟩, "get/thing"⟩ := by
  have hkey : Route.requestKey "GET" path = "get/thing" := by
    rw [hpath]
    decide +kernel
  unfold Route.Table.match?
  rw [hkey]
  rfl

theorem dispatchWithEnding_of_present_error_written :
    let request := Request.ofUri .get "/thing"
    let d : Dispatcher Nat := .ofTable (.single "*" (.fixed "get/thing") (failingRecord (some (.ok (.bool true)))))
    ∃ headers, d.dispatchWithEnding ⟨0⟩ request 7
      = (.ok ((((Failure.ofMessage "gone").response).mergeHeaders headers).withServer, .rendered), 8) := by
  intro request d
  have hfound : d.table.match? request.method.token request.path
      = some ⟨⟨failingRecord (some (.ok (.bool true))), []⟩, "get/thing"⟩ :=
    match?_failingRecord _ (by decide +kernel)
  have hrecord : (Offer.mk "GetThing" none (failing (some (.ok (.bool true)))).signature
      (failing (some (.ok (.bool true)))).call).record .empty = .ok (failingRecord (some (.ok (.bool true)))) := rfl
  have hgives : d.Gives ⟨0⟩ request 7 ⟨⟨failingRecord (some (.ok (.bool true))), []⟩, "get/thing"⟩
      (failing (some (.ok (.bool true)))) (some (.ofMessage "gone"), some (.ok (.bool true)))
      ⟨(d.scope ⟨0⟩ request 7).context, 8⟩ :=
    .mk rfl rfl rfl rfl
  exact ⟨_, (dispatchWithEnding_of_present_error hfound hrecord hgives).1.2 nofun⟩

/-- The error is not shown if the data beside it cannot be serialized. -/
theorem dispatchWithEnding_present_error_hidden :
    let request := Request.ofUri .get "/thing"
    let data : Option Serialized := some (.error "key must be a string")
    let d : Dispatcher Nat := .ofTable (.single "*" (.fixed "get/thing") (failingRecord data))
    ∃ response, d.dispatchWithEnding ⟨0⟩ request 7 = (.ok (response, .aborted .invocation), 8) ∧
      response.body = Text.utf8 "failed to serialize handler data: key must be a string" := by
  intro request data d
  have hfound : d.table.match? request.method.token request.path
      = some ⟨⟨failingRecord data, []⟩, "get/thing"⟩ :=
    match?_failingRecord _ (by decide +kernel)
  unfold Dispatcher.dispatchWithEnding
  rw [hfound]
  exact ⟨_, rfl, rfl⟩

end Pipeline

end Signpost
