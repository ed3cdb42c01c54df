import Signpost.Endpoint.Failure
import Signpost.Proofs.Text.Utf8

/-!
This module contains the rendering of errors that are wrapped in explanations: however many there are, the response has
the status of the bare error, and only a body that tells what happened tells the explanations too.
-/

namespace Signpost.Endpoint.Failure

/-- Wrap an error in explanations, the first of which is the outermost. -/
def wrapAll (f : Failure) (contexts : List String) : Failure :=
  contexts.foldr (fun context f => f.wrap context) f

/-! ## What is decided layer by layer -/

section
variable {f : Failure}

@[simp]
theorem layers_wrap (f : Failure) (context : String) : (f.wrap context).layers = .message context :: f.layers := by
  rfl

theorem chain_wrap (f : Failure) (context : String) : (f.wrap context).chain = context :: f.chain := by
  rfl

theorem chain_ne_nil (f : Failure) : f.chain ≠ [] := by
  simp [chain, layers]

/-- An explanation has no status, so it does not change which one an error has. -/
theorem findSome?_layers_wrapAll (f : Failure) (contexts : List String) :
    (f.wrapAll contexts).layers.findSome? Cause.status? = f.layers.findSome? Cause.status? := by
  induction contexts with
  | nil => rfl
  | cons context contexts ih =>
    change ((f.wrapAll contexts).wrap context).layers.findSome? Cause.status? = _
    rw [layers_wrap, List.findSome?_cons, ← ih]
    rfl

theorem any_layers_wrapAll (f : Failure) (contexts : List String) :
    (f.wrapAll contexts).layers.any Cause.isParse = f.layers.any Cause.isParse := by
  induction contexts with
  | nil => rfl
  | cons context contexts ih =>
    change ((f.wrapAll contexts).wrap context).layers.any Cause.isParse = _
    rw [layers_wrap, List.any_cons, ih]
    rfl

theorem text_wrap (f : Failure) (context : String) : (f.wrap context).text = context ++ ": " ++ f.text := by
  unfold text
  rw [chain_wrap, String.intercalate_cons_of_ne_nil f.chain_ne_nil]

theorem text_wrapAll (f : Failure) (contexts : List String) :
    (f.wrapAll contexts).text = ": ".intercalate (contexts ++ [f.text]) := by
  induction contexts with
  | nil => exact String.intercalate_singleton.symm
  | cons context contexts ih =>
    change ((f.wrapAll contexts).wrap context).text = _
    rw [text_wrap, ih, List.cons_append, String.intercalate_cons_of_ne_nil (by simp)]

/-- The status that counts is that of the outermost layer that has one. -/
theorem findSome?_layers_of_first {outer inner : List Cause} {e : StatusError}
    (hlayers : f.layers = outer ++ .status e :: inner) (hfirst : ∀ cause ∈ outer, ∀ e, cause ≠ .status e) :
    f.layers.findSome? Cause.status? = some e := by
  have houter : outer.findSome? Cause.status? = none := by
    rw [List.findSome?_eq_none_iff]
    intro cause hcause
    cases cause with
    | status e => exact absurd rfl (hfirst _ hcause e)
    | _ => rfl
  rw [hlayers, List.findSome?_append, houter]
  rfl

theorem findSome?_layers_eq_none (h : ∀ e, .status e ∉ f.layers) : f.layers.findSome? Cause.status? = none := by
  rw [List.findSome?_eq_none_iff]
  intro cause hcause
  cases cause with
  | status e => exact absurd hcause (h e)
  | _ => rfl

theorem any_layers_iff : f.layers.any Cause.isParse = true ↔ ∃ e, .parse e ∈ f.layers := by
  rw [List.any_eq_true]
  constructor
  . rintro ⟨cause, hcause, hparse⟩
    cases cause with
    | parse e => exact ⟨e, hcause⟩
    | _ => cases hparse
  . rintro ⟨e, he⟩
    exact ⟨_, he, rfl⟩

end

/-! ## Responses -/

theorem status_response_ofCause_status (e : StatusError) : (ofCause (.status e)).response.status = e.status := by
  cases e with
  | mk status message payload => cases payload <;> rfl

section
variable {f : Failure}

/-- The layer with a status gives the response, whatever is around it. -/
theorem response_of_status {e : StatusError} (h : f.layers.findSome? Cause.status? = some e) :
    f.response = (ofCause (.status e)).response := by
  unfold response
  rw [h]
  rfl

/-- Without a status an error is told in full, as one of the request or one of the server. -/
theorem response_of_no_status (h : f.layers.findSome? Cause.status? = none) :
    f.response = .failure (if f.layers.any Cause.isParse then 400 else 500) f.text := by
  unfold response
  rw [h]
  dsimp only
  split <;> rfl

theorem response_wrapAll_of_status {e : StatusError} (h : f.layers.findSome? Cause.status? = some e)
    (contexts : List String) : (f.wrapAll contexts).response = f.response := by
  rw [response_of_status h]
  apply response_of_status
  rw [findSome?_layers_wrapAll, h]

theorem response_wrapAll_of_no_status (h : f.layers.findSome? Cause.status? = none) (contexts : List String) :
    (f.wrapAll contexts).response
      =
    { f.response with body := (Text.utf8 ": ").intercalate (contexts.map Text.utf8 ++ [f.response.body]) } := by
  have hwrapped : (f.wrapAll contexts).layers.findSome? Cause.status? = none := by
    rw [findSome?_layers_wrapAll, h]
  rw [response_of_no_status hwrapped, response_of_no_status h, any_layers_wrapAll, text_wrapAll]
  unfold Http.Response.failure
  rw [Text.utf8_intercalate, List.map_append]
  rfl

end

/--
The response of an error does not change its status when the error is wrapped in explanations. The outermost layer that
has a status gives the whole response, whatever else there is. Without one the status is that of a fault of the request
if a layer tells of parameters that could not be populated, and else that of one of the server, and the body tells the
explanations from the outermost on before it tells what that of the bare error does.
-/
theorem response_wrapAll (f : Failure) (contexts : List String) :
    let wrapped := f.wrapAll contexts
    wrapped.response.status = f.response.status ∧
      (∀ outer e inner, f.layers = outer ++ .status e :: inner → (∀ cause ∈ outer, ∀ e, cause ≠ .status e) →
        f.response.status = e.status ∧ f.response = (ofCause (.status e)).response ∧
          wrapped.response = f.response) ∧
      ((∀ e, .status e ∉ f.layers) →
        ((∃ e, .parse e ∈ f.layers) → f.response.status = 400) ∧
        ((∀ e, .parse e ∉ f.layers) → f.response.status = 500) ∧
        wrapped.response.headers = f.response.headers ∧
        wrapped.response.body
          = (Text.utf8 ": ").intercalate (contexts.map Text.utf8 ++ [f.response.body])) := by
  dsimp only
  refine ⟨?_, ?_, ?_⟩
  . cases h : f.layers.findSome? Cause.status? with
    | some e => rw [response_wrapAll_of_status h]
    | none => rw [response_wrapAll_of_no_status h]
  . intro outer e inner hlayers hfirst
    have h := findSome?_layers_of_first hlayers hfirst
    refine ⟨?_, response_of_status h, response_wrapAll_of_status h contexts⟩
    rw [response_of_status h, status_response_ofCause_status]
  . intro hnone
    have h := findSome?_layers_eq_none hnone
    rw [response_wrapAll_of_no_status h]
    refine ⟨?_, ?_, rfl, rfl⟩
    . intro hparse
      rw [response_of_no_status h, if_pos (any_layers_iff.2 hparse)]
      rfl
    . intro hother
      have hany : ¬f.layers.any Cause.isParse = true := by
        rw [any_layers_iff]
        rintro ⟨e, he⟩
        exact hother e he
      rw [response_of_no_status h, if_neg hany]
      rfl

example : ((ofMessage "disk full").wrapAll ["saving order", "checkout"]).response
    = .failure 500 "saving order: checkout: disk full" := by
  rfl

end Signpost.Endpoint.Failure
