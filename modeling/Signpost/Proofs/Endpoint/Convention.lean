import Mathlib.Data.List.Forall2
import Signpost.Endpoint.Callable
import Signpost.Proofs.Binding.Fields
import Signpost.Proofs.Endpoint.Code

/-!
This module contains the theory of calling conventions: which signatures have one, that arguments which fit the
declared parameters are never turned away by a typed handler, and that what it gives back is what it declares.
-/

namespace Signpost.Endpoint

open Binding (Datum ParamType)
open Http (Request)

/-! ## Signatures and their conventions -/

def ParamKind.isData : ParamKind → Bool
  | .context => false
  | .data _ => true

/-- At most two parameters and at most two return values, and no two of the same kind. -/
structure Signature.IsSupported (s : Signature) : Prop where
  params : s.params.length ≤ 2
  distinctParams : (s.params.map ParamKind.isData).Nodup
  returns : s.returns.length ≤ 2
  distinctReturns : s.returns.Nodup

theorem ParamShape.exists_ofList_iff {params : List ParamKind} :
    (∃ shape, ofList params = .ok shape) ↔ params.length ≤ 2 ∧ (params.map ParamKind.isData).Nodup := by
  match params with
  | [] => simp [ofList]
  | [a] => cases a <;> simp [ofList]
  | [a, b] => cases a <;> cases b <;> simp [ofList, ParamKind.isData]
  | a :: b :: c :: rest => cases a <;> cases b <;> simp [ofList]

theorem ReturnShape.exists_ofList_iff {returns : List ReturnKind} :
    (∃ shape, ofList returns = .ok shape) ↔ returns.length ≤ 2 ∧ returns.Nodup := by
  match returns with
  | [] => simp [ofList]
  | [a] => cases a <;> simp [ofList]
  | [a, b] => cases a <;> cases b <;> simp [ofList]
  | a :: b :: c :: rest => cases a <;> cases b <;> simp [ofList]

theorem ReturnShape.toList_of_ofList (h : ofList returns = .ok shape) : shape.toList = returns := by
  unfold ofList at h
  split at h <;> cases h <;> rfl

namespace Signature

variable {s : Signature} {convention : Convention}

theorem classify_eq_ok_iff :
    s.classify = .ok convention ↔
      ParamShape.ofList s.params = .ok convention.params ∧ ReturnShape.ofList s.returns = .ok convention.returns := by
  unfold classify
  cases ParamShape.ofList s.params with
  | error e => simp [bind, Except.bind]
  | ok params =>
    cases ReturnShape.ofList s.returns with
    | error e => simp [bind, Except.bind]
    | ok returns =>
      cases convention
      simp [bind, Except.bind, pure, Except.pure]

theorem exists_classify_iff : (∃ convention, s.classify = .ok convention) ↔ s.IsSupported := by
  simp only [classify_eq_ok_iff]
  constructor
  . rintro ⟨convention, hparams, hreturns⟩
    obtain ⟨hlength, hdistinct⟩ := ParamShape.exists_ofList_iff.1 ⟨_, hparams⟩
    obtain ⟨hlength', hdistinct'⟩ := ReturnShape.exists_ofList_iff.1 ⟨_, hreturns⟩
    exact ⟨hlength, hdistinct, hlength', hdistinct'⟩
  . intro h
    obtain ⟨params, hparams⟩ := ParamShape.exists_ofList_iff.2 ⟨h.params, h.distinctParams⟩
    obtain ⟨returns, hreturns⟩ := ReturnShape.exists_ofList_iff.2 ⟨h.returns, h.distinctReturns⟩
    exact ⟨⟨params, returns⟩, hparams, hreturns⟩

/-- The lists of the signature can be read off its convention. -/
theorem toList_of_classify (h : s.classify = .ok convention) :
    convention.params.toList = s.params ∧ convention.returns.toList = s.returns := by
  obtain ⟨hparams, hreturns⟩ := classify_eq_ok_iff.1 h
  exact ⟨ParamShape.toList_of_ofList hparams, ReturnShape.toList_of_ofList hreturns⟩

end Signature

/-! ## Arguments of a call -/

/--
An argument is what a declared parameter takes for a request: the context, or the value that is populated for
the type of the parameter.
-/
inductive Argument.Fits (request : Request) (captured : List String) : ParamKind → Argument → Prop
  | context : Fits request captured .context .context
  | data {t : ParamType} {value : Datum} (populated : t.populate request captured = .ok value) :
    Fits request captured (.data t) (.data t.fullName value)

section
variable {request : Request} {captured : List String}

/-- The code of a handler with arguments for its parameters, one for each and in their order. -/
inductive ParamShape.Applies : (shape : ParamShape) → shape.Body σ α → List Argument → Code (Scope σ) α → Prop
  | none (body : Code σ α) : Applies .none body [] body.inScope
  | context (body : Code (Scope σ) α) : Applies .context body [.context] body
  | data {t : ParamType} (body : Datum → Code σ α) (value : Datum) :
    Applies (.data t) body [.data t.fullName value] (body value).inScope
  | contextData {t : ParamType} (body : Datum → Code (Scope σ) α) (value : Datum) :
    Applies (.contextData t) body [.context, .data t.fullName value] (body value)
  | dataContext {t : ParamType} (body : Datum → Code (Scope σ) α) (value : Datum) :
    Applies (.dataContext t) body [.data t.fullName value, .context] (body value)

theorem Argument.asData_data (t : ParamType) (value : Datum) : (Argument.data t.fullName value).asData t = .ok value :=
  if_pos rfl

theorem ParamShape.Applies.apply_eq {shape : ParamShape} {body : shape.Body σ α} {args : List Argument}
    {code : Code (Scope σ) α} (h : shape.Applies body args code) : shape.apply body args = .ok code := by
  cases h with
  | none => rfl
  | context => rfl
  | data body value =>
    change (do return (body (← (Argument.data _ value).asData _)).inScope) = _
    rw [Argument.asData_data]
    rfl
  | contextData body value =>
    change (do Argument.context.asContext; return body (← (Argument.data _ value).asData _)) = _
    rw [Argument.asData_data]
    rfl
  | dataContext body value =>
    change (do let d ← (Argument.data _ value).asData _; Argument.context.asContext; return body d) = _
    rw [Argument.asData_data]
    rfl

/-- A handler takes arguments that fit its parameters one by one. -/
theorem ParamShape.exists_applies {shape : ParamShape} {args : List Argument}
    (h : List.Forall₂ (Argument.Fits request captured) shape.toList args) (body : shape.Body σ α) :
    ∃ code, shape.Applies body args code := by
  cases shape with
  | none =>
    cases h
    exact ⟨_, .none body⟩
  | context =>
    obtain ⟨a, rest, ⟨⟩, hrest, rfl⟩ := List.forall₂_cons_left_iff.1 h
    cases hrest
    exact ⟨_, .context body⟩
  | data t =>
    obtain ⟨a, rest, ⟨_⟩, hrest, rfl⟩ := List.forall₂_cons_left_iff.1 h
    cases hrest
    exact ⟨_, .data body _⟩
  | contextData t =>
    obtain ⟨a, more, ⟨⟩, hmore, rfl⟩ := List.forall₂_cons_left_iff.1 h
    obtain ⟨b, rest, ⟨_⟩, hrest, rfl⟩ := List.forall₂_cons_left_iff.1 hmore
    cases hrest
    exact ⟨_, .contextData body _⟩
  | dataContext t =>
    obtain ⟨a, more, ⟨_⟩, hmore, rfl⟩ := List.forall₂_cons_left_iff.1 h
    obtain ⟨b, rest, ⟨⟩, hrest, rfl⟩ := List.forall₂_cons_left_iff.1 hmore
    cases hrest
    exact ⟨_, .dataContext body _⟩

end

/-! ## Values that are given back -/

/-- Data as it is given back, with null as nil, or why it cannot be. -/
inductive Written : Serialized → Except InvokeError (Option Json) → Prop
  | null : Written (.ok .null) (.ok none)
  | value {json : Json} (notNull : json ≠ .null) : Written (.ok json) (.ok (some json))
  | unwritten (reason : String) : Written (.error reason) (.error (.serialize reason))

theorem written_iff {data : Serialized} {result : Except InvokeError (Option Json)} :
    Written data result ↔ result = toData data := by
  constructor
  . intro h
    cases h with
    | null => rfl
    | unwritten reason => rfl
    | @value json notNull =>
      cases json with
      | null => exact absurd rfl notNull
      | _ => rfl
  . rintro rfl
    cases data with
    | error reason => exact .unwritten reason
    | ok json =>
      cases json with
      | null => exact .null
      | _ => exact .value nofun

theorem Written.exists_of_error {data : Serialized} {result : Except InvokeError (Option Json)} {e : InvokeError}
    (h : Written data result) (hresult : result = .error e) :
    ∃ reason, data = .error reason ∧ e = .serialize reason := by
  cases h with
  | unwritten reason =>
    cases hresult
    exact ⟨reason, rfl, rfl⟩
  | _ => cases hresult

namespace ReturnForm

/-- The data in what a handler of the form computes. -/
def data? : (form : ReturnForm) → form.Value → Option Serialized
  | .unit, _ => none
  | .error, _ => none
  | .data, d => some d
  | .errorFirst, (_, d) => d
  | .result, .ok d => some d
  | .result, .error _ => none

/--
What is given back for the value that a handler of the form computes: its error and its data in the order of the form,
or why the data cannot be written.
-/
inductive Yields : (form : ReturnForm) → form.Value → Except InvokeError (List ReturnValue) → Prop
  | unit : Yields .unit () (.ok [])
  | error (e : Option Failure) : Yields .error e (.ok [.error e])
  | data {d : Serialized} (written : Written d json) : Yields .data d (json.map fun d => [.data d])
  | errorData (e : Option Failure) {d : Serialized} (written : Written d json) :
    Yields .errorFirst (e, some d) (json.map fun d => [.error e, .data d])
  | errorNil (e : Option Failure) : Yields .errorFirst (e, none) (.ok [.error e, .data none])
  | ok {d : Serialized} (written : Written d json) :
    Yields .result (.ok d) (json.map fun d => [.data d, .error none])
  | failed (e : Failure) : Yields .result (.error e) (.ok [.data none, .error (some e)])

variable {form : ReturnForm} {v : form.Value}

theorem yields_iff {outcome : Except InvokeError (List ReturnValue)} :
    form.Yields v outcome ↔ outcome = form.returns v := by
  constructor
  . intro h
    cases h with
    | unit => rfl
    | error e => rfl
    | data written =>
      rw [written_iff.1 written]
      rfl
    | errorData e written =>
      rw [written_iff.1 written]
      rfl
    | errorNil e => rfl
    | ok written =>
      rw [written_iff.1 written]
      rfl
    | failed e => rfl
  . rintro rfl
    cases form with
    | unit => exact .unit
    | error => exact .error v
    | data => exact .data (written_iff.2 rfl)
    | errorFirst =>
      obtain ⟨e, d⟩ := v
      cases d with
      | none => exact .errorNil e
      | some d => exact .errorData e (written_iff.2 rfl)
    | result =>
      cases v with
      | ok d => exact .ok (written_iff.2 rfl)
      | error e => exact .failed e

/-- Values that are given back are of the kinds that the form declares, in their order. -/
theorem Yields.kinds_eq {outcome : Except InvokeError (List ReturnValue)} {values : List ReturnValue}
    (h : form.Yields v outcome) (houtcome : outcome = .ok values) : values.map ReturnValue.kind = form.kinds := by
  cases h with
  | data =>
    obtain ⟨d, _, rfl⟩ := Binding.exists_of_map houtcome
    rfl
  | errorData =>
    obtain ⟨d, _, rfl⟩ := Binding.exists_of_map houtcome
    rfl
  | ok =>
    obtain ⟨d, _, rfl⟩ := Binding.exists_of_map houtcome
    rfl
  | _ =>
    cases houtcome
    rfl

/-- Only data that cannot be written keeps values from being given back. -/
theorem Yields.exists_of_error {outcome : Except InvokeError (List ReturnValue)} {e : InvokeError}
    (h : form.Yields v outcome) (houtcome : outcome = .error e) :
    ∃ reason, form.data? v = some (.error reason) ∧ e = .serialize reason := by
  cases h with
  | data written =>
    obtain ⟨reason, rfl, rfl⟩ := written.exists_of_error (Binding.eq_error_of_map houtcome)
    exact ⟨reason, rfl, rfl⟩
  | errorData _ written =>
    obtain ⟨reason, rfl, rfl⟩ := written.exists_of_error (Binding.eq_error_of_map houtcome)
    exact ⟨reason, rfl, rfl⟩
  | ok written =>
    obtain ⟨reason, rfl, rfl⟩ := written.exists_of_error (Binding.eq_error_of_map houtcome)
    exact ⟨reason, rfl, rfl⟩
  | _ => cases houtcome

end ReturnForm

/-! ## Typed handlers -/

namespace Handler

variable {request : Request} {captured : List String}

theorem isSupported (h : Handler σ) : h.signature.IsSupported := by
  rw [← Signature.exists_classify_iff]
  obtain ⟨returns, hreturns⟩ : ∃ returns, ReturnShape.ofList h.form.kinds = .ok returns := by
    cases h.form <;> exact ⟨_, rfl⟩
  exact ⟨⟨h.params, returns⟩, Signature.classify_eq_ok_iff.2 ⟨ParamShape.ofList_toList _, hreturns⟩⟩

/--
A call of a handler: its code runs with the arguments, and what is given back is what its form gives back for the value
that the code computes. A panic of the code is one of the call.
-/
inductive Runs (h : Handler σ) (args : List Argument) (s : Scope σ) :
    Except Panic (Except InvokeError (List ReturnValue)) → Scope σ → Prop
  | returned {code : Code (Scope σ) h.form.Value} (applies : h.params.Applies h.body args code)
    (computed : code s = (.ok v, s')) (yields : h.form.Yields v outcome) : Runs h args s (.ok outcome) s'
  | panicked {code : Code (Scope σ) h.form.Value} (applies : h.params.Applies h.body args code)
    (gaveUp : code s = (.error p, s')) : Runs h args s (.error p) s'

theorem call_of_applies {h : Handler σ} {args : List Argument} {code : Code (Scope σ) h.form.Value}
    (happlies : h.params.Applies h.body args code) : h.call args = code >>= fun v => pure (h.form.returns v) := by
  unfold call
  rw [happlies.apply_eq]

/-- A handler that is given what it declares is run, and nothing else happens. -/
theorem call_eq_iff (h : Handler σ) {args : List Argument}
    (hargs : List.Forall₂ (Argument.Fits request captured) h.signature.params args) {s s' : Scope σ}
    {result : Except Panic (Except InvokeError (List ReturnValue))} :
    h.call args s = (result, s') ↔ h.Runs args s result s' := by
  constructor
  . intro hcall
    obtain ⟨code, happlies⟩ := ParamShape.exists_applies hargs h.body
    rw [call_of_applies happlies] at hcall
    cases hcode : code s with
    | mk computed s₁ =>
      cases computed with
      | error p =>
        rw [Code.bind_of_error hcode] at hcall
        cases hcall
        exact .panicked happlies hcode
      | ok v =>
        rw [Code.bind_of_ok hcode] at hcall
        cases hcall
        exact .returned happlies hcode (ReturnForm.yields_iff.2 rfl)
  . intro hruns
    cases hruns with
    | returned applies computed yields =>
      rw [call_of_applies applies, Code.bind_of_ok computed, ReturnForm.yields_iff.1 yields]
      rfl
    | panicked applies gaveUp => rw [call_of_applies applies, Code.bind_of_error gaveUp]

theorem Runs.exists_of_error {h : Handler σ} {args : List Argument} {s s' : Scope σ} {e : InvokeError}
    (hruns : h.Runs args s (.ok (.error e)) s') : ∃ reason, e = .serialize reason := by
  cases hruns with
  | returned applies computed yields =>
    obtain ⟨reason, _, heq⟩ := yields.exists_of_error rfl
    exact ⟨reason, heq⟩

end Handler

end Signpost.Endpoint
