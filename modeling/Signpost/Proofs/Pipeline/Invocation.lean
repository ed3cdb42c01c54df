import Signpost.Proofs.Binding.Carried
import Signpost.Proofs.Endpoint.Convention
import Signpost.Proofs.Pipeline.Dispatch
import Signpost.Proofs.Pipeline.Registration

/-!
This module contains what a request hands over to a callable: if it gets that far, the callable is called with
one argument for each declared parameter, whatever the callable is, and the rest is up to what it gives back.
-/

namespace Signpost.Pipeline

open Endpoint
open Binding (Datum)
open Http (Request Response)

/-- What follows a call: the response to what it gives back. -/
def Record.complete (record : Record σ) :
    Except InvokeError (List ReturnValue) → Code (Scope σ) (Response × Ending)
  | .error e => return (.failure 500 e.message, .aborted .invocation)
  | .ok values => do
    return (← Code.inScope (render record.hooks record.convention.returns values), .rendered)

/--
How far a request gets with a record. Either it leaves before the call, and then the callable is not asked at
all, or the callable is called with arguments that fit the declared parameters one by one.
-/
inductive Passage (record : Record σ) (captured : List String) (s : Scope σ) : Prop
  | left (outcome : Except Panic (Response × Ending)) (s' : Scope σ)
    (unasked : ∀ call, drive { record with call } captured s = (outcome, s'))
    (early : ∀ response ending, outcome = .ok (response, ending) →
      ∃ reason, ending = .aborted reason ∧ reason ≠ .invocation)
  | called (args : List Argument) (s' : Scope σ)
    (fits : List.Forall₂ (Argument.Fits s'.context.request captured) record.signature.params args)
    (asked : ∀ call, drive { record with call } captured s
      = (call args >>= record.complete) s')

/-- The populated parameter is the argument for the data parameter, and no argument is left out. -/
theorem fits_arguments {shape : ParamShape} {request : Request} {captured : List String}
    {data : Option (String × Datum)} (h : populateParam shape request captured = .ok data) :
    List.Forall₂ (Argument.Fits request captured) shape.toList (arguments shape.toList data) := by
  unfold populateParam at h
  cases shape with
  | none => exact .nil
  | context => exact .cons .context .nil
  | data t =>
    obtain ⟨value, hvalue, rfl⟩ := Binding.exists_of_map h
    exact .cons (.data hvalue) .nil
  | contextData t =>
    obtain ⟨value, hvalue, rfl⟩ := Binding.exists_of_map h
    exact .cons .context (.cons (.data hvalue) .nil)
  | dataContext t =>
    obtain ⟨value, hvalue, rfl⟩ := Binding.exists_of_map h
    exact .cons (.data hvalue) (.cons .context .nil)

/-- The preparation leaves the context alone. It ends in a populated parameter or before the call. -/
theorem exists_of_prepare {record : Record σ} {captured : List String} {s s' : Scope σ}
    (h : prepare record captured s = (outcome, s')) :
    s'.context = s.context ∧
      (∀ data, outcome = .ok (.ok data) →
        populateParam record.convention.params s.context.request captured = .ok data) ∧
      ∀ response reason, outcome = .ok (.error (response, reason)) → reason ≠ .invocation := by
  unfold prepare at h
  rw [Code.bind_of_ok (Code.context_eq s)] at h
  cases hparam : populateParam record.convention.params s.context.request captured with
  | error e =>
    rw [hparam] at h
    cases h
    refine ⟨rfl, nofun, ?_⟩
    intro response reason heq
    cases heq
    decide
  | ok data =>
    rw [hparam] at h
    cases data with
    | none =>
      cases h
      refine ⟨rfl, ?_, nofun⟩
      intro data heq
      cases heq
      rfl
    | some data =>
      obtain ⟨type, value⟩ := data
      dsimp only at h
      rw [Code.bind_eq, Code.inScope_eq] at h
      cases hhooks : (record.hooks.runParam type value).run s.world with
      | mk result world =>
        rw [hhooks] at h
        cases result with
        | error panic =>
          cases h
          exact ⟨rfl, nofun, nofun⟩
        | ok verdict =>
          cases verdict with
          | error e =>
            cases h
            refine ⟨rfl, nofun, ?_⟩
            intro response reason heq
            cases heq
            decide
          | ok _ =>
            cases h
            refine ⟨rfl, ?_, nofun⟩
            intro data heq
            cases heq
            rfl

/-- The checks before the call do not look at the callable. -/
theorem passage_of_record {offer : Offer σ} {record : Record σ} (h : offer.record hooks = .ok record)
    (captured : List String) (s : Scope σ) : Passage record captured s := by
  have hparams := Offer.params_of_record h
  -- each check either ends the request, whatever the callable is, or leads to the next one
  cases hpre : record.hooks.runPre.run s with
  | mk result s₁ =>
    cases result with
    | error panic => exact .left _ s₁ (fun _ => Code.bind_of_error hpre) nofun
    | ok outcome =>
      cases outcome with
      | error e =>
        refine .left _ s₁ (fun _ => Code.bind_of_ok hpre) ?_
        intro response ending heq
        cases heq
        exact ⟨.preHook, rfl, by decide⟩
      | ok _ =>
        cases hprepare : prepare record captured s₁ with
        | mk result s₂ =>
          obtain ⟨hcontext, hpopulated, hreason⟩ := exists_of_prepare hprepare
          cases result with
          | error panic =>
            exact .left _ s₂ (fun _ => (Code.bind_of_ok hpre).trans (Code.bind_of_error hprepare)) nofun
          | ok outcome =>
            cases outcome with
            | error abort =>
              refine .left _ s₂ (fun _ => (Code.bind_of_ok hpre).trans (Code.bind_of_ok hprepare)) ?_
              intro response ending heq
              cases heq
              exact ⟨abort.2, rfl, hreason _ _ rfl⟩
            | ok data =>
              have hfits := fits_arguments (hpopulated data rfl)
              rw [hparams, ← hcontext] at hfits
              exact .called _ s₂ hfits fun _ => (Code.bind_of_ok hpre).trans (Code.bind_of_ok hprepare)

/-! ## Typed handlers behind a dispatcher -/

section
variable {record : Record σ} {s s' : Scope σ} {response : Response}

/-- Only a call that came to nothing makes the request leave at the invocation. -/
theorem exists_of_complete {args : List Argument}
    (h : (record.call args >>= record.complete) s = (.ok (response, .aborted .invocation), s')) :
    ∃ e, record.call args s = (.ok (.error e), s') ∧ response = .failure 500 e.message := by
  obtain ⟨outcome, s₁, hcall, h⟩ := Code.exists_of_bind h
  cases outcome with
  | error e =>
    cases h
    exact ⟨e, hcall, rfl⟩
  | ok values =>
    unfold Record.complete at h
    obtain ⟨rendered, s₂, _, h⟩ := Code.exists_of_bind h
    cases h

end

/-- A matched request is driven in its fresh context, and the response gets the headers that were set there. -/
theorem Dispatcher.dispatchWithEnding_eq_ok_iff {d : Dispatcher σ} {fresh : RequestId} {request : Request}
    {found : Route.Match (Record σ)} (hfound : d.table.match? request.method.token request.path = some found) :
    d.dispatchWithEnding fresh request world = (.ok (response, ending), world') ↔
      ∃ driven s', (d.contextInit.forM id >>= fun _ => drive found.value found.args) (d.scope fresh request world)
          = (.ok (driven, ending), s') ∧
        response = (driven.mergeHeaders s'.context.headers).withServer ∧ world' = s'.world := by
  constructor
  . intro h
    unfold dispatchWithEnding at h
    rw [hfound] at h
    obtain ⟨⟨matched, ending⟩, world₁, hmatch, h⟩ := Code.exists_of_bind h
    cases h
    unfold runMatch at hmatch
    obtain ⟨⟨⟨driven, ending⟩, context⟩, world₂, hcontext, h⟩ := Code.exists_of_bind hmatch
    cases h
    obtain ⟨s', hcode, rfl, rfl⟩ := Code.exists_of_withContext hcontext
    exact ⟨driven, s', hcode, rfl, rfl⟩
  . rintro ⟨driven, s', hcode, rfl, rfl⟩
    have hmatch : d.runMatch fresh found request world
        = (.ok (driven.mergeHeaders s'.context.headers, ending), s'.world) :=
      Code.bind_of_ok (Code.withContext_of_ok hcode)
    unfold dispatchWithEnding
    rw [hfound]
    exact Code.bind_of_ok hmatch

theorem Dispatcher.exists_of_dispatch {d : Dispatcher σ} {fresh : RequestId} {request : Request}
    {found : Route.Match (Record σ)} (hfound : d.table.match? request.method.token request.path = some found)
    (h : d.dispatchWithEnding fresh request world = (.ok (response, ending), world')) :
    ∃ s driven s', drive found.value found.args s = (.ok (driven, ending), s') ∧
      response = (driven.mergeHeaders s'.context.headers).withServer := by
  obtain ⟨driven, s', hcode, hresponse, _⟩ := (dispatchWithEnding_eq_ok_iff hfound).1 h
  obtain ⟨_, s, _, hdrive⟩ := Code.exists_of_bind hcode
  exact ⟨s, driven, s', hdrive, hresponse⟩

section
variable {h : Handler σ} {name : String} {route : Option WrittenRoute} {hooks : Hooks σ} {record : Record σ}

theorem exists_record (h : Handler σ) (name : String) (route : Option WrittenRoute) (hooks : Hooks σ) :
    ∃ record, (Offer.mk name route h.signature h.call).record hooks = .ok record := by
  obtain ⟨convention, hclassify⟩ := Signature.exists_classify_iff.2 h.isSupported
  exact ⟨_, Offer.record_of_classify hclassify hooks⟩

theorem call_eq_iff_of_record (hrecord : (Offer.mk name route h.signature h.call).record hooks = .ok record)
    {request : Request} {captured : List String} {args : List Argument}
    (hargs : List.Forall₂ (Argument.Fits request captured) record.signature.params args) {s s' : Scope σ}
    {result : Except Panic (Except InvokeError (List ReturnValue))} :
    record.call args s = (result, s') ↔ h.Runs args s result s' := by
  obtain ⟨convention, _, rfl⟩ := Offer.exists_of_record hrecord
  exact h.call_eq_iff hargs

/-- A request that leaves a typed handler at the invocation had data that could not be serialized. -/
theorem exists_of_drive (hrecord : (Offer.mk name route h.signature h.call).record hooks = .ok record)
    {captured : List String} {s s' : Scope σ} {response : Response}
    (hdrive : drive record captured s = (.ok (response, .aborted .invocation), s')) :
    ∃ args s₁ reason, List.Forall₂ (Argument.Fits s₁.context.request captured) record.signature.params args ∧
      h.Runs args s₁ (.ok (.error (.serialize reason))) s' ∧
      response = .failure 500 (InvokeError.serialize reason).message := by
  cases passage_of_record hrecord captured s with
  | left outcome s₁ unasked early =>
    have hsame := (unasked record.call).symm.trans hdrive
    obtain ⟨reason, heq, hne⟩ := early response (.aborted .invocation) (congrArg Prod.fst hsame)
    cases heq
    exact absurd rfl hne
  | called args s₁ fits asked =>
    have hsame := (asked record.call).symm.trans hdrive
    obtain ⟨e, hcall, rfl⟩ := exists_of_complete hsame
    have hruns := (call_eq_iff_of_record hrecord fits).1 hcall
    obtain ⟨reason, rfl⟩ := hruns.exists_of_error
    exact ⟨args, s₁, reason, fits, hruns, rfl⟩

end

/--
The convention of a signature says how its callable is called. A signature has one exactly if each of its lists
has at most two entries and no two of a kind, and the lists can be read off it. A request that gets as far as the
callable hands over one fitting argument for each declared parameter, in their order. So a typed handler is never
turned away: a call runs its code with these arguments and gives back what it declares of the value that the code
computes. Only data that cannot be written keeps it from that, and only this makes a request leave at the invocation.
-/
theorem convention_honoured (σ : Type) :
    (∀ s : Signature, (∃ convention, s.classify = .ok convention) ↔ s.IsSupported) ∧
    (∀ (s : Signature) (convention : Convention), s.classify = .ok convention →
      convention.params.toList = s.params ∧ convention.returns.toList = s.returns) ∧
    (∀ (offer : Offer σ) (hooks : Hooks σ) (record : Record σ), offer.record hooks = .ok record →
      ∀ captured s, Passage record captured s) ∧
    (∀ (h : Handler σ) (name : String) (route : Option WrittenRoute) (hooks : Hooks σ),
      ∃ record, (Offer.mk name route h.signature h.call).record hooks = .ok record ∧
        (∀ request captured args, List.Forall₂ (Argument.Fits request captured) record.signature.params args →
          ∀ s result s', record.call args s = (result, s') ↔ h.Runs args s result s') ∧
        ∀ (d : Dispatcher σ) fresh (request : Request) found world response world',
          d.table.match? request.method.token request.path = some found → found.value = record →
          d.dispatchWithEnding fresh request world = (.ok (response, .aborted .invocation), world') →
          ∃ args s reason s',
            List.Forall₂ (Argument.Fits s.context.request found.args) record.signature.params args ∧
            h.Runs args s (.ok (.error (.serialize reason))) s' ∧
            response = ((Response.failure 500 (InvokeError.serialize reason).message).mergeHeaders
              s'.context.headers).withServer) ∧
    ∀ (form : ReturnForm) (v : form.Value), (∃! outcome, form.Yields v outcome) ∧
      ∀ outcome, form.Yields v outcome →
        (∀ values, outcome = .ok values → values.map ReturnValue.kind = form.kinds) ∧
        ∀ e, outcome = .error e → ∃ reason, form.data? v = some (.error reason) ∧ e = .serialize reason := by
  refine ⟨fun _ => Signature.exists_classify_iff, fun _ _ => Signature.toList_of_classify,
    fun _ _ _ => passage_of_record, ?_, ?_⟩
  . intro h name route hooks
    obtain ⟨record, hrecord⟩ := exists_record h name route hooks
    refine ⟨record, hrecord, fun _ _ _ hargs _ _ _ => call_eq_iff_of_record hrecord hargs, ?_⟩
    intro d fresh request found world response world' hfound hvalue hdispatch
    obtain ⟨s, driven, s', hdrive, rfl⟩ := Dispatcher.exists_of_dispatch hfound hdispatch
    rw [hvalue] at hdrive
    obtain ⟨args, s₁, reason, hfits, hruns, rfl⟩ := exists_of_drive hrecord hdrive
    exact ⟨args, s₁, reason, s', hfits, hruns, rfl⟩
  . intro form v
    refine ⟨⟨_, ReturnForm.yields_iff.2 rfl, fun _ => ReturnForm.yields_iff.1⟩, ?_⟩
    intro outcome hyields
    exact ⟨fun _ => hyields.kinds_eq, fun _ => hyields.exists_of_error⟩

/-- A handler that counts its calls and greets the first who is named. -/
def greeting : Handler Nat where
  params := .contextData .dictionary
  form := .result
  body names := do
    Code.inScope (modify (· + 1))
    match names with
    | .dictionary ((_, name) :: _) => return .ok (.ok (.text name))
    | _ => return .error (.ofMessage "nobody")

theorem convention_honoured_greeting :
    let args (entries : List (String × String)) : List Argument :=
      [.context, .data Binding.ParamType.dictionary.fullName (.dictionary entries)]
    ∃ record, (Offer.mk "GetGreeting" none greeting.signature greeting.call).record .empty = .ok record ∧
      List.Forall₂ (Argument.Fits (.ofUri .get "/greeting?name=ann") []) record.signature.params
        (args [("name", "ann")]) ∧
      List.Forall₂ (Argument.Fits (.ofUri .get "/greeting") []) record.signature.params (args []) ∧
      ∀ context,
        record.call (args [("name", "ann")]) ⟨context, 7⟩
          = (.ok (.ok [.data (some (.text "ann")), .error none]), ⟨context, 8⟩) ∧
        record.call (args []) ⟨context, 8⟩
          = (.ok (.ok [.data none, .error (some (.ofMessage "nobody"))]), ⟨context, 9⟩) := by
  intro args
  obtain ⟨-, -, -, hhandlers, -⟩ := convention_honoured Nat
  obtain ⟨record, hrecord, hcall, -⟩ := hhandlers greeting "GetGreeting" none .empty
  have hparams : record.signature.params = [.context, .data .dictionary] := by
    obtain ⟨_, _, rfl⟩ := Offer.exists_of_record hrecord
    rfl
  have hnamed : Binding.ParamType.dictionary.populate (.ofUri .get "/greeting?name=ann") []
      = .ok (.dictionary [("name", "ann")]) := by
    have hcarries : Binding.Carries [("name", "ann")] (.ofUri .get "/greeting?name=ann") :=
      .query (Request.kind_ofUri _ _) (by decide +kernel)
    rw [hcarries.populate_eq]
    rfl
  have hnobody : Binding.ParamType.dictionary.populate (.ofUri .get "/greeting") [] = .ok (.dictionary []) := by
    have hcarries : Binding.Carries [] (.ofUri .get "/greeting") :=
      .query (Request.kind_ofUri _ _) (by decide +kernel)
    rw [hcarries.populate_eq]
    rfl
  have hfits : ∀ request entries, Binding.ParamType.dictionary.populate request [] = .ok (.dictionary entries) →
      List.Forall₂ (Argument.Fits request []) record.signature.params (args entries) := by
    intro request entries hpopulate
    rw [hparams]
    exact .cons .context (.cons (.data hpopulate) .nil)
  refine ⟨record, hrecord, hfits _ _ hnamed, hfits _ _ hnobody, ?_⟩
  intro context
  rw [hcall _ _ _ (hfits _ _ hnamed), hcall _ _ _ (hfits _ _ hnobody)]
  constructor
  . have hwritten : Written (.ok (.text "ann")) (.ok (some (.text "ann"))) := .value nofun
    exact .returned (.contextData _ _) rfl (.ok hwritten)
  . exact .returned (.contextData _ _) rfl (.failed _)

end Signpost.Pipeline
