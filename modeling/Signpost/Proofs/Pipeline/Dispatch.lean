import Signpost.Proofs.Pipeline.Course

/-!
This module contains what a dispatch does when neither a hook nor a handler gives up: the steps of exactly one
course, and nothing at all for a request whose route is not found.
-/

namespace Signpost.Pipeline

open Endpoint
open Binding (Datum ParamType ParseError)
open Http (Request Response)

/-! ## Attempts -/

namespace Attempt

/-- Run an attempt that knows nothing of requests for a request. -/
def inScope (attempt : Attempt σ α) : Attempt (Scope σ) α :=
  ExceptT.mk attempt.run.inScope

theorem inScope_bind (attempt : Attempt σ α) (f : α → Attempt σ β) :
    inScope (attempt >>= f) = inScope attempt >>= fun a => inScope (f a) := by
  apply ExceptT.ext
  rw [ExceptT.run_bind]
  unfold inScope
  rw [ExceptT.run_mk, ExceptT.run_mk, ExceptT.run_bind, Code.inScope_bind]
  congr
  funext outcome
  cases outcome with
  | ok a => rfl
  | error e => exact Code.inScope_pure _

theorem inScope_forM (xs : List χ) (attempt : χ → Attempt σ Unit) :
    inScope (xs.forM attempt) = xs.forM fun x => inScope (attempt x) := by
  induction xs with
  | nil => rfl
  | cons x xs ih =>
    change inScope (attempt x >>= fun _ => xs.forM attempt) =
      inScope (attempt x) >>= fun _ => xs.forM fun x => inScope (attempt x)
    rw [inScope_bind, ih]

theorem run_bind_of_ok {attempt : Attempt σ α} {f : α → Attempt σ β} (h : attempt.run s = (.ok (.ok a), s')) :
    (attempt >>= f).run s = (f a).run s' := by
  rw [ExceptT.run_bind, Code.bind_of_ok h]

theorem run_bind_of_error {attempt : Attempt σ α} {f : α → Attempt σ β}
    (h : attempt.run s = (.ok (.error e), s')) : (attempt >>= f).run s = (.ok (.error e), s') := by
  rw [ExceptT.run_bind, Code.bind_of_ok h]
  rfl

theorem run_bind_of_panic {attempt : Attempt σ α} {f : α → Attempt σ β} (h : attempt.run s = (.error p, s')) :
    (attempt >>= f).run s = (.error p, s') := by
  rw [ExceptT.run_bind, Code.bind_of_error h]

theorem quiet_bind {attempt : Attempt σ α} {f : α → Attempt σ β} (h : attempt.run.Quiet)
    (hf : ∀ a, (f a).run.Quiet) : (attempt >>= f).run.Quiet := by
  rw [ExceptT.run_bind]
  apply h.bind
  intro outcome
  cases outcome with
  | ok a => exact hf a
  | error e => exact Code.quiet_pure _

theorem quiet_foldlM {xs : List χ} {f : α → χ → Attempt σ α} (h : ∀ x ∈ xs, ∀ a, (f a x).run.Quiet) (a : α) :
    (xs.foldlM f a).run.Quiet := by
  induction xs generalizing a with
  | nil => exact Code.quiet_pure _
  | cons x xs ih =>
    rw [List.forall_mem_cons] at h
    rw [List.foldlM_cons]
    exact quiet_bind (h.1 a) (ih h.2)

end Attempt

theorem Offer.params_of_record {offer : Offer σ} {r : Record σ} (h : offer.record hooks = .ok r) :
    r.convention.params.toList = r.signature.params := by
  unfold Offer.record at h
  cases hclassify : offer.signature.classify with
  | error e =>
    rw [hclassify] at h
    cases h
  | ok convention =>
    rw [hclassify] at h
    cases h
    exact Signature.params_of_classify hclassify

/-- No hook gives up. -/
structure Hooks.Quiet (hooks : Hooks σ) : Prop where
  pre : ∀ hook ∈ hooks.pre, hook.run.Quiet
  param : ∀ hook ∈ hooks.param, ∀ type value, (hook type value).run.Quiet
  result : ∀ hook ∈ hooks.result, ∀ data, (hook data).run.Quiet

/-- Neither a hook nor the callable gives up. -/
structure Record.Quiet (record : Record σ) : Prop where
  hooks : record.hooks.Quiet
  call : ∀ args, (record.call args).Quiet

theorem quiet_render {hooks : Hooks σ} (h : hooks.Quiet) (shape : ReturnShape) (values : List ReturnValue) :
    (render hooks shape values).Quiet := by
  unfold render
  split
  . exact Code.quiet_pure _
  . exact Code.quiet_pure _
  . split
    . apply Code.Quiet.bind
      . exact Attempt.quiet_foldlM h.result _
      . intro outcome
        cases outcome <;> exact Code.quiet_pure _
    . exact Code.quiet_pure _
  . exact Code.quiet_pure _

/-! ## The steps of a matched request -/

section

variable {found : Route.Match (Record σ)}

theorem exists_checks (step : χ → Except Failure Unit → Step σ) (attempt : χ → Attempt (Scope σ) Unit)
    (hstep : ∀ x outcome s s', (attempt x).run s = (.ok outcome, s') → (step x outcome).Does found s s')
    (hquiet : ∀ x ∈ xs, (attempt x).run.Quiet) (s : Scope σ) :
    ∃ steps outcome s', Checks step xs steps outcome ∧ Runs found steps s s' ∧
      (xs.forM attempt).run s = (.ok outcome, s') := by
  induction xs generalizing s with
  | nil => exact ⟨[], .ok (), s, .done, .nil, rfl⟩
  | cons x xs ih =>
    rw [List.forall_mem_cons] at hquiet
    -- The rest is only run, and the induction only used, where the first check passes.
    obtain ⟨outcome, s', h⟩ := hquiet.1 s
    cases outcome with
    | error e =>
      exact ⟨[step x (.error e)], .error e, s', .fail, .cons (hstep x _ s s' h) .nil,
        Attempt.run_bind_of_error h⟩
    | ok _ =>
      obtain ⟨steps, outcome, s'', hchecks, hruns, hrest⟩ := ih hquiet.2 s'
      exact ⟨_ :: steps, outcome, s'', .pass hchecks, .cons (hstep x _ s s' h) hruns,
        (Attempt.run_bind_of_ok h).trans hrest⟩

theorem runs_init {codes : List (Code (Scope σ) Unit)} (hquiet : ∀ code ∈ codes, code.Quiet) (s : Scope σ) :
    ∃ s', Runs found (codes.map .init) s s' ∧ codes.forM id s = (.ok (), s') := by
  induction codes generalizing s with
  | nil => exact ⟨s, .nil, rfl⟩
  | cons code codes ih =>
    rw [List.forall_mem_cons] at hquiet
    obtain ⟨_, s', h⟩ := hquiet.1 s
    obtain ⟨s'', hruns, hrest⟩ := ih hquiet.2 s'
    refine ⟨s'', .cons h hruns, ?_⟩
    change (code >>= fun _ => codes.forM id) s = _
    rw [Code.bind_of_ok h]
    exact hrest

theorem exists_preparation (hparams : found.value.convention.params.toList = found.value.signature.params)
    (hquiet : found.value.Quiet) (s : Scope σ) :
    ∃ steps outcome s', Preparation found.value steps outcome ∧ Runs found steps s s' ∧
      prepare found.value found.args s = (.ok outcome, s') := by
  have htype := ParamShape.dataType?_eq_some_iff found.value.convention.params
  rw [hparams] at htype
  unfold prepare
  rw [Code.bind_of_ok (Code.context_eq s)]
  unfold populateParam
  cases hshape : found.value.convention.params.dataType? with
  | none =>
    refine ⟨[], .ok none, s, .absent ?_, .nil, rfl⟩
    intro t ht
    rw [← htype, hshape] at ht
    cases ht
  | some t =>
    have ht : .data t ∈ found.value.signature.params := (htype t).1 hshape
    dsimp only
    cases houtcome : t.populate s.context.request found.args with
    | error e => exact ⟨_, _, s, .unpopulated ht, .cons ⟨houtcome, rfl⟩ .nil, rfl⟩
    | ok value =>
      obtain ⟨steps, outcome, s', hchecks, hruns, hforM⟩ :=
        exists_checks (.paramHook t.fullName value) (fun hook => (hook t.fullName value).inScope)
          (fun _ _ _ _ h => h) (fun hook hhook => (hquiet.hooks.param hook hhook t.fullName value).inScope) s
      -- The hooks know nothing of requests: their run is one piece of code within the scope.
      rw [← Attempt.inScope_forM] at hforM
      refine ⟨_, _, s', .populated ht hchecks, .cons ⟨houtcome, rfl⟩ hruns, ?_⟩
      exact (Code.bind_of_ok hforM).trans (by cases outcome <;> rfl)

theorem exists_completion (hquiet : found.value.Quiet) (data : Option (String × Datum)) (s : Scope σ) :
    ∃ steps response ending s', Completion found.value (.ok data) steps response ending ∧
      Runs found steps s s' ∧ invoke found.value data s = (.ok (response, ending), s') := by
  obtain ⟨outcome, s', hcall⟩ := hquiet.call (arguments found.value.signature.params data) s
  unfold invoke
  rw [Code.bind_of_ok hcall]
  cases outcome with
  | error e => exact ⟨_, _, _, s', .refused, .cons hcall .nil, rfl⟩
  | ok values =>
    have hrender := quiet_render hquiet.hooks found.value.convention.returns values
    obtain ⟨response, s'', h⟩ := hrender.inScope s'
    refine ⟨_, response, _, s'', .rendered, .cons hcall (.cons h .nil), ?_⟩
    exact Code.bind_of_ok h

theorem exists_handling (hparams : found.value.convention.params.toList = found.value.signature.params)
    (hquiet : found.value.Quiet) (s : Scope σ) :
    ∃ pre outcome steps response ending s', Checks .preHook found.value.hooks.pre pre outcome ∧
      Handling found.value outcome steps response ending ∧ Runs found (pre ++ steps) s s' ∧
      drive found.value found.args s = (.ok (response, ending), s') := by
  obtain ⟨pre, outcome, s₁, hchecks, hruns₁, h₁⟩ :=
    exists_checks .preHook id (fun _ _ _ _ h => h) hquiet.hooks.pre s
  unfold drive Hooks.runPre
  rw [Code.bind_of_ok h₁]
  cases outcome with
  | error e => exact ⟨_, _, _, _, _, s₁, hchecks, .aborted, hruns₁.append .nil, rfl⟩
  | ok _ =>
    obtain ⟨prep, outcome, s₂, hprep, hruns₂, h₂⟩ := exists_preparation hparams hquiet s₁
    dsimp only
    rw [Code.bind_of_ok h₂]
    cases outcome with
    | error abort =>
      exact ⟨_, _, _, _, _, s₂, hchecks, .entered hprep .aborted, hruns₁.append (hruns₂.append .nil), rfl⟩
    | ok data =>
      obtain ⟨steps, response, ending, s₃, hcompletion, hruns₃, h₃⟩ := exists_completion hquiet data s₂
      exact ⟨_, _, _, response, ending, s₃, hchecks, .entered hprep hcompletion,
        hruns₁.append (hruns₂.append hruns₃), h₃⟩

theorem exists_course {init : List (Code (Scope σ) Unit)} (hinit : ∀ code ∈ init, code.Quiet)
    (hparams : found.value.convention.params.toList = found.value.signature.params)
    (hquiet : found.value.Quiet) (s : Scope σ) :
    ∃ steps response ending s', Course init found.value steps response ending ∧ Runs found steps s s' ∧
      (init.forM id >>= fun _ => drive found.value found.args) s = (.ok (response, ending), s') := by
  obtain ⟨s₁, hruns₁, h₁⟩ := runs_init hinit s
  obtain ⟨pre, outcome, steps, response, ending, s₂, hchecks, hhandling, hruns₂, h₂⟩ :=
    exists_handling hparams hquiet s₁
  rw [Code.bind_of_ok h₁]
  exact ⟨_, response, ending, s₂, .mk hchecks hhandling, hruns₁.append hruns₂, h₂⟩

end

namespace Dispatcher

/-- The fresh context of a request, and the state that the request finds. -/
def scope (d : Dispatcher σ) (fresh : RequestId) (request : Request) (world : σ) : Scope σ :=
  ⟨(Context.ofRequest fresh request).withDeadline (d.timeout.map (·.nanos)), world⟩

/--
A dispatch takes the steps of the one course that runs in the fresh scope, and none if no route is found. The
handler is called at most once, and no step follows one that fails.
-/
theorem dispatchWithEnding_eq (d : Dispatcher σ) (fresh : RequestId) (request : Request) (world : σ)
    (hinit : ∀ code ∈ d.contextInit, code.Quiet)
    (hmade : ∀ found, d.table.match? request.method.token request.path = some found →
      ∃ offer hooks, Offer.record offer hooks = .ok found.value)
    (hquiet : ∀ found, d.table.match? request.method.token request.path = some found → found.value.Quiet) :
    (d.table.match? request.method.token request.path = none →
      d.dispatchWithEnding fresh request world = (.ok (Response.notFound.withServer, .aborted .notFound), world)) ∧
    (∀ found, d.table.match? request.method.token request.path = some found →
      ∃ steps response ending s, Course d.contextInit found.value steps response ending ∧
        Runs found steps (d.scope fresh request world) s ∧
        (∀ steps' response' ending' s', Course d.contextInit found.value steps' response' ending' →
          Runs found steps' (d.scope fresh request world) s' → steps' = steps) ∧
        d.dispatchWithEnding fresh request world =
          (.ok ((response.mergeHeaders s.context.headers).withServer, ending), s.world) ∧
        steps.countP Step.isCall = ending.calls ∧
        steps.Pairwise fun step _ => step.fails = false) := by
  constructor
  . intro hmiss
    unfold dispatchWithEnding
    rw [hmiss]
    rfl
  . intro found hfound
    obtain ⟨offer, hooks, hrecord⟩ := hmade found hfound
    have hparams := Offer.params_of_record hrecord
    obtain ⟨steps, response, ending, s, hcourse, hruns, h⟩ :=
      exists_course hinit hparams (hquiet found hfound) (d.scope fresh request world)
    refine ⟨steps, response, ending, s, hcourse, hruns, ?_, ?_, hcourse.countP_isCall, hcourse.unbroken⟩
    . intro steps' response' ending' s' hcourse' hruns'
      exact (hcourse'.unique hparams hcourse hruns' hruns).1
    . have hmatch : d.runMatch fresh found request world =
          (.ok (response.mergeHeaders s.context.headers, ending), s.world) :=
        Code.bind_of_ok (Code.withContext_of_ok h)
      unfold dispatchWithEnding
      rw [hfound]
      exact Code.bind_of_ok hmatch

/-- A handler that counts its calls, behind a hook that lets every request pass. -/
def counting : Record Nat where
  name := "GetPing"
  call _ := do
    modify fun s => { s with world := s.world + 1 }
    return .ok []
  signature := ⟨[.context], []⟩
  convention := ⟨.context, .none⟩
  hooks := ⟨[(pure () : Attempt (Scope Nat) Unit)], [], []⟩

theorem dispatchWithEnding_eq_counting :
    let request := Request.ofUri .get "/ping"
    let d : Dispatcher Nat := ofTable { Route.Table.empty "*" with fixed := [("get/ping", counting)] }
    ∃ steps response, Course [] counting steps response .rendered ∧
      (d.dispatchWithEnding ⟨0⟩ request 7).2 = 8 ∧ steps.countP Step.isCall = 1 := by
  intro request d
  have hkey : Route.requestKey request.method.token request.path = "get/ping" := by decide +kernel
  have hfound : d.table.match? request.method.token request.path = some ⟨⟨counting, []⟩, "get/ping"⟩ := by
    unfold Route.Table.match?
    rw [hkey]
    rfl
  have hvalue : ∀ found, d.table.match? request.method.token request.path = some found →
      found.value = counting := by
    intro found h
    rw [hfound] at h
    cases h
    rfl
  have hquiet : counting.Quiet := by
    refine ⟨⟨?_, nofun, nofun⟩, ?_⟩
    . simp only [counting, List.mem_singleton, forall_eq]
      exact Code.quiet_pure _
    . intro args s
      exact ⟨_, _, rfl⟩
  have hmade : ∀ found, d.table.match? request.method.token request.path = some found →
      ∃ offer hooks, Offer.record offer hooks = .ok found.value := by
    intro found h
    rw [hvalue found h]
    exact ⟨.declared "GetPing" counting.signature counting.call, counting.hooks, rfl⟩
  obtain ⟨steps, response, ending, s, hcourse, _, _, heq, hcalls, _⟩ :=
    (dispatchWithEnding_eq d ⟨0⟩ request 7 nofun hmade fun found h => (hvalue found h).symm ▸ hquiet).2 _ hfound
  have hrun : ∃ response, d.dispatchWithEnding ⟨0⟩ request 7 = (.ok (response, .rendered), 8) := by
    unfold dispatchWithEnding
    rw [hfound]
    exact ⟨_, rfl⟩
  obtain ⟨response', hrun⟩ := hrun
  rw [hrun] at heq ⊢
  rw [Prod.mk.injEq, Except.ok.injEq, Prod.mk.injEq] at heq
  obtain ⟨⟨_, hending⟩, _⟩ := heq
  subst hending
  exact ⟨steps, response, hcourse, rfl, hcalls⟩

end Dispatcher

end Signpost.Pipeline
