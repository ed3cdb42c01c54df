import Signpost.Pipeline.Dispatch
import Signpost.Proofs.Endpoint.Code

/-!
This module contains the course of a request: the steps that are taken between the lookup of its route and its
response, in which order, and that none is taken after one that fails.
-/

namespace Signpost.Pipeline

open Endpoint
open Binding (Datum ParamType ParseError)
open Http (Request Response)

/-- A step that is taken for a matched request, with its outcome. -/
inductive Step (σ : Type) where
  | init (code : Code (Scope σ) Unit)
  | preHook (hook : PreHook σ) (outcome : Except Failure Unit)
  | population (t : ParamType) (outcome : Except ParseError Datum)
  | paramHook (type : String) (value : Datum) (hook : ParamHook σ) (outcome : Except Failure Unit)
  | call (args : List Argument) (outcome : Except InvokeError (List ReturnValue))
  | rendering (values : List ReturnValue) (response : Response)

namespace Step

def isCall : Step σ → Bool
  | .call .. => true
  | _ => false

def fails : Step σ → Bool
  | .preHook _ (.error _) | .population _ (.error _) | .paramHook _ _ _ (.error _) | .call _ (.error _) => true
  | _ => false

/-- What the step does to the scope of a request whose route is found. -/
def Does (found : Route.Match (Record σ)) (s s' : Scope σ) : Step σ → Prop
  | .init code => code s = (.ok (), s')
  | .preHook hook outcome => hook.run s = (.ok outcome, s')
  | .population t outcome => t.populate s.context.request found.args = outcome ∧ s' = s
  | .paramHook type value hook outcome => (hook type value).run.inScope s = (.ok outcome, s')
  | .call args outcome => found.value.call args s = (.ok outcome, s')
  | .rendering values response =>
    (render found.value.hooks found.value.convention.returns values).inScope s = (.ok response, s')

end Step

/-- The steps are taken one after the other. -/
inductive Runs (found : Route.Match (Record σ)) : List (Step σ) → Scope σ → Scope σ → Prop where
  | nil : Runs found [] s s
  | cons (head : step.Does found s s') (tail : Runs found steps s' s'') : Runs found (step :: steps) s s''

theorem Runs.append {found : Route.Match (Record σ)} (hbefore : Runs found before s s')
    (hafter : Runs found after s' s'') : Runs found (before ++ after) s s'' := by
  induction hbefore with
  | nil => exact hafter
  | cons head tail ih => exact .cons head (ih hafter)

/-! ## The order of the steps -/

/-- Checks are made in order, up to the first that fails. -/
inductive Checks (step : χ → Except Failure Unit → Step σ) :
    List χ → List (Step σ) → Except Failure Unit → Prop where
  | done : Checks step [] [] (.ok ())
  | pass (rest : Checks step xs steps outcome) : Checks step (x :: xs) (step x (.ok ()) :: steps) outcome
  | fail : Checks step (x :: xs) [step x (.error e)] (.error e)

/-- What the hooks say about a populated parameter. -/
def verdict (type : String) (value : Datum) :
    Except Failure Unit → Except (Response × AbortReason) (Option (String × Datum))
  | .ok () => .ok (some (type, value))
  | .error e => .error (e.response, .paramHook)

theorem eq_ok_of_verdict (h : verdict type value outcome = .ok data) : outcome = .ok () := by
  cases outcome with
  | ok _ => rfl
  | error e => cases h

theorem reason_of_verdict (h : verdict type value outcome = .error (response, reason)) : reason = .paramHook := by
  cases outcome with
  | ok _ => cases h
  | error e => cases h; rfl

/-- A data parameter that is declared is populated once and then shown to the hooks. -/
inductive Preparation (record : Record σ) :
    List (Step σ) → Except (Response × AbortReason) (Option (String × Datum)) → Prop where
  | absent (hparams : ∀ t, .data t ∉ record.signature.params) : Preparation record [] (.ok none)
  | unpopulated (hparams : .data t ∈ record.signature.params) :
    Preparation record [.population t (.error e)] (.error (.failure 400 e.message, .population))
  | populated (hparams : .data t ∈ record.signature.params)
      (hooks : Checks (.paramHook t.fullName value) record.hooks.param steps outcome) :
    Preparation record (.population t (.ok value) :: steps)
      (verdict t.fullName value outcome)

/-- After the preparation, the handler is called once and what it gives back is rendered. -/
inductive Completion (record : Record σ) :
    Except (Response × AbortReason) (Option (String × Datum)) → List (Step σ) → Response → Ending → Prop where
  | aborted : Completion record (.error (response, reason)) [] response (.aborted reason)
  | refused : Completion record (.ok data) [.call (arguments record.signature.params data) (.error e)]
      (.failure 500 e.message) (.aborted .invocation)
  | rendered : Completion record (.ok data)
      [.call (arguments record.signature.params data) (.ok values), .rendering values response] response .rendered

/-- After the first hooks, the parameter is prepared for the handler. -/
inductive Handling (record : Record σ) :
    Except Failure Unit → List (Step σ) → Response → Ending → Prop where
  | aborted : Handling record (.error e) [] e.response (.aborted .preHook)
  | entered (preparation : Preparation record prep outcome)
      (completion : Completion record outcome steps response ending) :
    Handling record (.ok ()) (prep ++ steps) response ending

/-- All steps from the fresh context of a request to the response. -/
inductive Course (init : List (Code (Scope σ) Unit)) (record : Record σ) :
    List (Step σ) → Response → Ending → Prop where
  | mk (hooks : Checks .preHook record.hooks.pre pre outcome)
      (handling : Handling record outcome steps response ending) :
    Course init record (init.map .init ++ (pre ++ steps)) response ending

/-! ## No step after a failure, and one call -/

/-- How often the handler is called before the request leaves the pipeline. -/
def Ending.calls : Ending → Nat
  | .rendered | .aborted .invocation => 1
  | .aborted _ => 0

/-- A step that another one follows has not failed. -/
def Unbroken (steps : List (Step σ)) : Prop :=
  steps.Pairwise fun step _ => step.fails = false

theorem Unbroken.append {before after : List (Step σ)} (hbefore : ∀ step ∈ before, step.fails = false)
    (hafter : Unbroken after) : Unbroken (before ++ after) := by
  unfold Unbroken
  rw [List.pairwise_append]
  refine ⟨?_, hafter, ?_⟩
  . apply List.pairwise_of_forall_mem_list
    intro step hstep _ _
    exact hbefore step hstep
  . intro step hstep _ _
    exact hbefore step hstep

namespace Checks

variable {step : χ → Except Failure Unit → Step σ}

theorem fails_eq_false (h : Checks step xs steps outcome) (houtcome : outcome = .ok ())
    (hstep : ∀ x, (step x (.ok ())).fails = false) : ∀ s ∈ steps, s.fails = false := by
  induction h with
  | done => simp
  | @pass _ _ _ x rest ih =>
    rw [List.forall_mem_cons]
    exact ⟨hstep x, ih houtcome⟩
  | fail => cases houtcome

theorem unbroken (h : Checks step xs steps outcome) (hstep : ∀ x, (step x (.ok ())).fails = false) :
    Unbroken steps := by
  induction h with
  | done => exact .nil
  | @pass _ _ _ x rest ih =>
    rw [← List.singleton_append]
    apply Unbroken.append
    . simpa using hstep x
    . exact ih
  | fail => exact List.pairwise_singleton ..

theorem countP_isCall (h : Checks step xs steps outcome) (hstep : ∀ x o, (step x o).isCall = false) :
    steps.countP Step.isCall = 0 := by
  induction h with
  | done => rfl
  | pass rest ih => rw [List.countP_cons, ih, hstep]; rfl
  | fail => rw [List.countP_cons, hstep]; rfl

end Checks

namespace Preparation

variable {record : Record σ}

theorem fails_eq_false (h : Preparation record steps outcome) (houtcome : outcome = .ok data) :
    ∀ step ∈ steps, step.fails = false := by
  cases h with
  | absent => simp
  | unpopulated => cases houtcome
  | populated _ hooks =>
    rw [List.forall_mem_cons]
    exact ⟨rfl, hooks.fails_eq_false (eq_ok_of_verdict houtcome) fun _ => rfl⟩

theorem unbroken (h : Preparation record steps outcome) : Unbroken steps := by
  cases h with
  | absent => exact .nil
  | unpopulated => exact List.pairwise_singleton ..
  | populated _ hooks =>
    rw [← List.singleton_append]
    apply Unbroken.append
    . simp [Step.fails]
    . exact hooks.unbroken fun _ => rfl

theorem countP_isCall (h : Preparation record steps outcome) : steps.countP Step.isCall = 0 := by
  cases h with
  | absent | unpopulated => rfl
  | populated _ hooks =>
    rw [List.countP_cons, hooks.countP_isCall fun _ _ => rfl]
    rfl

theorem calls_eq_zero (h : Preparation record steps outcome) (houtcome : outcome = .error (response, reason)) :
    (Ending.aborted reason).calls = 0 := by
  cases h with
  | absent => cases houtcome
  | unpopulated => cases houtcome; rfl
  | populated =>
    rw [reason_of_verdict houtcome]
    rfl

end Preparation

namespace Completion

variable {record : Record σ}

theorem unbroken (h : Completion record outcome steps response ending) : Unbroken steps := by
  cases h with
  | aborted => exact .nil
  | refused => exact List.pairwise_singleton ..
  | rendered => simp [Unbroken, Step.fails]

theorem countP_isCall (h : Completion record (.ok data) steps response ending) :
    steps.countP Step.isCall = ending.calls := by
  cases h <;> rfl

end Completion

namespace Handling

variable {record : Record σ}

theorem unbroken (h : Handling record outcome steps response ending) : Unbroken steps := by
  cases h with
  | aborted => exact .nil
  | @entered prep outcome _ _ _ preparation completion =>
    cases outcome with
    | error abort =>
      cases completion
      rw [List.append_nil]
      exact preparation.unbroken
    | ok data =>
      apply Unbroken.append (preparation.fails_eq_false rfl)
      exact completion.unbroken

theorem countP_isCall (h : Handling record outcome steps response ending) :
    steps.countP Step.isCall = ending.calls := by
  cases h with
  | aborted => rfl
  | @entered prep outcome _ _ _ preparation completion =>
    rw [List.countP_append, preparation.countP_isCall, Nat.zero_add]
    cases outcome with
    | error abort =>
      cases completion
      exact (preparation.calls_eq_zero rfl).symm
    | ok data => exact completion.countP_isCall

end Handling

namespace Course

variable {init : List (Code (Scope σ) Unit)} {record : Record σ}

theorem unbroken (h : Course init record steps response ending) : Unbroken steps := by
  have hinit : ∀ step ∈ init.map Step.init, step.fails = false := by
    intro step hstep
    rw [List.mem_map] at hstep
    obtain ⟨code, _, heq⟩ := hstep
    subst heq
    rfl
  cases h with
  | @mk pre outcome _ _ _ hooks handling =>
    apply Unbroken.append hinit
    cases outcome with
    | error e =>
      cases handling
      rw [List.append_nil]
      exact hooks.unbroken fun _ => rfl
    | ok _ =>
      apply Unbroken.append (hooks.fails_eq_false rfl fun _ => rfl)
      exact handling.unbroken

theorem countP_isCall (h : Course init record steps response ending) :
    steps.countP Step.isCall = ending.calls := by
  have hinit : (init.map Step.init).countP Step.isCall = 0 := by
    rw [List.countP_map, List.countP_eq_zero]
    intro code _
    exact Bool.false_ne_true
  cases h with
  | mk hooks handling =>
    rw [List.countP_append, List.countP_append, hinit, hooks.countP_isCall fun _ _ => rfl,
      handling.countP_isCall, Nat.zero_add, Nat.zero_add]

end Course

/-! ## At most one course -/

section

variable {found : Route.Match (Record σ)}

/-- The scope in which a step is taken decides its outcome. -/
def Settled (found : Route.Match (Record σ)) (step : ε → Step σ) : Prop :=
  ∀ o o' s t t', (step o).Does found s t → (step o').Does found s t' → o = o' ∧ t = t'

theorem settled_of_code {step : ε → Step σ} {code : Code (Scope σ) ε}
    (h : ∀ o s t, (step o).Does found s t → code s = (.ok o, t)) : Settled found step := by
  intro o o' s t t' hdoes hdoes'
  have heq := (h o s t hdoes).symm.trans (h o' s t' hdoes')
  rw [Prod.mk.injEq, Except.ok.injEq] at heq
  exact heq

theorem settled_preHook (hook : PreHook σ) : Settled found (Step.preHook hook) :=
  settled_of_code fun _ _ _ h => h

theorem settled_paramHook (type : String) (value : Datum) (hook : ParamHook σ) :
    Settled found (Step.paramHook type value hook) :=
  settled_of_code fun _ _ _ h => h

theorem settled_call (args : List Argument) : Settled found (Step.call args) :=
  settled_of_code fun _ _ _ h => h

theorem settled_rendering (values : List ReturnValue) : Settled found (Step.rendering values) :=
  settled_of_code fun _ _ _ h => h

theorem settled_population (t : ParamType) : Settled found (Step.population t) := by
  intro o o' s u u' hdoes hdoes'
  exact ⟨hdoes.1.symm.trans hdoes'.1, hdoes.2.trans hdoes'.2.symm⟩

theorem Runs.settle {step : ε → Step σ} (hstep : Settled found step) (h : Runs found (step o :: steps) s t)
    (h' : Runs found (step o' :: steps') s t') :
    o = o' ∧ ∃ u, Runs found steps u t ∧ Runs found steps' u t' := by
  cases h with
  | cons head tail =>
    cases h' with
    | cons head' tail' =>
      obtain ⟨ho, hu⟩ := hstep o o' s _ _ head head'
      subst hu
      exact ⟨ho, _, tail, tail'⟩

theorem Runs.settle_init {init : List (Code (Scope σ) Unit)} (h : Runs found (init.map .init ++ steps) s t)
    (h' : Runs found (init.map .init ++ steps') s t') :
    ∃ u, Runs found steps u t ∧ Runs found steps' u t' := by
  induction init generalizing s with
  | nil => exact ⟨s, h, h'⟩
  | cons code init ih =>
    have hcode : Settled found fun _ : Unit => Step.init code :=
      settled_of_code fun _ _ _ h => h
    obtain ⟨_, u, hrest, hrest'⟩ := @Runs.settle _ _ _ () _ _ _ () _ _ _ hcode h h'
    exact ih hrest hrest'

theorem Checks.settle {step : χ → Except Failure Unit → Step σ} (hstep : ∀ x, Settled found (step x))
    (hchecks : Checks step xs checks outcome) (hchecks' : Checks step xs checks' outcome')
    (h : Runs found (checks ++ steps) s t) (h' : Runs found (checks' ++ steps') s t') :
    checks = checks' ∧ outcome = outcome' ∧ ∃ u, Runs found steps u t ∧ Runs found steps' u t' := by
  induction hchecks generalizing checks' s with
  | done =>
    cases hchecks'
    exact ⟨rfl, rfl, s, h, h'⟩
  | pass rest ih =>
    cases hchecks' with
    | pass rest' =>
      obtain ⟨_, u, hrest, hrest'⟩ := Runs.settle (hstep _) h h'
      obtain ⟨hsteps, houtcome, hend⟩ := ih rest' hrest hrest'
      rw [hsteps]
      exact ⟨rfl, houtcome, hend⟩
    | fail =>
      obtain ⟨ho, _⟩ := Runs.settle (hstep _) h h'
      cases ho
  | fail =>
    cases hchecks' with
    | pass rest' =>
      obtain ⟨ho, _⟩ := Runs.settle (hstep _) h h'
      cases ho
    | fail =>
      obtain ⟨ho, hend⟩ := Runs.settle (hstep _) h h'
      cases ho
      exact ⟨rfl, rfl, hend⟩

theorem Preparation.settle
    (hparams : found.value.convention.params.toList = found.value.signature.params)
    (hprep : Preparation found.value prep outcome) (hprep' : Preparation found.value prep' outcome')
    (h : Runs found (prep ++ steps) s t) (h' : Runs found (prep' ++ steps') s t') :
    prep = prep' ∧ outcome = outcome' ∧ ∃ u, Runs found steps u t ∧ Runs found steps' u t' := by
  -- A supported signature declares at most one data parameter.
  have htype : ∀ t t', .data t ∈ found.value.signature.params →
      .data t' ∈ found.value.signature.params → t = t' := by
    intro t t' ht ht'
    rw [← hparams, ← ParamShape.dataType?_eq_some_iff] at ht ht'
    exact Option.some.inj (ht.symm.trans ht')
  cases hprep with
  | absent habsent =>
    cases hprep' with
    | absent => exact ⟨rfl, rfl, s, h, h'⟩
    | unpopulated ht | populated ht => cases habsent _ ht
  | unpopulated ht =>
    cases hprep' with
    | absent habsent => cases habsent _ ht
    | unpopulated ht' =>
      cases htype _ _ ht ht'
      obtain ⟨ho, hend⟩ := h.settle (settled_population _) h'
      cases ho
      exact ⟨rfl, rfl, hend⟩
    | populated ht' =>
      cases htype _ _ ht ht'
      obtain ⟨ho, _⟩ := h.settle (settled_population _) h'
      cases ho
  | populated ht hchecks =>
    cases hprep' with
    | absent habsent => cases habsent _ ht
    | unpopulated ht' =>
      cases htype _ _ ht ht'
      obtain ⟨ho, _⟩ := h.settle (settled_population _) h'
      cases ho
    | populated ht' hchecks' =>
      cases htype _ _ ht ht'
      obtain ⟨ho, u, hrest, hrest'⟩ := h.settle (settled_population _) h'
      cases ho
      obtain ⟨hsteps, houtcome, hend⟩ := hchecks.settle (settled_paramHook _ _) hchecks' hrest hrest'
      rw [hsteps, houtcome]
      exact ⟨rfl, rfl, hend⟩

theorem Runs.eq_of_nil (h : Runs found [] s t) : s = t := by
  cases h
  rfl

theorem Completion.unique (hcompletion : Completion found.value outcome steps response ending)
    (hcompletion' : Completion found.value outcome steps' response' ending')
    (h : Runs found steps s t) (h' : Runs found steps' s t') :
    steps = steps' ∧ response = response' ∧ ending = ending' ∧ t = t' := by
  cases hcompletion with
  | aborted =>
    cases hcompletion'
    exact ⟨rfl, rfl, rfl, h.eq_of_nil.symm.trans h'.eq_of_nil⟩
  | refused =>
    cases hcompletion' with
    | refused =>
      obtain ⟨ho, u, hnil, hnil'⟩ := h.settle (settled_call _) h'
      cases ho
      exact ⟨rfl, rfl, rfl, hnil.eq_of_nil.symm.trans hnil'.eq_of_nil⟩
    | rendered =>
      obtain ⟨ho, _⟩ := h.settle (settled_call _) h'
      cases ho
  | rendered =>
    cases hcompletion' with
    | refused =>
      obtain ⟨ho, _⟩ := h.settle (settled_call _) h'
      cases ho
    | rendered =>
      obtain ⟨ho, u, hrest, hrest'⟩ := h.settle (settled_call _) h'
      cases ho
      obtain ⟨ho, u, hnil, hnil'⟩ := hrest.settle (settled_rendering _) hrest'
      cases ho
      exact ⟨rfl, rfl, rfl, hnil.eq_of_nil.symm.trans hnil'.eq_of_nil⟩

theorem Handling.unique (hparams : found.value.convention.params.toList = found.value.signature.params)
    (hhandling : Handling found.value outcome steps response ending)
    (hhandling' : Handling found.value outcome steps' response' ending')
    (h : Runs found steps s t) (h' : Runs found steps' s t') :
    steps = steps' ∧ response = response' ∧ ending = ending' ∧ t = t' := by
  cases hhandling with
  | aborted =>
    cases hhandling'
    exact ⟨rfl, rfl, rfl, h.eq_of_nil.symm.trans h'.eq_of_nil⟩
  | entered preparation completion =>
    cases hhandling' with
    | entered preparation' completion' =>
      obtain ⟨hprep, houtcome, u, hrest, hrest'⟩ := preparation.settle hparams preparation' h h'
      subst houtcome
      obtain ⟨hsteps, hend⟩ := completion.unique completion' hrest hrest'
      rw [hprep, hsteps]
      exact ⟨rfl, hend⟩

/-- At most one course runs from a scope. -/
theorem Course.unique {init : List (Code (Scope σ) Unit)}
    (hparams : found.value.convention.params.toList = found.value.signature.params)
    (hcourse : Course init found.value steps response ending)
    (hcourse' : Course init found.value steps' response' ending')
    (h : Runs found steps s t) (h' : Runs found steps' s t') :
    steps = steps' ∧ response = response' ∧ ending = ending' ∧ t = t' := by
  cases hcourse with
  | mk hooks handling =>
    cases hcourse' with
    | mk hooks' handling' =>
      obtain ⟨u, hrest, hrest'⟩ := h.settle_init h'
      obtain ⟨hpre, houtcome, v, hrest, hrest'⟩ := hooks.settle settled_preHook hooks' hrest hrest'
      subst houtcome
      obtain ⟨hsteps, hend⟩ := handling.unique hparams handling' hrest hrest'
      rw [hpre, hsteps]
      exact ⟨rfl, hend⟩

end

end Signpost.Pipeline
