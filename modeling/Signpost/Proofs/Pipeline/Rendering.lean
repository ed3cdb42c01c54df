import Signpost.Proofs.Json.RoundTrip
import Signpost.Proofs.Pipeline.Dispatch

/-!
This module contains the theory of rendering: what becomes of the values that a callable gave back. A present error
is shown before anything else, and only data that comes before its error goes through the hooks on results.
-/

namespace Signpost.Pipeline

open Endpoint
open Http (Response)

/--
Data goes through hooks one after the other. Each gets what the one before it made of the data, in the state that
one left, and the first that fails or gives up is the last that runs.
-/
inductive Pipes : List (ResultHook σ) → Json → σ → Except Panic (Except Failure Json) → σ → Prop
  | done : Pipes [] data s (.ok (.ok data)) s
  | pass {hook : ResultHook σ} (made : (hook data).run s = (.ok (.ok data'), s'))
    (rest : Pipes hooks data' s' outcome s'') : Pipes (hook :: hooks) data s outcome s''
  | fail {hook : ResultHook σ} (failed : (hook data).run s = (.ok (.error e), s')) :
    Pipes (hook :: hooks) data s (.ok (.error e)) s'
  | panic {hook : ResultHook σ} (gaveUp : (hook data).run s = (.error p, s')) :
    Pipes (hook :: hooks) data s (.error p) s'

/-- How data is shown: nil and null not at all, a text as it is, and any other value in JSON. -/
inductive Shows : Option Json → Response → Prop
  | nil : Shows none ⟨200, ⟨[]⟩, []⟩
  | null : Shows (some .null) ⟨200, ⟨[]⟩, []⟩
  | text (s : String) :
    Shows (some (.text s)) ⟨200, ⟨[(⟨"content-type"⟩, Text.utf8 "text/plain")]⟩, Text.utf8 s⟩
  | json {value : Json} (notNull : value ≠ .null) (notText : ∀ s, value ≠ .text s) :
    Shows (some value)
      ⟨200, ⟨[(⟨"content-type"⟩, Text.utf8 "application/json")]⟩, Text.utf8 value.compact⟩

/-- What is answered when the data went through the hooks. If one of them gave up, nothing is. -/
inductive Answers : Except Panic (Except Failure Json) → Except Panic Response → Prop
  | ok (shows : Shows (some data) response) : Answers (.ok (.ok data)) (.ok response)
  | error (e : Failure) : Answers (.ok (.error e)) (.ok e.response)
  | panic (p : Panic) : Answers (.error p) (.error p)

/-- The response to what came of an attempt at the data. -/
def responseTo : Except Failure Json → Response
  | .ok data => dataResponse (some data)
  | .error e => e.response

/-- The values that a callable of a shape gives back, with the error and the data among them. -/
inductive Returns : ReturnShape → Option Failure → Option Json → List ReturnValue → Prop
  | none : Returns .none none none []
  | error (e : Option Failure) : Returns .error e none [.error e]
  | data (d : Option Json) : Returns .data none d [.data d]
  | errorData (e : Option Failure) (d : Option Json) : Returns .errorData e d [.error e, .data d]
  | dataError (e : Option Failure) (d : Option Json) : Returns .dataError e d [.data d, .error e]

/-! ## Passing data through hooks -/

/-- The hooks of a result are a piece of code that does what the relation says, and nothing else. -/
theorem run_foldlM_iff {hooks : List (ResultHook σ)} {data : Json} {s s' : σ}
    {outcome : Except Panic (Except Failure Json)} :
    (hooks.foldlM (fun data hook => hook data) data : Attempt σ Json).run s = (outcome, s') ↔
      Pipes hooks data s outcome s' := by
  induction hooks generalizing data s with
  | nil =>
    constructor
    . intro h
      cases h
      exact .done
    . intro h
      cases h
      rfl
  | cons hook hooks ih =>
    rw [List.foldlM_cons]
    constructor
    . intro h
      -- the other hooks run only if the first gives data, and then in the state that it left
      cases hhook : (hook data).run s with
      | mk result s₁ =>
        cases result with
        | error p =>
          rw [Attempt.run_bind_of_panic hhook] at h
          cases h
          exact .panic hhook
        | ok result =>
          cases result with
          | error e =>
            rw [Attempt.run_bind_of_error hhook] at h
            cases h
            exact .fail hhook
          | ok data' =>
            rw [Attempt.run_bind_of_ok hhook, ih] at h
            exact .pass hhook h
    . intro h
      cases h with
      | pass made rest => rw [Attempt.run_bind_of_ok made, ih.2 rest]
      | fail failed => exact Attempt.run_bind_of_error failed
      | panic gaveUp => exact Attempt.run_bind_of_panic gaveUp

/-! ## Showing data -/

theorem shows_iff {data : Option Json} {response : Response} :
    Shows data response ↔ response = dataResponse data := by
  constructor
  . intro h
    cases h with
    | nil => rfl
    | null => rfl
    | text s => rfl
    | @json value notNull notText =>
      cases value with
      | null => exact absurd rfl notNull
      | text s => exact absurd rfl (notText s)
      | _ => rfl
  . rintro rfl
    cases data with
    | none => exact .nil
    | some value =>
      cases value with
      | null => exact .null
      | text s => exact .text s
      | _ => exact .json nofun nofun

theorem answers_iff {outcome : Except Panic (Except Failure Json)} {result : Except Panic Response} :
    Answers outcome result ↔ result = outcome.map responseTo := by
  constructor
  . intro h
    cases h with
    | ok shows => exact congrArg Except.ok (shows_iff.1 shows)
    | error e => rfl
    | panic p => rfl
  . rintro rfl
    cases outcome with
    | error p => exact .panic p
    | ok attempt =>
      cases attempt with
      | ok data => exact .ok (shows_iff.2 rfl)
      | error e => exact .error e

/-! ## The values of a shape -/

theorem exists_of_kind_eq_error {value : ReturnValue} (h : value.kind = .error) : ∃ e, value = .error e := by
  cases value with
  | error e => exact ⟨e, rfl⟩
  | data d => cases h

theorem exists_of_kind_eq_data {value : ReturnValue} (h : value.kind = .data) : ∃ d, value = .data d := by
  cases value with
  | error e => cases h
  | data d => exact ⟨d, rfl⟩

theorem exists_returns {shape : ReturnShape} {values : List ReturnValue}
    (h : values.map ReturnValue.kind = shape.toList) : ∃ e d, Returns shape e d values := by
  cases shape with
  | none =>
    rw [List.map_eq_nil_iff.1 h]
    exact ⟨_, _, .none⟩
  | error =>
    obtain ⟨a, rfl, ha⟩ := List.map_eq_singleton_iff.1 h
    obtain ⟨e, rfl⟩ := exists_of_kind_eq_error ha
    exact ⟨_, _, .error e⟩
  | data =>
    obtain ⟨a, rfl, ha⟩ := List.map_eq_singleton_iff.1 h
    obtain ⟨d, rfl⟩ := exists_of_kind_eq_data ha
    exact ⟨_, _, .data d⟩
  | errorData =>
    obtain ⟨a, rest, rfl, ha, hrest⟩ := List.map_eq_cons_iff.1 h
    obtain ⟨b, rfl, hb⟩ := List.map_eq_singleton_iff.1 hrest
    obtain ⟨e, rfl⟩ := exists_of_kind_eq_error ha
    obtain ⟨d, rfl⟩ := exists_of_kind_eq_data hb
    exact ⟨_, _, .errorData e d⟩
  | dataError =>
    obtain ⟨a, rest, rfl, ha, hrest⟩ := List.map_eq_cons_iff.1 h
    obtain ⟨b, rfl, hb⟩ := List.map_eq_singleton_iff.1 hrest
    obtain ⟨d, rfl⟩ := exists_of_kind_eq_data ha
    obtain ⟨e, rfl⟩ := exists_of_kind_eq_error hb
    exact ⟨_, _, .dataError e d⟩

namespace Returns

variable {shape : ReturnShape} {e : Option Failure} {d : Option Json} {values : List ReturnValue} {hooks : Hooks σ}

theorem error_mem_iff (h : Returns shape e d values) {failure : Failure} :
    .error (some failure) ∈ values ↔ e = some failure := by
  cases h <;> simp [eq_comm]

theorem data_mem_iff (h : Returns shape e d values) {data : Json} :
    .data (some data) ∈ values ↔ d = some data := by
  cases h <;> simp [eq_comm]

theorem render_of_error {failure : Failure} (h : Returns shape (some failure) d values) :
    render hooks shape values = pure failure.response := by
  cases h <;> rfl

/-- The hooks have no part in the answer unless data comes before its error. -/
theorem render_of_data (h : Returns shape .none d values) (hshape : shape = .dataError → d = .none) :
    render hooks shape values = pure (dataResponse d) := by
  cases h with
  | none => rfl
  | error => rfl
  | data => rfl
  | errorData => rfl
  | dataError =>
    rw [hshape rfl]
    rfl

/-- Without hooks the data is passed through none. -/
theorem render_of_dataError {data : Json} (h : Returns .dataError .none (some data) values) :
    render hooks .dataError values = (hooks.runResult data).run >>= fun attempt => pure (responseTo attempt) := by
  cases h
  by_cases hresult : hooks.hasResult = true
  . refine (if_pos hresult).trans ?_
    congr
    funext attempt
    cases attempt <;> rfl
  . have hnone : hooks.result = [] := by simpa [Hooks.hasResult] using hresult
    have hrun : hooks.runResult data = pure data := by
      rw [Hooks.runResult, hnone]
      rfl
    rw [hrun]
    exact if_neg hresult

theorem run_render_iff {data : Json} (h : Returns .dataError .none (some data) values) {s s' : σ}
    {result : Except Panic Response} :
    render hooks .dataError values s = (result, s') ↔
      ∃ outcome, Pipes hooks.result data s outcome s' ∧ Answers outcome result := by
  simp only [answers_iff, ← run_foldlM_iff]
  rw [h.render_of_dataError, Code.bind_pure_eq, Hooks.runResult]
  constructor
  . intro hrun
    cases hrun
    exact ⟨_, rfl, rfl⟩
  . rintro ⟨outcome, hrun, rfl⟩
    rw [Prod.mk.injEq]
    constructor
    . exact congrArg (fun run => run.1.map responseTo) hrun
    . exact congrArg (fun run => run.2) hrun

end Returns

/-! ## Rendering -/

theorem Hooks.runPre_append (hooks more : Hooks σ) :
    (hooks.append more).runPre = hooks.runPre >>= fun _ => more.runPre :=
  List.forM_append

theorem Hooks.runParam_append (hooks more : Hooks σ) (type : String) (value : Binding.Datum) :
    (hooks.append more).runParam type value = hooks.runParam type value >>= fun _ => more.runParam type value :=
  List.forM_append

theorem Hooks.runResult_append (hooks more : Hooks σ) (data : Json) :
    (hooks.append more).runResult data = hooks.runResult data >>= more.runResult :=
  List.foldlM_append

/--
A present error is the answer whatever the data, and without one the data is, as it is shown. Only data that
comes before its error goes through the hooks first, up to the first that fails, whose error is then the answer.
In every other case the hooks do not run: the answer is the same for all hooks and leaves every state alone. The
hooks of one set and another run as those of the one and then those of the other. A value that is shown in JSON is
read back from its text, which has no blanks but those in the texts of the value.
-/
theorem render_of_kinds (hooks : Hooks σ) {shape : ReturnShape} {values : List ReturnValue}
    (hkinds : values.map ReturnValue.kind = shape.toList) :
    (∀ e, .error (some e) ∈ values → render hooks shape values = pure e.response) ∧
    ((∀ e, .error (some e) ∉ values) →
      ((∀ data, .data (some data) ∉ values) →
        ∃ response, Shows none response ∧ render hooks shape values = pure response) ∧
      (∀ data, .data (some data) ∈ values → shape ≠ .dataError →
        ∃ response, Shows (some data) response ∧ render hooks shape values = pure response) ∧
      (∀ data, .data (some data) ∈ values → shape = .dataError → ∀ s result s',
        render hooks shape values s = (result, s') ↔
          ∃ outcome, Pipes hooks.result data s outcome s' ∧ Answers outcome result)) ∧
    (∀ more : Hooks σ,
      (hooks.append more).runPre = (do hooks.runPre; more.runPre) ∧
      (∀ type value, (hooks.append more).runParam type value
        = (do hooks.runParam type value; more.runParam type value)) ∧
      (∀ data, (hooks.append more).runResult data = (do more.runResult (← hooks.runResult data)))) ∧
    ∀ value, Json.Readable 127 value →
      Json.ofBytes? (Text.utf8 value.compact) = .ok value ∧
        ∀ c ∈ value.compact.toList, Json.IsBlank c → ∃ s, Json.HasText s value ∧ c ∈ s.toList := by
  obtain ⟨error, data, h⟩ := exists_returns hkinds
  refine ⟨?_, ?_, ?_, ?_⟩
  . intro e he
    rw [h.error_mem_iff] at he
    subst he
    exact h.render_of_error
  . intro hnone
    have herror : error = none :=
      Option.eq_none_iff_forall_ne_some.2 fun e he => hnone e (h.error_mem_iff.2 he)
    subst herror
    refine ⟨?_, ?_, ?_⟩
    . intro hnil
      have hdata : data = none :=
        Option.eq_none_iff_forall_ne_some.2 fun v hv => hnil v (h.data_mem_iff.2 hv)
      subst hdata
      exact ⟨_, shows_iff.2 rfl, h.render_of_data fun _ => rfl⟩
    . intro v hv hshape
      rw [h.data_mem_iff] at hv
      subst hv
      exact ⟨_, shows_iff.2 rfl, h.render_of_data fun heq => absurd heq hshape⟩
    . intro v hv hshape s result s'
      rw [h.data_mem_iff] at hv
      subst hv hshape
      exact h.run_render_iff
  . intro more
    exact ⟨hooks.runPre_append more, hooks.runParam_append more, hooks.runResult_append more⟩
  . intro value hvalue
    exact ⟨Json.ofText?_compact hvalue, fun _ hc hblank => hvalue.exists_of_isBlank hblank hc⟩

/-- A hook that counts its runs. -/
def ResultHook.counting : ResultHook Nat := fun data => do
  modify (· + 1)
  return data

/--
The hook after the one that fails does not count its run. A text in data alone is shown without a run, and the JSON
of an object is read back.
-/
theorem render_of_kinds_failing :
    let e := Failure.ofMessage "refused"
    let hooks : Hooks Nat := ⟨[], [], [.counting, fun _ => throw e, .counting]⟩
    let value : Json := .object [("a", .array [.number (.int (-1)), .text "x y"])]
    [ReturnValue.data (some (.bool true)), .error none].map ReturnValue.kind = ReturnShape.dataError.toList ∧
      render hooks .dataError [.data (some (.bool true)), .error none] 0 = (.ok e.response, 1) ∧
      [ReturnValue.data (some (.text "hi"))].map ReturnValue.kind = ReturnShape.data.toList ∧
      render hooks .data [.data (some (.text "hi"))] 0
        = (.ok ⟨200, ⟨[(⟨"content-type"⟩, Text.utf8 "text/plain")]⟩, Text.utf8 "hi"⟩, 0) ∧
      value.compact = "\x7b\"a\":[-1,\"x y\"]\x7d" ∧ Json.ofBytes? (Text.utf8 value.compact) = .ok value := by
  intro e hooks value
  have hkinds : [ReturnValue.data (some (.bool true)), .error none].map ReturnValue.kind
      = ReturnShape.dataError.toList := rfl
  have hkinds' : [ReturnValue.data (some (.text "hi"))].map ReturnValue.kind = ReturnShape.data.toList := rfl
  refine ⟨hkinds, ?_, hkinds', ?_, by decide +kernel, ?_⟩
  . obtain ⟨-, hdata, -⟩ := render_of_kinds hooks hkinds
    refine ((hdata (by simp)).2.2 (.bool true) (by simp) rfl 0 _ 1).2 ?_
    exact ⟨_, .pass rfl (.fail rfl), .error e⟩
  . obtain ⟨-, hdata, -⟩ := render_of_kinds hooks hkinds'
    obtain ⟨response, hshows, hrender⟩ := (hdata (by simp)).2.1 (.text "hi") (by simp) nofun
    rw [hrender]
    cases hshows with
    | text => rfl
    | json notNull notText => exact absurd rfl (notText "hi")
  . obtain ⟨-, -, -, hread⟩ := render_of_kinds hooks hkinds
    have hitems : ∀ item ∈ [Json.number (.int (-1)), .text "x y"], Json.Readable 125 item := by
      simp only [List.forall_mem_cons]
      exact ⟨.int _ (by decide) (by decide), .text _, nofun⟩
    have hfields : ∀ field ∈ [("a", Json.array [.number (.int (-1)), .text "x y"])], Json.Readable 126 field.2 := by
      simp only [List.forall_mem_singleton]
      exact .array hitems
    exact (hread value (.object (List.pairwise_singleton _ _) hfields)).1

end Signpost.Pipeline
