import Signpost.Proofs.Http.Values
import Signpost.Proofs.Pipeline.Invocation
import Signpost.Proofs.Route.Written

/-!
This module contains the headers of a response: which of them were set while the request was handled, by hooks and by
the handler, and which are left as they were rendered.
-/

namespace Signpost

open Http (HeaderName Headers Request Response)

namespace Endpoint

/-! ## Calls that set headers -/

/-- The header that a call sets, if HTTP admits its name and its value. -/
def header? (call : String × String) : Option (HeaderName × Bytes) :=
  (HeaderName.ofString? call.1).bind fun name => (Http.headerValue? call.2).map (name, ·)

namespace Code

/-- The calls that set headers while code runs, in their order. Whatever else the code does leaves the headers alone. -/
inductive Calls : {α : Type} → Code (Scope σ) α → Scope σ → List (String × String) → Prop
  | spare (h : (code s).2.context.headers = s.context.headers) : Calls code s []
  | set (name value : String) (s : Scope σ) : Calls (setHeader name value) s [(name, value)]
  | bind (result : code s = (.ok a, s')) (first : Calls code s before) (rest : Calls (f a) s' after) :
    Calls (code >>= f) s (before ++ after)
  | stop (result : code s = (.error p, s')) (first : Calls code s before) : Calls (code >>= f) s before

/-- The headers change through calls that set them, and in no other way. -/
def OnlySets (code : Code (Scope σ) α) : Prop :=
  ∀ s, ∃ calls, Calls code s calls

theorem headers_setHeader (name value : String) (s : Scope σ) :
    (setHeader name value s).2.context.headers = s.context.headers.setAll (header? (name, value)).toList := by
  unfold setHeader
  rw [bind_of_ok (context_eq s)]
  unfold Context.setHeader header?
  cases HeaderName.ofString? name with
  | none => rfl
  | some header =>
    cases Http.headerValue? value with
    | none => rfl
    | some bytes => rfl

/-- What is left in the headers is what the calls set, one after the other. -/
theorem Calls.headers_eq {code : Code (Scope σ) α} (h : Calls code s calls) :
    (code s).2.context.headers = s.context.headers.setAll (calls.filterMap header?) := by
  induction h with
  | spare h => exact h
  | set name value s =>
    rw [headers_setHeader, List.filterMap_cons, List.filterMap_nil]
    cases header? (name, value) <;> rfl
  | bind result _ _ first rest =>
    rw [result] at first
    rw [bind_of_ok result, rest, first, List.filterMap_append, Headers.setAll_append]
  | stop result _ first =>
    rw [result] at first
    rw [bind_of_error result, first]

section
variable {code : Code (Scope σ) α} {f : α → Code (Scope σ) β}

theorem onlySets_of_headers (h : ∀ s, (code s).2.context.headers = s.context.headers) : code.OnlySets := by
  intro s
  exact ⟨[], .spare (h s)⟩

theorem OnlySets.bind (hcode : code.OnlySets) (hf : ∀ a, (f a).OnlySets) : (code >>= f).OnlySets := by
  intro s
  obtain ⟨before, hbefore⟩ := hcode s
  cases hresult : code s with
  | mk result s' =>
    cases result with
    | error p => exact ⟨before, .stop hresult hbefore⟩
    | ok a =>
      obtain ⟨after, hafter⟩ := hf a s'
      exact ⟨before ++ after, .bind hresult hbefore hafter⟩

theorem onlySets_pure (a : α) : (pure a : Code (Scope σ) α).OnlySets := by
  apply onlySets_of_headers
  intro s
  rfl

theorem exists_setHeader (name value : String) (s : Scope σ) :
    ∃ outcome s', setHeader name value s = (.ok outcome, s') := by
  unfold setHeader
  rw [bind_of_ok (context_eq s)]
  cases s.context.setHeader name value with
  | error e => exact ⟨_, _, rfl⟩
  | ok c => exact ⟨_, _, rfl⟩

theorem Calls.set_bind {f : Except Failure Unit → Code (Scope σ) α} (name value : String) (s : Scope σ)
    (rest : ∀ outcome s', Calls (f outcome) s' after) : Calls (setHeader name value >>= f) s ((name, value) :: after) := by
  obtain ⟨outcome, s', h⟩ := exists_setHeader name value s
  exact .bind h (.set name value s) (rest outcome s')

theorem onlySets_inScope (code : Code σ α) : code.inScope.OnlySets := by
  apply onlySets_of_headers
  intro s
  rfl

theorem onlySets_forM {codes : List (Code (Scope σ) Unit)} (h : ∀ code ∈ codes, code.OnlySets) :
    (codes.forM id).OnlySets := by
  induction codes with
  | nil => exact onlySets_pure ()
  | cons code codes ih =>
    rw [List.forall_mem_cons] at h
    exact h.1.bind fun _ => ih h.2

end

end Code

end Endpoint

/-! ## The headers of a dispatch -/

namespace Pipeline

open Endpoint
open Endpoint.Code (Calls OnlySets)

theorem onlySets_runPre {hooks : List (Attempt (Scope σ) Unit)} (h : ∀ hook ∈ hooks, OnlySets hook.run) :
    OnlySets (hooks.forM id).run := by
  induction hooks with
  | nil => exact Code.onlySets_pure _
  | cons hook hooks ih =>
    rw [List.forall_mem_cons] at h
    change OnlySets (hook >>= fun _ => hooks.forM id).run
    rw [ExceptT.run_bind]
    apply h.1.bind
    intro outcome
    cases outcome with
    | ok _ => exact ih h.2
    | error e => exact Code.onlySets_pure _

/-- The hooks and the handler of a record change the headers only through calls that set them. -/
structure Record.OnlySets (record : Record σ) : Prop where
  pre : ∀ hook ∈ record.hooks.pre, Code.OnlySets hook.run
  call : ∀ args, Code.OnlySets (record.call args)

section
variable {record : Record σ}

theorem onlySets_prepare (record : Record σ) (args : List String) : OnlySets (prepare record args) := by
  apply Code.onlySets_of_headers
  intro s
  have hprepare : prepare record args s = ((prepare record args s).1, (prepare record args s).2) := rfl
  rw [(exists_of_prepare hprepare).1]

theorem Record.OnlySets.invoke (h : record.OnlySets) (data : Option (String × Binding.Datum)) :
    Code.OnlySets (invoke record data) := by
  apply (h.call _).bind
  intro outcome
  cases outcome with
  | error e => exact Code.onlySets_pure _
  | ok values => exact (Code.onlySets_inScope _).bind fun _ => Code.onlySets_pure _

theorem Record.OnlySets.drive (h : record.OnlySets) (args : List String) : Code.OnlySets (drive record args) := by
  apply (onlySets_runPre h.pre).bind
  intro outcome
  cases outcome with
  | error e => exact Code.onlySets_pure _
  | ok _ =>
    apply (onlySets_prepare record args).bind
    intro prepared
    cases prepared with
    | error abort => exact Code.onlySets_pure _
    | ok data => exact h.invoke data

end

namespace Dispatcher

variable {d : Dispatcher σ} {fresh : RequestId} {request : Request} {found : Route.Match (Record σ)}
  {world world' : σ} {response : Response} {ending : Ending}

/-- The code that runs for a matched request, from its fresh context to the response that is rendered. -/
def handling (d : Dispatcher σ) (found : Route.Match (Record σ)) : Code (Scope σ) (Response × Ending) := do
  d.contextInit.forM id
  drive found.value found.args

theorem onlySets_handling (hinit : ∀ code ∈ d.contextInit, OnlySets code) (hrecord : found.value.OnlySets) :
    OnlySets (d.handling found) := by
  apply (Code.onlySets_forM hinit).bind
  intro _
  exact hrecord.drive found.args

/--
The headers of a response. A header that was set while the request was handled has the value that it was set to last,
whatever was rendered and however the request left the pipeline, and any other header is left as it was rendered. The
server has its own name in any case. In general, headers that are merged in have the values that they come with, and
the others keep theirs.
-/
theorem values_of_dispatch (hfound : d.table.match? request.method.token request.path = some found)
    (hinit : ∀ code ∈ d.contextInit, OnlySets code) (hrecord : found.value.OnlySets)
    (h : d.dispatchWithEnding fresh request world = (.ok (response, ending), world')) :
    (∃ rendered s, d.handling found (d.scope fresh request world) = (.ok (rendered, ending), s) ∧
      (∃ calls, Calls (d.handling found) (d.scope fresh request world) calls) ∧
      ∀ calls, Calls (d.handling found) (d.scope fresh request world) calls → ∀ name,
        response.headers.values name =
          if name = .server then [Text.utf8 Response.serverName]
          else
            match Headers.lastSet? (calls.filterMap header?) name with
            | some value => [value]
            | none => rendered.headers.values name) ∧
    ∀ (own extra : Headers) (name : HeaderName),
      (own.merge extra).values name = if extra.contains name then extra.values name else own.values name := by
  refine ⟨?_, Headers.values_merge⟩
  obtain ⟨rendered, s, hrun, rfl, _⟩ := (dispatchWithEnding_eq_ok_iff hfound).1 h
  refine ⟨rendered, s, hrun, onlySets_handling hinit hrecord _, ?_⟩
  intro calls hcalls name
  have hset : s.context.headers = Headers.empty.setAll (calls.filterMap header?) := by
    have hheaders := hcalls.headers_eq
    rw [show d.handling found (d.scope fresh request world) = _ from hrun] at hheaders
    exact hheaders
  have hvalues := Headers.values_setAll .empty (calls.filterMap header?) name
  rw [← hset] at hvalues
  unfold Response.withServer Response.mergeHeaders
  dsimp only
  rw [Headers.values_insert]
  by_cases hserver : name = .server
  . rw [if_pos hserver, if_pos hserver.symm]
  . rw [if_neg hserver, if_neg (Ne.symm hserver), Headers.values_merge]
    cases hlast : Headers.lastSet? (calls.filterMap header?) name with
    | none =>
      rw [hlast] at hvalues
      have hnone : s.context.headers.contains name = false := Headers.values_eq_nil_iff.1 hvalues
      rw [hnone, if_neg Bool.false_ne_true]
    | some value =>
      rw [hlast] at hvalues
      have hsome : s.context.headers.contains name = true := by
        rw [← Bool.not_eq_false, ← Headers.values_eq_nil_iff, hvalues]
        apply List.cons_ne_nil
      rw [if_pos hsome]
      exact hvalues

/-- A hook that sets headers and then refuses every request. -/
def refusing : Attempt (Scope Unit) Unit := ExceptT.mk do
  let _ ← Code.setHeader "X-Trace" "first"
  let _ ← Code.setHeader "Content-Type" "text/html"
  let _ ← Code.setHeader "server" "other"
  let _ ← Code.setHeader "x-trace" "second"
  return .error (.ofMessage "refused")

/-- The calls of the hook. -/
def refusingCalls : List (String × String) :=
  [("X-Trace", "first"), ("Content-Type", "text/html"), ("server", "other"), ("x-trace", "second")]

theorem calls_refusing (s : Scope Unit) : Calls refusing.run s refusingCalls :=
  .set_bind _ _ s fun _ s => .set_bind _ _ s fun _ s => .set_bind _ _ s fun _ s => .set_bind _ _ s fun _ _ => .spare rfl

def refused : Record Unit where
  name := "GetReport"
  call _ := return .ok []
  signature := ⟨[], []⟩
  convention := ⟨.none, .none⟩
  hooks := ⟨[refusing], [], []⟩

theorem values_of_dispatch_refused :
    let d : Dispatcher Unit := .ofTable (.single "*" (.fixed "get/report") refused)
    ∃ response, d.dispatchWithEnding ⟨0⟩ (.ofUri .get "/report") () = (.ok (response, .aborted .preHook), ()) ∧
      response.headers.values ⟨"x-trace"⟩ = [Text.utf8 "second"] ∧
      response.headers.values .contentType = [Text.utf8 "text/html"] ∧
      response.headers.values .server = [Text.utf8 "jetrouter"] := by
  intro d
  let request := Request.ofUri .get "/report"
  have hfound : d.table.match? request.method.token request.path = some ⟨⟨refused, []⟩, "get/report"⟩ := by
    unfold Route.Table.match?
    rw [show Route.requestKey request.method.token request.path = "get/report" by decide +kernel]
    rfl
  have hrun : ∃ response, d.dispatchWithEnding ⟨0⟩ request () = (.ok (response, .aborted .preHook), ()) := by
    unfold dispatchWithEnding
    rw [hfound]
    exact ⟨_, rfl⟩
  obtain ⟨response, hrun⟩ := hrun
  have hrecord : refused.OnlySets := by
    refine ⟨?_, fun _ => Code.onlySets_pure _⟩
    rw [show refused.hooks.pre = [refusing] from rfl, List.forall_mem_singleton]
    exact fun s => ⟨_, calls_refusing s⟩
  obtain ⟨⟨rendered, s, hhandling, _, hvalues⟩, _⟩ := values_of_dispatch hfound nofun hrecord hrun
  have hcalls : Calls (d.handling ⟨⟨refused, []⟩, "get/report"⟩) (d.scope ⟨0⟩ request ()) refusingCalls := by
    have hrefusing : ∃ s', refusing.run (d.scope ⟨0⟩ request ()) = (.ok (.error (.ofMessage "refused")), s') := ⟨_, rfl⟩
    obtain ⟨s', hrefusing⟩ := hrefusing
    have hpre : Calls refused.hooks.runPre.run (d.scope ⟨0⟩ request ()) refusingCalls := by
      change Calls (refusing >>= fun _ => List.forM [] id).run _ _
      rw [ExceptT.run_bind]
      exact .bind hrefusing (calls_refusing _) (.spare rfl)
    have hresult : refused.hooks.runPre.run (d.scope ⟨0⟩ request ()) = (.ok (.error (.ofMessage "refused")), s') :=
      Attempt.run_bind_of_error hrefusing
    exact .bind rfl (.spare rfl) (.bind hresult hpre (.spare rfl))
  have hlast : Headers.lastSet? (refusingCalls.filterMap header?) ⟨"x-trace"⟩ = some (Text.utf8 "second") ∧
      Headers.lastSet? (refusingCalls.filterMap header?) .contentType = some (Text.utf8 "text/html") := by
    decide +kernel
  refine ⟨response, hrun, ?_, ?_, ?_⟩
  . rw [hvalues _ hcalls, if_neg (by decide), hlast.1]
  . rw [hvalues _ hcalls, if_neg (by decide), hlast.2]
  . exact hvalues _ hcalls .server

end Dispatcher

end Pipeline

end Signpost
