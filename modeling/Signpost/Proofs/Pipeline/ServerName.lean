import Signpost.Proofs.Pipeline.Visit
import Signpost.Proofs.Route.Written

/-!
This module contains how responses name the server. Whatever is dispatched has the one name of the server, and what
a middleware answers has the name that the middleware gave it.
-/

namespace Signpost.Pipeline

open Endpoint (Panic)
open Http (HeaderName Request Response)

/-- The values of a response that name the server. -/
def serverNames (response : Response) : List Bytes :=
  response.headers.values .server

/-- The middleware passes on every response with the names of the server that it had. -/
def Middleware.KeepsServer (m : Middleware σ) : Prop :=
  ∀ head latency given w, serverNames (m.after head latency given w).1 = serverNames given

theorem serverNames_withServer (response : Response) :
    serverNames response.withServer = [Text.utf8 Response.serverName] := by
  unfold serverNames Response.withServer
  dsimp only
  rw [Http.Headers.values_insert_self]

/-- Whatever the handler has set, a dispatch names the server. -/
theorem Dispatcher.serverNames_of_dispatch {d : Dispatcher σ} {request : Request}
    (h : d.dispatch fresh request w = (.ok response, w')) :
    serverNames response = [Text.utf8 Response.serverName] := by
  unfold dispatch at h
  obtain ⟨ended, w₁, hended, h⟩ := Endpoint.Code.exists_of_bind h
  cases h
  unfold dispatchWithEnding at hended
  cases hfound : d.table.match? request.method.token request.path with
  | none =>
    rw [hfound] at hended
    cases hended
    exact serverNames_withServer .notFound
  | some found =>
    rw [hfound] at hended
    obtain ⟨⟨matched, ending⟩, w₂, _, h⟩ := Endpoint.Code.exists_of_bind hended
    cases h
    exact serverNames_withServer matched

theorem Touches.serverNames_eq (h : Touches head latency ms given turns response)
    (hturns : Turns d turns w w') (hkeeps : ∀ m ∈ ms, m.KeepsServer) : serverNames response = serverNames given := by
  induction h generalizing w with
  | nil => rfl
  | @cons ms result turns response m given rest ih =>
    rw [List.forall_mem_cons] at hkeeps
    obtain ⟨w₁, hdoes, htail⟩ := turns_cons_iff.1 hturns
    have hresult : (m.after head latency given w).1 = result := congrArg Prod.fst hdoes
    rw [ih htail hkeeps.2, ← hresult]
    exact hkeeps.1 head latency given w

/-- A reply names the server, unless a middleware has made it. -/
theorem Replies.serverNames_eq (h : Replies occasion request early turns latency given)
    (hturns : Turns d turns w w') :
    serverNames given = early.elim [Text.utf8 Response.serverName] serverNames := by
  cases h with
  | answered => rfl
  | returned =>
    obtain ⟨w₁, hdispatch, _⟩ := turns_cons_iff.1 hturns
    exact Dispatcher.serverNames_of_dispatch hdispatch
  | panicked => exact serverNames_withServer (.failure 500 Service.panicBody)

namespace Service

variable {s : Service σ}

/--
A response has the one name of the server if its request was dispatched, also if there is no route, if a hook or the
handler fails and if the handler panics. The response to a request that a middleware answers has the names that were
in the answer.
-/
theorem serverNames_handle (hkeeps : ∀ m ∈ s.middlewares, m.KeepsServer) (occasion : Occasion) (request : Request)
    (w : σ) :
    serverNames (s.handle occasion request w).1
      =
    (s.runBefore request.head w).1.elim [Text.utf8 Response.serverName] serverNames := by
  cases hlook : s.runBefore request.head w with
  | mk early w₁ =>
    obtain ⟨dispatching, latency, given, w₂, hreplies, hdispatching, hgiven⟩ := exists_replies hlook
    obtain ⟨touches, response, w₃, htouches, hturns, hresponse⟩ :=
      exists_touches (d := s.dispatcher) s.middlewares given w₂
    have hhandle : s.handle occasion request w = (response, w₃) := hgiven.trans hresponse
    rw [hhandle, htouches.serverNames_eq hturns hkeeps]
    exact hreplies.serverNames_eq hdispatching

/-- A route whose handler gives the server another name. -/
def renamer : Record σ where
  name := "GetRenamed"
  call _ := do
    let _ ← Endpoint.Code.setHeader "server" "other"
    return .ok []
  signature := ⟨[.context], []⟩
  convention := ⟨.context, .none⟩
  hooks := ⟨[], [], []⟩

theorem keepsServer_closing (path : String) : (Middleware.closing path : Middleware σ).KeepsServer := by
  intro head latency given w
  rfl

theorem serverNames_handle_renaming :
    let s : Service Unit := ⟨.ofTable (.single "*" (.fixed "get/renamed") renamer), [.closing "/closed"]⟩
    serverNames (s.handle default (.ofUri .get "/renamed") ()).1 = [Text.utf8 "jetrouter"] := by
  intro s
  have hkeeps : ∀ m ∈ s.middlewares, m.KeepsServer := by
    intro m hm
    rw [List.mem_singleton.1 hm]
    exact keepsServer_closing "/closed"
  have hopen : (s.runBefore (Request.ofUri .get "/renamed").head ()).1 = none := by decide +kernel
  rw [serverNames_handle hkeeps, hopen]
  rfl

/-- A middleware that answers early has to name the server by itself. This one leaves its answer without a name. -/
theorem serverNames_handle_closed :
    let s : Service Unit := ⟨.ofTable (.empty "*"), [.closing "/closed"]⟩
    (∀ m ∈ s.middlewares, m.KeepsServer) ∧
      serverNames (s.handle default (.ofUri .get "/closed") ()).1 ≠ [Text.utf8 "jetrouter"] := by
  intro s
  constructor
  . intro m hm
    rw [List.mem_singleton.1 hm]
    exact keepsServer_closing "/closed"
  . decide +kernel

end Service

end Signpost.Pipeline
