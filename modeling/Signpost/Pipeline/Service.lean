import Signpost.Http.Message
import Signpost.Pipeline.Dispatch

/-!
This module contains the service: middlewares that see every request and every response, around a dispatcher
whose panics become responses.
-/

namespace Signpost.Pipeline

open Http (Request Response)

/-- Code around the handling of requests. It sees requests without their bodies. -/
structure Middleware (σ : Type) where
  /-- Look at a request, and answer it if it is not to be dispatched. -/
  before : Request → StateM σ (Option Response)
  /-- Look at the response, which took so long, and change it. -/
  after : Request → Duration → Response → StateM σ Response

/-- What only the surroundings know about the handling of a request. -/
structure Occasion where
  /-- The identifier of a request that carries none. -/
  fresh : RequestId
  /-- How long the dispatch takes. -/
  latency : Duration
  deriving Inhabited

structure Service (σ : Type) where
  dispatcher : Dispatcher σ
  middlewares : List (Middleware σ)

/-- A middleware that does nothing. -/
def Middleware.passive : Middleware σ :=
  ⟨fun _ => return none, fun _ _ response => return response⟩

namespace Service

def panicBody : String := "500 Internal Server Error"

/-- The response to a request whose dispatch panicked. -/
def panicResponse : Response :=
  (Response.failure 500 panicBody).withServer

/-- The response to what cannot be read as a request. -/
def unreadableResponse : Response :=
  .failure 400 "400 Bad Request"

/-- Show a request to all middlewares. The first answer counts. -/
def runBefore (s : Service σ) (head : Request) : StateM σ (Option Response) :=
  s.middlewares.foldlM
    (fun early m => do
      let answer ← m.before head
      return early <|> answer)
    none

/-- Show a response to all middlewares, each of which can change it for the next. -/
def runAfter (s : Service σ) (head : Request) (latency : Duration) (response : Response) :
    StateM σ Response :=
  s.middlewares.foldlM (fun response m => m.after head latency response) response

/-- Dispatch a request. A panic is caught. -/
def dispatch (s : Service σ) (fresh : RequestId) (request : Request) : StateM σ Response := do
  match ← (s.dispatcher.dispatch fresh request).run with
  | .ok response => return response
  | .error _ => return panicResponse

/-- Handle a request. One that a middleware answers is not dispatched and takes no time. -/
def handle (s : Service σ) (occasion : Occasion) (request : Request) : StateM σ Response := do
  let head := request.head
  match ← s.runBefore head with
  | some response => s.runAfter head ⟨0⟩ response
  | none =>
    let response ← s.dispatch occasion.fresh request
    s.runAfter head occasion.latency response

/-- Answer a message. No middleware sees one that carries no request. -/
def answer (s : Service σ) (occasion : Occasion) (message : Http.Message) : StateM σ Http.Reply := do
  match message.request? with
  | some request => return (← s.handle occasion request).reply
  | none => return unreadableResponse.reply

end Service

end Signpost.Pipeline
