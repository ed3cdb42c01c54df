import Mathlib.Data.List.Forall2
import Signpost.Pipeline.Service
import Signpost.Proofs.Endpoint.Code

/-!
This module contains the visit of a request to the service: the turns that the middlewares and the dispatcher take,
in which order, and which response comes of them.
-/

namespace Signpost.Pipeline

open Endpoint
open Http (Request Response)

/-- A middleware that answers the requests for one path, which is closed. -/
def Middleware.closing (path : String) : Middleware σ where
  before head := return if head.path = path then some (.failure 503 "closed") else none
  after _ _ response := return response

/-- A turn of a middleware or of the dispatcher, with what came of it. -/
inductive Turn (σ : Type) where
  | before (m : Middleware σ) (head : Request) (answer : Option Response)
  | dispatch (fresh : RequestId) (request : Request) (outcome : Except Panic Response)
  | after (m : Middleware σ) (head : Request) (latency : Duration) (given result : Response)

/-- A turn without what came of it. -/
inductive Act (σ : Type) where
  | look (m : Middleware σ) (head : Request)
  | dispatch (fresh : RequestId) (request : Request)
  | touch (m : Middleware σ) (head : Request) (latency : Duration)

namespace Turn

def act : Turn σ → Act σ
  | .before m head _ => .look m head
  | .dispatch fresh request _ => .dispatch fresh request
  | .after m head latency _ _ => .touch m head latency

/-- The answer of a middleware that looks at a request. -/
def answer? : Turn σ → Option Response
  | .before _ _ answer => answer
  | _ => none

/-- What a turn does to the state of the application. -/
def Does (d : Dispatcher σ) (w w' : σ) : Turn σ → Prop
  | .before m head answer => m.before head w = (answer, w')
  | .dispatch fresh request outcome => d.dispatch fresh request w = (outcome, w')
  | .after m head latency given result => m.after head latency given w = (result, w')

end Turn

/-- The turns are taken one after the other. -/
inductive Turns (d : Dispatcher σ) : List (Turn σ) → σ → σ → Prop where
  | nil : Turns d [] w w
  | cons (head : turn.Does d w w') (tail : Turns d turns w' w'') : Turns d (turn :: turns) w w''

section
variable {d : Dispatcher σ}

theorem turns_nil_iff : Turns d [] w w' ↔ w' = w := by
  constructor
  . intro h
    cases h
    rfl
  . intro h
    rw [h]
    exact .nil

theorem turns_cons_iff : Turns d (turn :: turns) w w'' ↔ ∃ w', turn.Does d w w' ∧ Turns d turns w' w'' := by
  constructor
  . intro h
    cases h with
    | cons head tail => exact ⟨_, head, tail⟩
  . rintro ⟨w', head, tail⟩
    exact .cons head tail

theorem turns_append_iff :
    Turns d (before ++ after) w w'' ↔ ∃ w', Turns d before w w' ∧ Turns d after w' w'' := by
  induction before generalizing w with
  | nil => simp [turns_nil_iff]
  | cons turn before ih =>
    rw [List.cons_append, turns_cons_iff]
    simp only [turns_cons_iff, ih]
    constructor
    . rintro ⟨w₁, head, w', hbefore, hafter⟩
      exact ⟨w', ⟨w₁, head, hbefore⟩, hafter⟩
    . rintro ⟨w', ⟨w₁, head, hbefore⟩, hafter⟩
      exact ⟨w₁, head, w', hbefore, hafter⟩

end

/-! ## The order of the turns -/

/-- Middlewares look at a request one after the other. The first answer is kept. -/
inductive Looks (head : Request) :
    List (Middleware σ) → Option Response → List (Turn σ) → Option Response → Prop where
  | nil : Looks head [] early [] early
  | cons (rest : Looks head ms (early <|> answer) turns answered) :
    Looks head (m :: ms) early (.before m head answer :: turns) answered

/-- A request that is not answered yet is dispatched, and a panic has a response of its own. -/
inductive Replies (occasion : Occasion) (request : Request) :
    Option Response → List (Turn σ) → Duration → Response → Prop where
  | answered : Replies occasion request (some response) [] ⟨0⟩ response
  | returned : Replies occasion request none [.dispatch occasion.fresh request (.ok response)]
      occasion.latency response
  | panicked : Replies occasion request none [.dispatch occasion.fresh request (.error e)] occasion.latency
      ⟨500, ⟨[(⟨"content-type"⟩, Text.utf8 "text/plain"), (⟨"server"⟩, Text.utf8 "jetrouter")]⟩,
        Text.utf8 "500 Internal Server Error"⟩

/-- Middlewares are shown a response one after the other. Each passes on what the next is shown. -/
inductive Touches (head : Request) (latency : Duration) :
    List (Middleware σ) → Response → List (Turn σ) → Response → Prop where
  | nil : Touches head latency [] response [] response
  | cons (rest : Touches head latency ms result turns response) :
    Touches head latency (m :: ms) given (.after m head latency given result :: turns) response

/-- What happens while a request is handled. -/
structure Visit (σ : Type) where
  looks : List (Turn σ)
  early : Option Response
  dispatching : List (Turn σ)
  latency : Duration
  given : Response
  touches : List (Turn σ)
  response : Response

namespace Visit

def turns (v : Visit σ) : List (Turn σ) :=
  v.looks ++ v.dispatching ++ v.touches

/--
The visit of a request: all middlewares look at it without its body and what was read from it, it is replied to, and
all are shown the reply.
-/
structure Follows (s : Service σ) (occasion : Occasion) (request : Request) (v : Visit σ) : Prop where
  looks : Looks { request with body := [], form := [], files := [] } s.middlewares none v.looks v.early
  replies : Replies occasion request v.early v.dispatching v.latency v.given
  touches : Touches { request with body := [], form := [], files := [] } v.latency s.middlewares v.given v.touches
    v.response

end Visit

section
variable {head : Request} {ms : List (Middleware σ)} {turns : List (Turn σ)}

theorem Looks.acts (h : Looks head ms early turns answered) : turns.map Turn.act = ms.map (.look · head) := by
  induction h with
  | nil => rfl
  | cons rest ih =>
    rw [List.map_cons, ih]
    rfl

/-- The first answer wins. -/
theorem Looks.answered_eq (h : Looks head ms early turns answered) :
    answered = (early <|> turns.findSome? Turn.answer?) := by
  induction h with
  | nil => simp
  | @cons ms early answer turns answered m rest ih =>
    rw [ih, List.findSome?_cons]
    cases early with
    | some response => rfl
    | none => cases answer <;> rfl

theorem Replies.acts (h : Replies occasion request early turns latency given) :
    turns.map Turn.act = if early.isSome then [] else [.dispatch occasion.fresh request] := by
  cases h <;> rfl

theorem Replies.answer?_eq (h : Replies occasion request early turns latency given) :
    turns.findSome? Turn.answer? = none := by
  cases h <;> rfl

theorem Touches.acts (h : Touches head latency ms given turns response) :
    turns.map Turn.act = ms.map (.touch · head latency) := by
  induction h with
  | nil => rfl
  | cons rest ih =>
    rw [List.map_cons, ih]
    rfl

theorem Touches.answer?_eq (h : Touches head latency ms given turns response) :
    turns.findSome? Turn.answer? = none := by
  induction h with
  | nil => rfl
  | cons rest ih => exact ih

end

namespace Visit.Follows

variable {s : Service σ} {occasion : Occasion} {request : Request} {v : Visit σ}

/--
Every middleware looks at the request once and is shown a response once, both in the order of their registration. In
between, the request is dispatched if it is not answered.
-/
theorem acts (h : v.Follows s occasion request) :
    let head : Request := { request with body := [], form := [], files := [] }
    v.turns.map Turn.act
      =
    s.middlewares.map (.look · head)
      ++ (if v.early.isSome then [] else [.dispatch occasion.fresh request])
      ++ s.middlewares.map (.touch · head v.latency) := by
  unfold turns
  rw [List.map_append, List.map_append, h.looks.acts, h.replies.acts, h.touches.acts]

theorem early_eq (h : v.Follows s occasion request) : v.early = v.turns.findSome? Turn.answer? := by
  unfold turns
  rw [List.findSome?_append, List.findSome?_append, h.replies.answer?_eq, h.touches.answer?_eq, h.looks.answered_eq]
  simp

/-- A visit cut at the two turns of one middleware. -/
theorem exists_cut {m : Middleware σ} (h : v.Follows s occasion request) (hms : s.middlewares = first ++ m :: last) :
    ∃ head front looking between touching back,
      v.turns = front ++ looking :: (between ++ touching :: back) ∧
      front.map Turn.act = first.map (.look · head) ∧
      looking.act = .look m head ∧
      between.map Turn.act
        = last.map (.look · head) ++ (if v.early.isSome then [] else [.dispatch occasion.fresh request])
          ++ first.map (.touch · head v.latency) ∧
      touching.act = .touch m head v.latency ∧
      back.map Turn.act = last.map (.touch · head v.latency) := by
  let head : Request := { request with body := [], form := [], files := [] }
  have hacts : v.turns.map Turn.act
      = first.map (.look · head) ++ .look m head
        :: ((last.map (.look · head) ++ (if v.early.isSome then [] else [.dispatch occasion.fresh request])
          ++ first.map (.touch · head v.latency))
        ++ .touch m head v.latency :: last.map (.touch · head v.latency)) := by
    rw [h.acts, hms]
    simp [head]
  obtain ⟨front, rest, hturns, hfront, hrest⟩ := List.map_eq_append_iff.1 hacts
  obtain ⟨looking, rest, rfl, hlooking, hrest⟩ := List.map_eq_cons_iff.1 hrest
  obtain ⟨between, rest, rfl, hbetween, hrest⟩ := List.map_eq_append_iff.1 hrest
  obtain ⟨touching, back, rfl, htouching, hback⟩ := List.map_eq_cons_iff.1 hrest
  exact ⟨head, front, looking, between, touching, back, hturns, hfront, hlooking, hbetween, htouching, hback⟩

end Visit.Follows

/-! ## The turns that are taken -/

section
variable {d : Dispatcher σ} {head : Request} {latency : Duration}

theorem exists_looks (ms : List (Middleware σ)) (early : Option Response) (w : σ) :
    ∃ turns answered w', Looks head ms early turns answered ∧ Turns d turns w w' ∧
      (ms.foldlM (fun early m => do return early <|> (← m.before head)) early : StateM σ _) w = (answered, w') := by
  induction ms generalizing early w with
  | nil => exact ⟨[], early, w, .nil, .nil, rfl⟩
  | cons m ms ih =>
    obtain ⟨turns, answered, w', hlooks, hturns, hfold⟩ :=
      ih (early <|> (m.before head w).1) (m.before head w).2
    exact ⟨_ :: turns, answered, w', .cons hlooks, .cons rfl hturns, hfold⟩

theorem exists_touches (ms : List (Middleware σ)) (given : Response) (w : σ) :
    ∃ turns response w', Touches head latency ms given turns response ∧ Turns d turns w w' ∧
      (ms.foldlM (fun response m => m.after head latency response) given : StateM σ _) w = (response, w') := by
  induction ms generalizing given w with
  | nil => exact ⟨[], given, w, .nil, .nil, rfl⟩
  | cons m ms ih =>
    obtain ⟨turns, response, w', htouches, hturns, hfold⟩ :=
      ih (m.after head latency given w).1 (m.after head latency given w).2
    exact ⟨_ :: turns, response, w', .cons htouches, .cons rfl hturns, hfold⟩

end

namespace Service

variable {s : Service σ} {occasion : Occasion} {request : Request} {w w' : σ}

theorem bind_eq (code : StateM σ α) (f : α → StateM σ β) (w : σ) : (code >>= f) w = f (code w).1 (code w).2 := by
  rfl

theorem dispatch_of_ok (h : s.dispatcher.dispatch fresh request w = (.ok response, w')) :
    s.dispatch fresh request w = (response, w') := by
  have hrun : (s.dispatcher.dispatch fresh request).run w = (.ok response, w') := h
  unfold dispatch
  rw [bind_eq, hrun]
  rfl

theorem dispatch_of_error (h : s.dispatcher.dispatch fresh request w = (.error e, w')) :
    s.dispatch fresh request w = (panicResponse, w') := by
  have hrun : (s.dispatcher.dispatch fresh request).run w = (.error e, w') := h
  unfold dispatch
  rw [bind_eq, hrun]
  rfl

theorem handle_of_answered (h : s.runBefore request.head w = (some response, w')) :
    s.handle occasion request w = s.runAfter request.head ⟨0⟩ response w' := by
  unfold handle
  rw [bind_eq, h]

theorem handle_of_dispatched (h : s.runBefore request.head w = (none, w'))
    (hdispatch : s.dispatch occasion.fresh request w' = (response, w'')) :
    s.handle occasion request w = s.runAfter request.head occasion.latency response w'' := by
  unfold handle
  rw [bind_eq, h]
  dsimp only
  rw [bind_eq, hdispatch]

/-- A request is replied to, and then all middlewares are shown the reply. -/
theorem exists_replies (h : s.runBefore request.head w = (early, w')) :
    ∃ turns latency given w'', Replies occasion request early turns latency given ∧
      Turns s.dispatcher turns w' w'' ∧
      s.handle occasion request w = s.runAfter request.head latency given w'' := by
  cases early with
  | some response => exact ⟨[], ⟨0⟩, response, w', .answered, .nil, handle_of_answered h⟩
  | none =>
    cases hdispatch : s.dispatcher.dispatch occasion.fresh request w' with
    | mk outcome w'' =>
      cases outcome with
      | ok response =>
        exact ⟨_, _, response, w'', .returned, .cons hdispatch .nil, handle_of_dispatched h (dispatch_of_ok hdispatch)⟩
      | error e =>
        exact ⟨_, _, _, w'', .panicked, .cons hdispatch .nil, handle_of_dispatched h (dispatch_of_error hdispatch)⟩

/-- Handling a request takes the turns of a visit. -/
theorem exists_visit (s : Service σ) (occasion : Occasion) (request : Request) (w : σ) :
    ∃ (v : Visit σ) (w' : σ), v.Follows s occasion request ∧ Turns s.dispatcher v.turns w w' ∧
      s.handle occasion request w = (v.response, w') := by
  obtain ⟨looks, early, w₁, hlooks, hturns₁, h₁⟩ := exists_looks s.middlewares none w
  obtain ⟨dispatching, latency, given, w₂, hreplies, hturns₂, h₂⟩ := exists_replies h₁
  obtain ⟨touches, response, w₃, htouches, hturns₃, h₃⟩ := exists_touches s.middlewares given w₂
  have hturns := turns_append_iff.2 ⟨w₂, turns_append_iff.2 ⟨w₁, hturns₁, hturns₂⟩, hturns₃⟩
  exact ⟨⟨looks, early, dispatching, latency, given, touches, response⟩, w₃, ⟨hlooks, hreplies, htouches⟩, hturns,
    h₂.trans h₃⟩

/-- Requests that are handled one after the other are visits one after the other. -/
theorem exists_visits (s : Service σ) (calls : List (Occasion × Request)) (w : σ) :
    ∃ (visits : List (Visit σ)) (w' : σ),
      List.Forall₂ (fun call v => v.Follows s call.1 call.2) calls visits ∧
      Turns s.dispatcher (visits.flatMap Visit.turns) w w' ∧
      (calls.mapM fun call => s.handle call.1 call.2) w = (visits.map (·.response), w') := by
  induction calls generalizing w with
  | nil => exact ⟨[], w, .nil, .nil, rfl⟩
  | cons call calls ih =>
    obtain ⟨v, w₁, hfollows, hturns, hhandle⟩ := exists_visit s call.1 call.2 w
    obtain ⟨visits, w₂, hvisits, hrest, hmap⟩ := ih w₁
    refine ⟨v :: visits, w₂, .cons hfollows hvisits, turns_append_iff.2 ⟨w₁, hturns, hrest⟩, ?_⟩
    rw [List.mapM_cons, bind_eq, hhandle]
    dsimp only
    rw [bind_eq, hmap]
    rfl

end Service

end Signpost.Pipeline
