import Mathlib.Algebra.BigOperators.Finprod
import Mathlib.Order.Interval.Finset.Nat
import Signpost.Pipeline.Metrics
import Signpost.Proofs.Pipeline.Visit
import Signpost.Proofs.Route.Written

/-!
This module contains what is counted over any sequence of requests: every request once, and every response once,
under the status and with the latency that the middleware is shown.
-/

namespace Signpost.Pipeline

open Endpoint (Part Panic)
open Http (Request Response)

/-! ## What the counts say of the responses -/

namespace Metrics

/-- The metrics of as many requests as there are responses, which are given by their statuses and latencies. -/
structure Accounts (m : Metrics) (seen : List (Nat × Duration)) : Prop where
  requests : m.requests = seen.length
  statuses : ∀ status, m.statusCount status = (seen.map (·.1)).count status
  completed : m.completed = seen.length
  serverErrors : m.serverErrors = (seen.map (·.1)).countP isServerError
  latency : m.latency = .ofNat (seen.map (·.2.nanos)).sum

variable {m : Metrics} {seen : List (Nat × Duration)}

theorem accounts_zero : zero.Accounts [] where
  requests := rfl
  statuses := fun _ => rfl
  completed := rfl
  serverErrors := rfl
  latency := rfl

theorem Accounts.count (h : m.Accounts seen) (status : Nat) (latency : Duration) :
    (m.countRequest.countResponse status latency).Accounts (seen ++ [(status, latency)]) where
  requests := by
    rw [List.length_append, ← h.requests]
    rfl
  statuses := by
    intro other
    have hcount : m.countRequest.statusCount other = m.statusCount other := rfl
    rw [statusCount_countResponse, hcount, h.statuses, List.map_append, List.count_append, List.map_singleton,
      List.count_singleton]
    by_cases heq : other = status
    . simp [heq]
    . simp [heq, Ne.symm heq]
  completed := by
    have hcompleted : m.countRequest.completed = m.completed := rfl
    rw [completed_countResponse, hcompleted, h.completed, List.length_append]
    rfl
  serverErrors := by
    have herrors : m.countRequest.serverErrors = m.serverErrors := rfl
    rw [countResponse, herrors, h.serverErrors, List.map_append, List.countP_append, List.map_singleton,
      List.countP_singleton]
    split
    . rfl
    . rfl
  latency := by
    have hlatency : m.countRequest.latency = m.latency := rfl
    rw [countResponse, hlatency, h.latency, List.map_append, List.sum_append, List.map_singleton, List.sum_singleton,
      UInt64.ofNat_add]

/-- All statuses together have been seen as often as there were responses. -/
theorem Accounts.sum_statusCount (h : m.Accounts seen) : ∑ᶠ status, m.statusCount status = seen.length := by
  have hsupport : Function.support m.statusCount ⊆ (seen.map (·.1)).toFinset := by
    intro status hstatus
    rw [Function.mem_support, h.statuses] at hstatus
    rw [Finset.mem_coe, List.mem_toFinset]
    exact List.count_pos_iff.1 (Nat.pos_of_ne_zero hstatus)
  rw [finsum_eq_sum_of_support_subset _ hsupport]
  simp only [h.statuses]
  rw [List.sum_toFinset_count_eq_length, List.length_map]

theorem isServerError_iff {status : Nat} : isServerError status = true ↔ status ∈ Finset.Icc 500 599 := by
  unfold isServerError
  rw [Finset.mem_Icc, Bool.and_eq_true, decide_eq_true_eq, decide_eq_true_eq]
  omega

theorem sum_count_eq (statuses : List Nat) :
    ∑ status ∈ Finset.Icc 500 599, statuses.count status = statuses.countP isServerError := by
  induction statuses with
  | nil => rfl
  | cons first statuses ih =>
    simp only [List.count_cons, List.countP_cons, Finset.sum_add_distrib, ih, isServerError_iff, beq_iff_eq]
    rw [Finset.sum_ite_eq]

theorem Accounts.serverErrors_eq (h : m.Accounts seen) :
    m.serverErrors = ∑ status ∈ Finset.Icc 500 599, m.statusCount status := by
  simp only [h.statuses]
  rw [h.serverErrors, sum_count_eq]

/-- The average is the mean, as long as the latencies fit into 64 bits together. -/
theorem Accounts.averageLatency_eq (h : m.Accounts seen) (hfits : (seen.map (·.2.nanos)).sum < 2 ^ 64) :
    m.averageLatency.nanos = (seen.map (·.2.nanos)).sum / seen.length := by
  unfold averageLatency
  rw [h.latency, h.completed, UInt64.toNat_ofNat', Nat.mod_eq_of_lt hfits]

end Metrics

/-! ## Turns that leave a part of the state alone -/

/-- Whatever comes of it, the turn leaves a part of the state as it is. -/
def Act.Spares (d : Dispatcher σ) (part : Part σ ρ) : Act σ → Prop
  | .look m head => ∀ w, part.get (m.before head w).2 = part.get w
  | .dispatch fresh request => ∀ w, part.get (d.dispatch fresh request w).2 = part.get w
  | .touch m head latency => ∀ given w, part.get (m.after head latency given w).2 = part.get w

section
variable {d : Dispatcher σ} {part : Part σ ρ}

theorem Turn.get_eq {turn : Turn σ} (hdoes : turn.Does d w w') (h : turn.act.Spares d part) :
    part.get w' = part.get w := by
  cases turn with
  | before m head answer =>
    have hget := h w
    rw [show m.before head w = (answer, w') from hdoes] at hget
    exact hget
  | dispatch fresh request outcome =>
    have hget := h w
    rw [show d.dispatch fresh request w = (outcome, w') from hdoes] at hget
    exact hget
  | after m head latency given result =>
    have hget := h given w
    rw [show m.after head latency given w = (result, w') from hdoes] at hget
    exact hget

theorem Turns.get_eq (hturns : Turns d turns w w') (h : ∀ act ∈ turns.map Turn.act, act.Spares d part) :
    part.get w' = part.get w := by
  induction hturns with
  | nil => rfl
  | cons head tail ih =>
    rw [List.map_cons, List.forall_mem_cons] at h
    rw [ih h.2, Turn.get_eq head h.1]

end

/-! ## The counting middleware among others -/

/-- In a visit, the counting middleware is shown a response with this status. -/
def Metrics.IsShown (part : Part σ Metrics) (v : Visit σ) (status : Nat) : Prop :=
  ∃ head given result, .after (Metrics.middleware part) head v.latency given result ∈ v.turns ∧ given.status = status

/-- The metrics stand in a part of the state that only one middleware changes. -/
structure Metrics.Guarded (part : Part σ Metrics) (s : Service σ) (first last : List (Middleware σ)) : Prop where
  middlewares : s.middlewares = first ++ Metrics.middleware part :: last
  get_set : ∀ m w, part.get (part.set m w) = m
  before : ∀ m ∈ first ++ last, ∀ head w, part.get (m.before head w).2 = part.get w
  after : ∀ m ∈ first ++ last, ∀ head latency given w, part.get (m.after head latency given w).2 = part.get w
  dispatch : ∀ fresh request w, part.get (s.dispatcher.dispatch fresh request w).2 = part.get w

namespace Metrics.Guarded

variable {part : Part σ Metrics} {s : Service σ} {first last ms : List (Middleware σ)} {latency : Duration}

theorem spares_looks (h : Guarded part s first last) (hms : ms ⊆ first ++ last) (head : Request) :
    ∀ act ∈ ms.map (.look · head), Act.Spares s.dispatcher part act := by
  rw [List.forall_mem_map]
  intro m hm
  exact h.before m (hms hm) head

theorem spares_touches (h : Guarded part s first last) (hms : ms ⊆ first ++ last) (head : Request)
    (latency : Duration) : ∀ act ∈ ms.map (.touch · head latency), Act.Spares s.dispatcher part act := by
  rw [List.forall_mem_map]
  intro m hm
  exact h.after m (hms hm) head latency

theorem get_look (h : Guarded part s first last) {turn : Turn σ}
    (hact : turn.act = .look (Metrics.middleware part) head) (hdoes : turn.Does s.dispatcher w w') :
    part.get w' = (part.get w).countRequest := by
  cases turn with
  | before m head answer =>
    cases hact
    have hstate : (Metrics.middleware part).before head w = (answer, w') := hdoes
    cases hstate
    exact h.get_set _ w
  | dispatch fresh request outcome => cases hact
  | after m head latency given result => cases hact

theorem exists_touch (h : Guarded part s first last) {turn : Turn σ}
    (hact : turn.act = .touch (Metrics.middleware part) head latency) (hdoes : turn.Does s.dispatcher w w') :
    ∃ given result, turn = .after (Metrics.middleware part) head latency given result ∧
      part.get w' = (part.get w).countResponse given.status latency := by
  cases turn with
  | before m head answer => cases hact
  | dispatch fresh request outcome => cases hact
  | after m head latency given result =>
    cases hact
    have hstate : (Metrics.middleware part).after head latency given w = (result, w') := hdoes
    cases hstate
    exact ⟨given, given, rfl, h.get_set _ w⟩

theorem spares_dispatch (h : Guarded part s first last) (early : Option Response) (occasion : Occasion)
    (request : Request) :
    ∀ act ∈ (if early.isSome then [] else [.dispatch occasion.fresh request]), Act.Spares s.dispatcher part act := by
  split
  . exact List.forall_mem_nil _
  . rw [List.forall_mem_singleton]
    exact h.dispatch occasion.fresh request

/-- The middleware counts a request when it looks at it, and a response when it is shown it. -/
theorem get_visit (h : Guarded part s first last) {v : Visit σ} (hv : v.Follows s occasion request)
    (hturns : Turns s.dispatcher v.turns w w') :
    ∃ head given result, .after (Metrics.middleware part) head v.latency given result ∈ v.turns ∧
      part.get w' = (part.get w).countRequest.countResponse given.status v.latency := by
  have hfirst : first ⊆ first ++ last := List.subset_append_left first last
  have hlast : last ⊆ first ++ last := List.subset_append_right first last
  obtain ⟨head, front, looking, between, touching, back, hcut, hfront, hlooking, hbetween, htouching, hback⟩ :=
    hv.exists_cut h.middlewares
  rw [hcut] at hturns
  -- only the two turns of the middleware itself change the metrics
  obtain ⟨w₁, hfrontTurns, hrest₁⟩ := turns_append_iff.1 hturns
  have hget₁ := hfrontTurns.get_eq (hfront ▸ h.spares_looks hfirst head)
  obtain ⟨w₂, hlook, hrest₂⟩ := turns_cons_iff.1 hrest₁
  have hget₂ := h.get_look hlooking hlook
  obtain ⟨w₃, hbetweenTurns, hrest₃⟩ := turns_append_iff.1 hrest₂
  have hget₃ : part.get w₃ = part.get w₂ := by
    apply hbetweenTurns.get_eq
    rw [hbetween, List.forall_mem_append, List.forall_mem_append]
    exact ⟨⟨h.spares_looks hlast head, h.spares_dispatch v.early occasion request⟩,
      h.spares_touches hfirst head v.latency⟩
  obtain ⟨w₄, htouch, hbackTurns⟩ := turns_cons_iff.1 hrest₃
  obtain ⟨given, result, rfl, hget₄⟩ := h.exists_touch htouching htouch
  have hget₅ := hbackTurns.get_eq (hback ▸ h.spares_touches hlast head v.latency)
  refine ⟨head, given, result, by simp [hcut], ?_⟩
  rw [hget₅, hget₄, hget₃, hget₂, hget₁]

/-- Over visits, one response more is counted for each. -/
theorem accounts_visits (h : Guarded part s first last) {calls : List (Occasion × Request)} {visits : List (Visit σ)}
    (hvisits : List.Forall₂ (fun call v => v.Follows s call.1 call.2) calls visits)
    (hturns : Turns s.dispatcher (visits.flatMap Visit.turns) w w') (hbefore : (part.get w).Accounts seen) :
    ∃ statuses : List Nat, List.Forall₂ (Metrics.IsShown part) visits statuses ∧
      (part.get w').Accounts (seen ++ statuses.zip (visits.map (·.latency))) := by
  induction hvisits generalizing w seen with
  | nil =>
    cases hturns
    exact ⟨[], .nil, by simpa using hbefore⟩
  | @cons call v calls visits hv hvisits ih =>
    rw [List.flatMap_cons] at hturns
    obtain ⟨w₁, hturns₁, hturns₂⟩ := turns_append_iff.1 hturns
    obtain ⟨head, given, result, hmem, hget⟩ := h.get_visit hv hturns₁
    obtain ⟨statuses, hstatuses, haccounts⟩ := ih hturns₂ (hget ▸ hbefore.count given.status v.latency)
    refine ⟨given.status :: statuses, .cons ⟨head, given, result, hmem, rfl⟩ hstatuses, ?_⟩
    rw [List.map_cons, List.zip_cons_cons]
    simpa using haccounts

end Metrics.Guarded

/--
For every sequence of requests, the middlewares look at each without its body and what was read from it, once and in
their order, and are shown a response once, in their order. In between, the request is dispatched if no middleware has
answered it. A counting middleware among them counts exactly these requests and responses.
-/
theorem exists_visits_accounts (s : Service σ) (calls : List (Occasion × Request)) (w : σ) :
    ∃ (visits : List (Visit σ)) (w' : σ),
      (calls.mapM fun call => s.handle call.1 call.2) w = (visits.map (·.response), w') ∧
      Turns s.dispatcher (visits.flatMap Visit.turns) w w' ∧
      List.Forall₂ (fun call v =>
        let head : Request := { call.2 with body := [], form := [], files := [] }
        v.Follows s call.1 call.2 ∧
        v.early = v.turns.findSome? Turn.answer? ∧
        v.turns.map Turn.act
          = s.middlewares.map (.look · head)
            ++ (if v.early.isSome then [] else [.dispatch call.1.fresh call.2])
            ++ s.middlewares.map (.touch · head v.latency)) calls visits ∧
      ∀ part first last, Metrics.Guarded part s first last → part.get w = Metrics.zero →
        let m := part.get w'
        let latencies := visits.map (·.latency.nanos)
        m.requests = calls.length ∧
          ∑ᶠ status, m.statusCount status = calls.length ∧
          m.serverErrors = ∑ status ∈ Finset.Icc 500 599, m.statusCount status ∧
          (latencies.sum < 2 ^ 64 → m.averageLatency.nanos = latencies.sum / calls.length) ∧
          ∃ statuses : List Nat, (∀ status, m.statusCount status = statuses.count status) ∧
            List.Forall₂ (Metrics.IsShown part) visits statuses := by
  obtain ⟨visits, w', hvisits, hturns, hmap⟩ := s.exists_visits calls w
  refine ⟨visits, w', hmap, hturns, ?_, ?_⟩
  . apply hvisits.imp
    intro call v hv
    exact ⟨hv, hv.early_eq, hv.acts⟩
  . intro part first last h hzero
    obtain ⟨statuses, hstatuses, haccounts⟩ := h.accounts_visits hvisits hturns (hzero ▸ Metrics.accounts_zero)
    rw [List.nil_append] at haccounts
    have hlength : statuses.length = calls.length := hstatuses.length_eq.symm.trans hvisits.length_eq.symm
    have hseen : (statuses.zip (visits.map (·.latency))).length = calls.length := by
      rw [List.length_zip, List.length_map, ← hvisits.length_eq, hlength, Nat.min_self]
    have hstatus : (statuses.zip (visits.map (·.latency))).map (·.1) = statuses := by
      apply List.map_fst_zip
      rw [List.length_map, hstatuses.length_eq]
    have hlatency : (statuses.zip (visits.map (·.latency))).map (·.2.nanos) = visits.map (·.latency.nanos) := by
      have hsnd : (statuses.zip (visits.map (·.latency))).map (·.2) = visits.map (·.latency) := by
        apply List.map_snd_zip
        rw [List.length_map, hstatuses.length_eq]
      have hnanos := congrArg (List.map Duration.nanos) hsnd
      rwa [List.map_map, List.map_map] at hnanos
    refine ⟨?_, ?_, haccounts.serverErrors_eq, ?_, statuses, ?_, hstatuses⟩
    . rw [haccounts.requests, hseen]
    . rw [haccounts.sum_statusCount, hseen]
    . intro hfits
      rw [← hlatency] at hfits ⊢
      rw [haccounts.averageLatency_eq hfits, hseen]
    . intro status
      rw [haccounts.statuses, hstatus]

/-- A route whose handler gives up. -/
def giving : Record σ where
  name := "GetBoom"
  call _ := Endpoint.Code.panic "boom"
  signature := ⟨[], []⟩
  convention := ⟨.none, .none⟩
  hooks := ⟨[], [], []⟩

theorem dispatch_giving (fresh : RequestId) (request : Request) (w : σ) :
    ((Dispatcher.ofTable (.single "*" (.fixed "get/boom") giving)).dispatch fresh request w).2 = w := by
  unfold Dispatcher.dispatch Dispatcher.dispatchWithEnding
  cases hfound : (Dispatcher.ofTable (.single "*" (.fixed "get/boom") giving)).table.match? request.method.token
      request.path with
  | none => rfl
  | some found =>
    have hkey : Route.Key.segments (.fixed "get/boom") ≠ [] := by decide +kernel
    have hvalue : found.value = (giving : Record σ) := by
      unfold Route.Table.match? at hfound
      rw [Option.map_eq_some_iff] at hfound
      obtain ⟨hit, hhit, rfl⟩ := hfound
      rw [((Route.Table.find?_single_eq_some_iff hkey).1 hhit).2]
    obtain ⟨⟨value, args⟩, key⟩ := found
    cases hvalue
    rfl

/-- One request is answered early, one panics and one misses. All of them are counted. -/
theorem exists_visits_accounts_three :
    let part : Part Metrics Metrics := ⟨id, fun m _ => m⟩
    let d : Dispatcher Metrics := .ofTable (.single "*" (.fixed "get/boom") giving)
    let s : Service Metrics := ⟨d, [.closing "/closed", Metrics.middleware part]⟩
    let calls : List (Occasion × Request) :=
      [(⟨⟨0⟩, ⟨9⟩⟩, .ofUri .get "/closed"), (⟨⟨0⟩, ⟨4⟩⟩, .ofUri .get "/boom"),
        (⟨⟨0⟩, ⟨3⟩⟩, (Request.ofUri .get "/nowhere").withBody (Text.utf8 "x"))]
    let m := ((calls.mapM fun call => s.handle call.1 call.2) Metrics.zero).2
    m.requests = 3 ∧ ∑ᶠ status, m.statusCount status = 3 ∧ m.serverErrors = 2 ∧ m.averageLatency.nanos = 2 := by
  intro part d s calls m
  have hget : ∀ w, part.get w = w := fun _ => rfl
  have hguarded : Metrics.Guarded part s [.closing "/closed"] [] := by
    refine ⟨rfl, fun _ _ => rfl, ?_, ?_, ?_⟩
    . intro middleware hmem head w
      rw [List.append_nil, List.mem_singleton] at hmem
      rw [hmem]
      rfl
    . intro middleware hmem head latency given w
      rw [List.append_nil, List.mem_singleton] at hmem
      rw [hmem]
      rfl
    . intro fresh request w
      rw [hget, hget]
      exact dispatch_giving fresh request w
  obtain ⟨visits, w', hrun, _, _, haccounts⟩ := exists_visits_accounts s calls Metrics.zero
  have hm : m = part.get w' := congrArg Prod.snd hrun
  obtain ⟨hrequests, hsum, _⟩ := haccounts part _ _ hguarded rfl
  rw [← hm] at hrequests hsum
  refine ⟨hrequests, hsum, ?_, ?_⟩
  . decide +kernel
  . decide +kernel

end Signpost.Pipeline
