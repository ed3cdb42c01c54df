import Signpost.Endpoint.Context

/-!
This module contains the laws of code that works on a state: how a sequence of pieces of code is run, and what is
known of code that never gives up.
-/

namespace Signpost.Endpoint
namespace Code

/-- The code gives a result from every state. -/
def Quiet (code : Code σ α) : Prop :=
  ∀ s, ∃ a s', code s = (.ok a, s')

variable {code : Code σ α} {f : α → Code σ β}

theorem bind_eq (code : Code σ α) (f : α → Code σ β) (s : σ) :
    (code >>= f) s = ExceptT.bindCont f (code s).1 (code s).2 := by
  rfl

theorem bind_of_ok {s s' : σ} (h : code s = (.ok a, s')) : (code >>= f) s = f a s' := by
  rw [bind_eq, h]
  rfl

theorem bind_of_error {s s' : σ} (h : code s = (.error e, s')) : (code >>= f) s = (.error e, s') := by
  rw [bind_eq, h]
  rfl

theorem bind_pure_eq (code : Code σ α) (g : α → β) (s : σ) :
    (code >>= fun a => pure (g a)) s = ((code s).1.map g, (code s).2) := by
  rw [bind_eq]
  cases (code s).1 with
  | error e => rfl
  | ok a => rfl

theorem exists_of_bind {s s' : σ} (h : (code >>= f) s = (.ok b, s')) :
    ∃ a s₁, code s = (.ok a, s₁) ∧ f a s₁ = (.ok b, s') := by
  cases hcode : code s with
  | mk result s₁ =>
    cases result with
    | error e =>
      rw [bind_of_error hcode] at h
      cases h
    | ok a =>
      rw [bind_of_ok hcode] at h
      exact ⟨a, s₁, rfl, h⟩

theorem quiet_pure (a : α) : (pure a : Code σ α).Quiet := by
  intro s
  exact ⟨a, s, rfl⟩

theorem Quiet.bind (hcode : code.Quiet) (hf : ∀ a, (f a).Quiet) : (code >>= f).Quiet := by
  intro s
  obtain ⟨a, s', h⟩ := hcode s
  rw [bind_of_ok h]
  apply hf

/-! ## Code within the scope of a request -/

theorem inScope_of_ok {scope : Scope σ} (h : code scope.world = (.ok a, world)) :
    code.inScope scope = (.ok a, { scope with world }) := by
  unfold inScope
  rw [h]

theorem inScope_eq (code : Code σ α) (scope : Scope σ) :
    code.inScope scope = ((code scope.world).1, { scope with world := (code scope.world).2 }) := by
  rfl

theorem inScope_pure (a : α) : (pure a : Code σ α).inScope = pure a := by
  rfl

theorem inScope_bind (code : Code σ α) (f : α → Code σ β) :
    (code >>= f).inScope = code.inScope >>= fun a => (f a).inScope := by
  funext scope
  cases h : code scope.world with
  | mk result world =>
    cases result with
    | ok a =>
      rw [bind_of_ok (inScope_of_ok h)]
      unfold inScope
      rw [bind_of_ok h]
    | error e =>
      have hscope : code.inScope scope = (.error e, { scope with world }) := by
        unfold inScope
        rw [h]
      rw [bind_of_error hscope]
      unfold inScope
      rw [bind_of_error h]

theorem Quiet.inScope (h : code.Quiet) : code.inScope.Quiet := by
  intro scope
  obtain ⟨a, world, hworld⟩ := h scope.world
  exact ⟨a, _, inScope_of_ok hworld⟩

theorem withContext_of_ok {code : Code (Scope σ) α} {c : Context} (h : code ⟨c, world⟩ = (.ok a, scope)) :
    withContext c code world = (.ok (a, scope.context), scope.world) := by
  unfold withContext
  rw [h]

theorem exists_of_withContext {code : Code (Scope σ) α} {c c' : Context}
    (h : withContext c code world = (.ok (a, c'), world')) :
    ∃ scope, code ⟨c, world⟩ = (.ok a, scope) ∧ c' = scope.context ∧ world' = scope.world := by
  unfold withContext at h
  cases hcode : code ⟨c, world⟩ with
  | mk result scope =>
    rw [hcode] at h
    cases result with
    | error e => cases h
    | ok a =>
      cases h
      exact ⟨scope, rfl, rfl, rfl⟩

theorem context_eq (scope : Scope σ) : Code.context scope = (.ok scope.context, scope) := by
  rfl

end Code
end Signpost.Endpoint
