import Signpost.Json.Reader

/-!
This module contains a way to speak about what a reader gives back, wherever it starts and however far it comes.
-/

namespace Signpost.Json.Read

/-- Whatever the reader gives back satisfies `P`. -/
def Yields (read : Read α) (P : α → Prop) : Prop :=
  ∀ c a c', read c = .ok (a, c') → P a

variable {P : α → Prop} {Q : β → Prop}

theorem yields_of_forall {read : Read α} (h : ∀ a, P a) : read.Yields P :=
  fun _ a _ _ => h a

theorem Yields.imp {read : Read α} {P' : α → Prop} (h : read.Yields P) (himp : ∀ a, P a → P' a) : read.Yields P' :=
  fun c a c' hread => himp a (h c a c' hread)

theorem yields_pure {a : α} (h : P a) : Yields (pure a) P := by
  intro c b c' hread
  cases hread
  exact h

theorem yields_fail (issue : Issue) : Yields (fail issue) P :=
  nofun

theorem yields_failNext (issue : Issue) : Yields (failNext issue) P :=
  nofun

theorem Yields.bind {read : Read α} {next : α → Read β} (hread : read.Yields P)
    (hnext : ∀ a, P a → (next a).Yields Q) : (read >>= next).Yields Q := by
  intro c b c' h
  change (read c >>= fun (a, c) => next a c) = _ at h
  cases hfirst : read c with
  | error problem =>
    rw [hfirst] at h
    cases h
  | ok result =>
    rw [hfirst] at h
    exact hnext result.1 (hread c _ _ hfirst) result.2 b c' h

/-- What was given back before does not matter. -/
theorem yields_bind {read : Read α} {next : α → Read β} (hnext : ∀ a, (next a).Yields Q) : (read >>= next).Yields Q :=
  (yields_of_forall fun _ => trivial : read.Yields fun _ => True).bind fun a _ => hnext a

theorem yields_mapM {f : α → Read β} {items : List α} (h : ∀ a ∈ items, (f a).Yields Q) :
    (items.mapM f).Yields fun results => ∀ b ∈ results, Q b := by
  induction items with
  | nil =>
    rw [List.mapM_nil]
    exact yields_pure (by simp)
  | cons a rest ih =>
    rw [List.forall_mem_cons] at h
    rw [List.mapM_cons]
    refine h.1.bind ?_
    intro b hb
    refine (ih h.2).bind ?_
    intro results hresults
    exact yields_pure (List.forall_mem_cons.2 ⟨hb, hresults⟩)

theorem yields_collect {more : (first : Bool) → Read Bool} {item : Read α} (h : item.Yields P) :
    (collect more item).Yields fun items => ∀ a ∈ items, P a := by
  have hgo : ∀ n first, (collect.go more item n first).Yields fun items => ∀ a ∈ items, P a := by
    intro n
    induction n with
    | zero =>
      intro first
      exact yields_fail _
    | succ n ih =>
      intro first
      rw [collect.go]
      apply yields_bind
      intro isMore
      cases isMore with
      | false => exact yields_pure (by simp)
      | true =>
        refine h.bind ?_
        intro a ha
        refine (ih false).bind ?_
        intro items hitems
        exact yields_pure (List.forall_mem_cons.2 ⟨ha, hitems⟩)
  unfold collect
  apply yields_bind
  intro n
  exact hgo _ _

theorem Yields.of_document {read : Read α} {bytes : Bytes} {a : α} (h : read.Yields P)
    (hdocument : document read bytes = .ok a) : P a := by
  have hwhole : (read <* finish).Yields P := by
    rw [seqLeft_eq_bind]
    refine h.bind ?_
    intro b hb
    apply yields_bind
    intro _
    exact yields_pure hb
  unfold document StateT.run' at hdocument
  cases hrun : (read <* finish) (.start bytes) with
  | error problem =>
    rw [hrun] at hdocument
    cases hdocument
  | ok result =>
    rw [hrun] at hdocument
    cases hdocument
    exact hwhole _ _ _ hrun

end Signpost.Json.Read
