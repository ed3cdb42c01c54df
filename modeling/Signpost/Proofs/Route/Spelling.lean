import Signpost.Proofs.Route.Ledger
import Signpost.Proofs.Route.Path

/-!
This module contains how the registered keys are spelled. Every key comes from a text that was added, so the keys
of the tree are made of segments and the other keys have no wildcard.
-/

namespace Signpost.Route

theorem Key.ofText_of_eq_fixed {wildcard text other : String} (h : ofText wildcard other = .fixed text) :
    ofText wildcard text = .fixed text := by
  by_cases hdynamic : wildcard ∈ Text.split '/' other
  . rw [ofText_of_mem hdynamic] at h
    cases h
  . rw [ofText_of_notMem hdynamic, Key.fixed.injEq] at h
    exact h ▸ ofText_of_notMem hdynamic

namespace Ledger

/-- No key that is stored word for word has the wildcard among its segments. -/
def Spelled (wildcard : String) (r : Ledger α) : Prop :=
  ∀ text, .fixed text ∈ r.keys → Key.ofText wildcard text = .fixed text

section
variable {wildcard : String} {r : Ledger α} {changes : List (Change α)} {key : Key}

/-- A change registers no key but the one that its text spells. -/
theorem mem_keys_of_change {c : Change α} (h : key ∈ (r.change wildcard c).keys) :
    key ∈ r.keys ∨ ∃ text, key = .ofText wildcard text := by
  cases c with
  | add text value =>
    rw [change] at h
    split at h
    . exact .inl h
    . unfold enter keys at h
      rw [List.map_cons, List.mem_cons] at h
      cases h with
      | inl heq => exact .inr ⟨text, heq⟩
      | inr hold => exact .inl (Named.names_drop_subset _ r.entries hold)
  | remove path => exact .inl (List.map_subset _ List.filter_sublist.subset h)
  | clear => cases h

theorem exists_text_of_mem_foldl (hr : ∀ key ∈ r.keys, ∃ text, key = .ofText wildcard text)
    (h : key ∈ (changes.foldl (change wildcard) r).keys) : ∃ text, key = .ofText wildcard text := by
  induction changes generalizing r with
  | nil => exact hr key h
  | cons c changes ih =>
    apply ih _ h
    intro key hkey
    exact (mem_keys_of_change hkey).elim (hr key) id

theorem exists_text_of_mem_keys (h : key ∈ (ofChanges wildcard changes).keys) :
    ∃ text, key = .ofText wildcard text :=
  exists_text_of_mem_foldl (fun _ hempty => by cases hempty) h

theorem spelled_ofChanges (wildcard : String) (changes : List (Change α)) :
    (ofChanges wildcard changes).Spelled wildcard := by
  intro text hmem
  obtain ⟨other, heq⟩ := exists_text_of_mem_keys hmem
  exact Key.ofText_of_eq_fixed heq.symm

/-- A text finds the key that it spells: a key that is stored word for word does not come before a pattern. -/
theorem Spelled.finds_ofText {path : String} (h : r.Spelled wildcard) (hmem : .ofText wildcard path ∈ r.keys) :
    r.Finds wildcard path (.ofText wildcard path) := by
  apply finds_self hmem
  by_cases hdynamic : wildcard ∈ Text.split '/' path
  . refine .inr ⟨Key.ofText_of_mem hdynamic, ?_⟩
    intro hfixed
    have hsame := h path hfixed
    rw [Key.ofText_of_mem hdynamic] at hsame
    cases hsame
  . exact .inl (Key.ofText_of_notMem hdynamic)

/-- A key of the tree is made of the segments of a text that has the wildcard among its pieces. -/
theorem exists_text_of_pattern {key : List String} (h : .pattern key ∈ (ofChanges wildcard changes).keys) :
    ∃ text, wildcard ∈ Text.split '/' text ∧ key = segments text := by
  obtain ⟨text, heq⟩ := exists_text_of_mem_keys h
  by_cases hdynamic : wildcard ∈ Text.split '/' text
  . rw [Key.ofText_of_mem hdynamic, Key.pattern.injEq] at heq
    exact ⟨text, hdynamic, heq⟩
  . rw [Key.ofText_of_notMem hdynamic] at heq
    cases heq

theorem isSegment_of_mem_pattern {key : List String} (h : .pattern key ∈ (ofChanges wildcard changes).keys)
    (hs : s ∈ key) : IsSegment s := by
  obtain ⟨text, _, rfl⟩ := exists_text_of_pattern h
  exact isSegment_of_mem_segments hs

end

end Ledger

end Signpost.Route
