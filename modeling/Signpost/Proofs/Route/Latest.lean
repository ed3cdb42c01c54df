import Signpost.Proofs.Route.Removal
import Signpost.Proofs.Route.Spelling
import Signpost.Proofs.Route.Written

/-!
This module contains what a key finds in a table after values were added to it one after the other: the value
that was added last under this key, whatever the table had gone through before.
-/

namespace Signpost.Route

/-- Additions, in order. -/
def Change.adds (entries : List (String × α)) : List (Change α) :=
  entries.map fun (key, value) => .add key value

/-- Among the entries under a key there is a last one. -/
theorem exists_last {wildcard : String} {key : Key} {entries : List (String × α)}
    (h : ∃ entry ∈ entries, Key.ofText wildcard entry.1 = key) :
    ∃ before last after, entries = before ++ last :: after ∧ Key.ofText wildcard last.1 = key ∧
      ∀ later ∈ after, Key.ofText wildcard later.1 ≠ key := by
  induction entries with
  | nil =>
    obtain ⟨entry, hentry, _⟩ := h
    cases hentry
  | cons first entries ih =>
    by_cases hmore : ∃ entry ∈ entries, Key.ofText wildcard entry.1 = key
    . obtain ⟨before, last, after, rfl, hlast, hafter⟩ := ih hmore
      exact ⟨first :: before, last, after, rfl, hlast, hafter⟩
    . obtain ⟨entry, hentry, hkey⟩ := h
      cases List.mem_cons.1 hentry with
      | inl heq => exact ⟨[], first, entries, rfl, heq ▸ hkey, fun later hlater heq => hmore ⟨later, hlater, heq⟩⟩
      | inr hrest => exact absurd ⟨entry, hrest, hkey⟩ hmore

namespace Ledger

section
variable {wildcard : String} {r : Ledger α}

theorem mem_entries_change_add {key : String} (hkey : segments key ≠ []) (value : α) :
    (.ofText wildcard key, value) ∈ (r.change wildcard (.add key value)).entries := by
  rw [change, if_neg hkey]
  exact List.mem_cons_self

theorem mem_entries_change_add_of_ne {key : Key} {value : α} (h : (key, value) ∈ r.entries) {other : String}
    (hne : Key.ofText wildcard other ≠ key) (v : α) :
    (key, value) ∈ (r.change wildcard (.add other v)).entries := by
  rw [change]
  split
  . exact h
  . exact List.mem_cons_of_mem _ (Named.mem_drop.2 ⟨h, hne.symm⟩)

/-- Additions under other keys leave an entry as it is. -/
theorem mem_entries_foldl_adds {key : Key} {value : α} (h : (key, value) ∈ r.entries) {added : List (String × α)}
    (hne : ∀ entry ∈ added, Key.ofText wildcard entry.1 ≠ key) :
    (key, value) ∈ ((Change.adds added).foldl (change wildcard) r).entries := by
  induction added generalizing r with
  | nil => exact h
  | cons entry added ih =>
    rw [List.forall_mem_cons] at hne
    exact ih (mem_entries_change_add_of_ne h hne.1 entry.2) hne.2

end

end Ledger

namespace Table

/-- A text that spells a key finds the value that was added last under this key, and captures nothing. -/
theorem find?_ofChanges_adds {wildcard key path : String} (changes : List (Change α)) {value : α}
    {before after : List (String × α)} (hkey : segments key ≠ [])
    (hlast : ∀ entry ∈ after, Key.ofText wildcard entry.1 ≠ Key.ofText wildcard key)
    (hpath : Key.ofText wildcard path = Key.ofText wildcard key) :
    (ofChanges wildcard (changes ++ Change.adds (before ++ (key, value) :: after))).find? path
      =
    some ⟨value, []⟩ := by
  have hkeeps := keeps_ofChanges wildcard (changes ++ Change.adds (before ++ (key, value) :: after))
  have hspelled := Ledger.spelled_ofChanges wildcard (changes ++ Change.adds (before ++ (key, value) :: after))
  have hmem : (.ofText wildcard path, value)
      ∈ (Ledger.ofChanges wildcard (changes ++ Change.adds (before ++ (key, value) :: after))).entries := by
    unfold Ledger.ofChanges Change.adds
    rw [hpath, List.map_append, List.map_cons, List.foldl_append, List.foldl_append, List.foldl_cons]
    exact Ledger.mem_entries_foldl_adds (Ledger.mem_entries_change_add hkey value) hlast
  rw [hkeeps.find?_eq_some_iff]
  refine ⟨.ofText wildcard path, hspelled.finds_ofText (List.mem_map_of_mem hmem), hmem, ?_⟩
  by_cases hdynamic : wildcard ∈ Text.split '/' path
  . rw [Key.ofText_of_mem hdynamic]
    exact (captured_self _).symm
  . rw [Key.ofText_of_notMem hdynamic]
    rfl

end Table

end Signpost.Route
