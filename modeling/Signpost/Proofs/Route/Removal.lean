import Signpost.Proofs.Route.Lookup

/-!
This module contains what a removal does to the keys that a table lists: it takes out the one key to which a
lookup of the path leads, and nothing else.
-/

namespace Signpost.Route

namespace Table

/-- The keys of the table with their values. -/
def entries (t : Table α) : List (Key × α) :=
  t.fixed.map (fun (text, v) => (.fixed text, v)) ++ t.root.entries.map fun (key, v) => (.pattern key, v)

/-- What the table lists, as a ledger. -/
def ledger (t : Table α) : Ledger α :=
  ⟨t.entries⟩

namespace Keeps

variable {t : Table α} {wildcard : String} {r : Ledger α}

theorem mem_entries_iff (h : t.Keeps wildcard r) (entry : Key × α) :
    entry ∈ t.entries ↔ entry ∈ r.entries := by
  rw [show entry = (entry.1, entry.2) from rfl, h.stored]
  unfold entries
  rw [List.mem_append, List.mem_map, List.mem_map]
  cases hkey : entry.1 with
  | fixed text =>
    rw [Table.stored, ← Named.mem_iff_lookup h.distinctFixed]
    simp [Prod.exists]
  | pattern key =>
    rw [Table.stored, ← h.tidy.mem_entries_iff]
    simp [Prod.exists]

theorem mem_ledger_keys_iff (h : t.Keeps wildcard r) (key : Key) : key ∈ t.ledger.keys ↔ key ∈ r.keys := by
  unfold Ledger.keys ledger
  rw [List.mem_map, List.mem_map]
  simp only [h.mem_entries_iff]

theorem begins_ledger (h : t.Keeps wildcard r) : t.ledger.begins = r.begins := by
  funext lead
  unfold Ledger.begins
  rw [Bool.eq_iff_iff, List.any_eq_true, List.any_eq_true]
  simp only [h.mem_ledger_keys_iff]

theorem finds_ledger_iff (h : t.Keeps wildcard r) (key : Key) :
    t.ledger.Finds wildcard path key ↔ r.Finds wildcard path key := by
  cases key with
  | fixed text => rw [Ledger.finds_fixed_iff, Ledger.finds_fixed_iff, h.mem_ledger_keys_iff]
  | pattern key =>
    rw [Ledger.finds_pattern_iff, Ledger.finds_pattern_iff, h.mem_ledger_keys_iff, h.mem_ledger_keys_iff,
      h.begins_ledger]

theorem get?_eq (h : t.Keeps wildcard r) (path : String) :
    t.get? path = (t.target? path).bind t.stored := by
  unfold get?
  rw [h.find?_eq, Option.map_bind]
  congr
  funext key
  dsimp only [Function.comp_apply]
  rw [Option.map_map]
  exact Option.map_id_fun' ▸ rfl

theorem contains_eq (h : t.Keeps wildcard r) (path : String) :
    t.contains path = (t.target? path).isSome := by
  by_cases hpath : path = ""
  . rw [hpath, h.target?_empty]
    unfold contains
    simp
  . exact contains_of_ne_empty t hpath

theorem finds_ledger_iff_target? (h : t.Keeps wildcard r) (key : Key) :
    t.ledger.Finds wildcard path key ↔ t.target? path = some key := by
  rw [h.finds_ledger_iff, h.target?_eq_some_iff]

theorem isSome_get? (h : t.Keeps wildcard r) (path : String) : (t.get? path).isSome = (t.target? path).isSome := by
  rw [h.get?_eq]
  cases htarget : t.target? path with
  | none => rfl
  | some key =>
    rw [Option.bind_some, isSome_stored_of_target? htarget]
    rfl

theorem mem_entries_forget_iff (h : t.Keeps wildcard r) (hkey : key ∈ r.keys) (entry : Key × α) :
    entry ∈ (t.forget key).entries ↔ entry ∈ t.entries ∧ entry.1 ≠ key := by
  rw [(h.forget key hkey).mem_entries_iff, h.mem_entries_iff, Named.mem_drop]

theorem size_forget (h : t.Keeps wildcard r) (hkey : key ∈ r.keys) : (t.forget key).size + 1 = t.size := by
  rw [(h.forget key hkey).size, h.size]
  exact Named.length_drop_of_mem h.distinct hkey

end Keeps

/-- What a removal takes out is what the lookup of the path has found, and the rest stays as it was. -/
theorem remove_ofChanges (wildcard : String) (changes : List (Change α)) (path : String) :
    let t := ofChanges wildcard changes
    (t.contains path = true ↔ (t.get? path).isSome = true) ∧
      (segments path = [] → t.remove path = .error ⟨path⟩ ∧ t.change (.remove path) = t) ∧
      (segments path ≠ [] → ∃ t', t.remove path = .ok (t.get? path, t') ∧ t.change (.remove path) = t' ∧
        (t.get? path = none → t' = t ∧ ∀ key, ¬t.ledger.Finds wildcard path key) ∧
        (∀ v, t.get? path = some v → ∃ key,
          (∀ other, t.ledger.Finds wildcard path other ↔ other = key) ∧
          (key, v) ∈ t.entries ∧
          (∀ entry, entry ∈ t'.entries ↔ entry ∈ t.entries ∧ entry.1 ≠ key) ∧
          t'.size + 1 = t.size)) ∧
      (∀ key v, (key, v) ∈ t.entries →
        key = .fixed path ∨ key = .pattern (segments path) ∧ .fixed path ∉ t.ledger.keys →
        t.get? path = some v ∧ ∀ other, t.ledger.Finds wildcard path other ↔ other = key) := by
  intro t
  have h : t.Keeps wildcard (.ofChanges wildcard changes) := keeps_ofChanges wildcard changes
  have honly : ∀ {key}, t.target? path = some key →
      ∀ other, t.ledger.Finds wildcard path other ↔ other = key := by
    intro key htarget other
    rw [h.finds_ledger_iff_target?, htarget, Option.some.injEq, eq_comm]
  refine ⟨?_, ?_, ?_, ?_⟩
  . rw [h.contains_eq, h.isSome_get?]
  . intro hpath
    refine ⟨remove_of_eq_nil t hpath, ?_⟩
    rw [change_remove, if_pos hpath]
  . intro hpath
    refine ⟨_, by rw [remove_of_ne_nil t hpath, h.get?_eq], ?_, ?_, ?_⟩
    . rw [change_remove, if_neg hpath]
    . intro hnone
      have htarget : t.target? path = none := by
        rw [← Option.isNone_iff_eq_none, ← Option.not_isSome, ← h.isSome_get?, hnone]
        rfl
      refine ⟨by rw [htarget]; rfl, ?_⟩
      intro key
      simp [h.finds_ledger_iff_target?, htarget]
    . intro v hv
      rw [h.get?_eq, Option.bind_eq_some_iff] at hv
      obtain ⟨key, htarget, hstored⟩ := hv
      have hmem := (h.stored key v).2 hstored
      have hkey : key ∈ (Ledger.ofChanges wildcard changes).keys := List.mem_map_of_mem hmem
      refine ⟨key, honly htarget, (h.mem_entries_iff _).2 hmem, ?_, ?_⟩
      . intro entry
        rw [htarget]
        exact h.mem_entries_forget_iff hkey entry
      . rw [htarget]
        exact h.size_forget hkey
  . intro key v hentry hkey
    have hmem := (h.mem_entries_iff _).1 hentry
    have hself : t.ledger.Finds wildcard path key := Ledger.finds_self (List.mem_map_of_mem hentry) hkey
    have htarget := (h.finds_ledger_iff_target? key).1 hself
    refine ⟨?_, honly htarget⟩
    rw [h.get?_eq, htarget, Option.bind_some, (h.stored key v).1 hmem]

end Table

end Signpost.Route
