import Mathlib.Data.List.Nodup
import Signpost.Proofs.Route.Removal

/-!
This module contains the listing of a table: every key is listed once, and the size is the number of keys.
-/

namespace Signpost.Route

namespace Node

theorem nodup_entriesBelow {children : List (String × Node α)} (distinct : (children.map (·.1)).Nodup)
    (below : ∀ entry ∈ children, entry.2.entries.Nodup) : (entriesBelow children).Nodup := by
  induction children with
  | nil => exact List.nodup_nil
  | cons entry children ih =>
    rw [List.map_cons, List.nodup_cons] at distinct
    rw [List.forall_mem_cons] at below
    rw [entriesBelow]
    apply List.Nodup.append
    . apply below.1.map
      intro a b heq
      simpa [Prod.ext_iff] using heq
    . exact ih distinct.2 below.2
    . rintro ⟨key, v⟩ hfirst hlater
      rw [List.mem_map] at hfirst
      obtain ⟨below, _, heq⟩ := hfirst
      obtain ⟨s, rest, child, hchild, _, hkey⟩ := mem_entriesBelow.1 hlater
      rw [Prod.mk.injEq, hkey, List.cons.injEq] at heq
      apply distinct.1
      rw [heq.1.1]
      exact List.mem_map_of_mem (f := (·.1)) hchild

theorem Tidy.nodup_entries {node : Node α} (h : node.Tidy) : node.entries.Nodup := by
  induction h with
  | @mk value children distinct live below ih =>
    rw [entries]
    apply List.Nodup.append
    . cases value with
      | none => exact List.nodup_nil
      | some v => exact List.nodup_singleton _
    . exact nodup_entriesBelow distinct ih
    . rintro ⟨key, v⟩ hroot hbelow
      rw [List.mem_map] at hroot
      obtain ⟨_, _, heq⟩ := hroot
      obtain ⟨s, rest, _, _, _, hkey⟩ := mem_entriesBelow.1 hbelow
      rw [Prod.mk.injEq, hkey] at heq
      exact List.cons_ne_nil s rest heq.1.symm

end Node

/-- A key as it is listed. -/
def Key.text : Key → String
  | .fixed text => text
  | .pattern key => joinPath key

namespace Table

theorem keys_perm (t : Table α) : t.keys.Perm (t.entries.map fun entry => entry.1.text) := by
  unfold keys entries sortKeys
  rw [List.map_append, List.map_map, List.map_map]
  exact (List.mergeSort_perm _ _).append (List.mergeSort_perm _ _)

namespace Keeps

variable {t : Table α} {wildcard : String} {r : Ledger α}

theorem nodup_entries (h : t.Keeps wildcard r) : t.entries.Nodup := by
  unfold entries
  apply List.Nodup.append
  . apply (List.Nodup.of_map _ h.distinctFixed).map
    intro a b heq
    simpa [Prod.ext_iff] using heq
  . apply h.tidy.nodup_entries.map
    intro a b heq
    simpa [Prod.ext_iff] using heq
  . intro entry hfixed hpattern
    rw [List.mem_map] at hfixed hpattern
    obtain ⟨_, _, rfl⟩ := hfixed
    obtain ⟨_, _, heq⟩ := hpattern
    simp at heq

/-- The table and the ledger have the same entries. -/
theorem entries_perm (h : t.Keeps wildcard r) : t.entries.Perm r.entries := by
  rw [List.perm_ext_iff_of_nodup h.nodup_entries (List.Nodup.of_map _ h.distinct)]
  exact h.mem_entries_iff

theorem size_eq (h : t.Keeps wildcard r) : t.size = t.entries.length := by
  rw [h.size, h.entries_perm.length_eq]

theorem mem_entries_iff_stored (h : t.Keeps wildcard r) {key : Key} {v : α} :
    (key, v) ∈ t.entries ↔ t.stored key = some v := by
  rw [h.mem_entries_iff, h.stored]

end Keeps

end Table

end Signpost.Route
