import Mathlib.Data.List.Induction
import Signpost.Json.Value
import Signpost.Route.Named

/-!
This module contains what is found under a name in fields that were given one after the other, which is the last
value, and that fields which come in the order of their names stay so.
-/

namespace Signpost.Json

open Route (Named.lookup_cons)

theorem lookup_setField (name other : String) (value : α) (fields : List (String × α)) :
    (setField name value fields).lookup other = if other = name then some value else fields.lookup other := by
  induction fields with
  | nil => rw [setField, Named.lookup_cons]
  | cons field rest ih =>
    obtain ⟨n, v⟩ := field
    rw [setField]
    split
    . rw [Named.lookup_cons]
    split
    . next heq =>
      rw [Named.lookup_cons, Named.lookup_cons, heq]
      split <;> rfl
    . next hne =>
      rw [Named.lookup_cons, Named.lookup_cons, ih]
      by_cases h : other = n
      . have : other ≠ name := fun heq => hne (heq.symm.trans h)
        rw [if_pos h, if_neg this, if_pos h]
      . rw [if_neg h, if_neg h]

theorem sortFields_concat (fields : List (String × α)) (field : String × α) :
    sortFields (fields ++ [field]) = setField field.1 field.2 (sortFields fields) := by
  unfold sortFields
  rw [List.foldl_append]
  rfl

theorem setField_of_forall_lt {name : String} {fields : List (String × α)} (h : ∀ field ∈ fields, field.1 < name)
    (value : α) : setField name value fields = fields ++ [(name, value)] := by
  induction fields with
  | nil => rfl
  | cons field rest ih =>
    rw [List.forall_mem_cons] at h
    have hlt : ¬name < field.1 := fun hlt => String.lt_irrefl _ (String.lt_trans hlt h.1)
    have hne : name ≠ field.1 := fun heq => String.lt_irrefl _ (heq ▸ h.1)
    rw [setField, if_neg hlt, if_neg hne, ih h.2, List.cons_append]

/-- Fields that are in the order of their names stay as they are. -/
theorem sortFields_of_sorted {fields : List (String × α)} (h : (fields.map (·.1)).Pairwise (· < ·)) :
    sortFields fields = fields := by
  induction fields using List.reverseRecOn with
  | nil => rfl
  | append_singleton fields field ih =>
    rw [List.map_append, List.pairwise_append] at h
    obtain ⟨hfields, -, hlast⟩ := h
    rw [sortFields_concat, ih hfields]
    apply setField_of_forall_lt
    intro other hother
    exact hlast _ (List.mem_map_of_mem hother) _ (List.mem_singleton_self _)

theorem lookup_sortFields (name : String) (fields : List (String × α)) :
    (sortFields fields).lookup name = ((fields.filter (·.1 = name)).map (·.2)).getLast? := by
  induction fields using List.reverseRecOn with
  | nil => rfl
  | append_singleton fields field ih =>
    rw [sortFields_concat, lookup_setField, ih, List.filter_append, List.map_append]
    by_cases h : name = field.1
    . rw [if_pos h]
      simp [h]
    . have hne : field.1 ≠ name := fun heq => h heq.symm
      rw [if_neg h]
      simp [hne]

end Signpost.Json
