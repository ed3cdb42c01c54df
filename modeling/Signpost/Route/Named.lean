/-!
This module contains lists of values under names: a value is put in the place of the one that had the name,
and what a lookup finds afterwards.
-/

namespace Signpost.Route.Named

variable [DecidableEq ν]

/-- Put a value under a name, in the place of the value that had the name. -/
def put (name : ν) (value : α) : List (ν × α) → List (ν × α)
  | [] => [(name, value)]
  | (n, v) :: rest => if n = name then (n, value) :: rest else (n, v) :: put name value rest

/-- Take a name out. -/
def drop (name : ν) (entries : List (ν × α)) : List (ν × α) :=
  entries.filter fun (n, _) => n ≠ name

theorem put_ne_nil (name : ν) (value : α) (entries : List (ν × α)) : put name value entries ≠ [] := by
  cases entries with
  | nil => simp [put]
  | cons entry rest =>
    rw [put]
    split <;> simp

theorem lookup_cons (other : ν) (entry : ν × α) (rest : List (ν × α)) :
    (entry :: rest).lookup other = if other = entry.1 then some entry.2 else rest.lookup other := by
  rw [List.lookup_cons]
  by_cases h : other = entry.1
  . simp [h]
  . have : (other == entry.1) = false := beq_eq_false_iff_ne.2 h
    rw [this, if_neg h]

theorem lookup_map (f : ν → α → β) (name : ν) (entries : List (ν × α)) :
    (entries.map fun (n, v) => (n, f n v)).lookup name = (entries.lookup name).map (f name) := by
  induction entries with
  | nil => rfl
  | cons entry rest ih =>
    obtain ⟨n, v⟩ := entry
    rw [List.map_cons, lookup_cons, lookup_cons, ih]
    dsimp only
    split
    . next heq => rw [heq, Option.map_some]
    . rfl

theorem lookup_put (name other : ν) (value : α) (entries : List (ν × α)) :
    (put name value entries).lookup other = if other = name then some value else entries.lookup other := by
  induction entries with
  | nil => rw [put, lookup_cons]
  | cons entry rest ih =>
    rw [put]
    split
    . next heq =>
      rw [lookup_cons, lookup_cons, heq]
      split <;> rfl
    . next hne =>
      rw [lookup_cons, lookup_cons, ih]
      by_cases h : other = entry.1
      . have : other ≠ name := fun heq => hne (h ▸ heq)
        rw [if_pos h, if_neg this, if_pos h]
      . rw [if_neg h, if_neg h]

theorem lookup_drop (name other : ν) (entries : List (ν × α)) :
    (drop name entries).lookup other = if other = name then none else entries.lookup other := by
  unfold drop
  induction entries with
  | nil => simp
  | cons entry rest ih =>
    rw [List.filter_cons, lookup_cons]
    by_cases hname : entry.1 = name
    . rw [if_neg (by simp [hname]), ih, hname]
      split <;> rfl
    . rw [if_pos (by simp [hname]), lookup_cons, ih]
      by_cases h : other = entry.1
      . have : other ≠ name := fun heq => hname (h ▸ heq)
        rw [if_pos h, if_neg this, if_pos h]
      . rw [if_neg h, if_neg h]

theorem mem_put {name : ν} {value : α} {entries : List (ν × α)} {entry : ν × α}
    (h : entry ∈ put name value entries) : entry = (name, value) ∨ entry ∈ entries := by
  induction entries with
  | nil => simpa [put] using h
  | cons first rest ih =>
    rw [put] at h
    split at h
    . next heq =>
      rw [List.mem_cons] at h
      cases h with
      | inl hfirst =>
        rw [heq] at hfirst
        exact .inl hfirst
      | inr hrest => exact .inr (List.mem_cons_of_mem _ hrest)
    . rw [List.mem_cons] at h
      cases h with
      | inl hfirst => simp [hfirst]
      | inr hrest =>
        cases ih hrest with
        | inl hput => exact .inl hput
        | inr hold => exact .inr (List.mem_cons_of_mem _ hold)

theorem names_put (name : ν) (value : α) (entries : List (ν × α)) :
    (put name value entries).map (·.1)
      =
    if name ∈ entries.map (·.1) then entries.map (·.1) else entries.map (·.1) ++ [name] := by
  induction entries with
  | nil => simp [put]
  | cons entry rest ih =>
    rw [put]
    split
    . next heq => simp [heq]
    . next hne =>
      rw [List.map_cons, ih, List.map_cons]
      have : name ≠ entry.1 := fun heq => hne heq.symm
      by_cases h : name ∈ rest.map (·.1)
      . rw [if_pos h, if_pos (List.mem_cons_of_mem _ h)]
      . rw [if_neg h, if_neg (by simp [this] at h ⊢; exact h)]
        simp

theorem nodup_put {name : ν} {value : α} {entries : List (ν × α)} (h : (entries.map (·.1)).Nodup) :
    ((put name value entries).map (·.1)).Nodup := by
  rw [names_put]
  split
  . exact h
  . next hnew =>
    rw [List.nodup_append]
    refine ⟨h, by simp, ?_⟩
    intro a ha b hb heq
    rw [List.mem_singleton] at hb
    exact hnew (hb ▸ heq ▸ ha)

theorem nodup_drop {name : ν} {entries : List (ν × α)} (h : (entries.map (·.1)).Nodup) :
    ((drop name entries).map (·.1)).Nodup :=
  h.sublist ((List.filter_sublist).map _)

theorem mem_drop {name : ν} {entries : List (ν × α)} {entry : ν × α} :
    entry ∈ drop name entries ↔ entry ∈ entries ∧ entry.1 ≠ name := by
  simp [drop]

theorem names_drop_subset (name : ν) (entries : List (ν × α)) :
    (drop name entries).map (·.1) ⊆ entries.map (·.1) :=
  List.map_subset _ List.filter_sublist.subset

theorem name_notMem_drop (name : ν) (entries : List (ν × α)) : name ∉ (drop name entries).map (·.1) := by
  rw [List.mem_map]
  rintro ⟨entry, hentry, heq⟩
  exact (mem_drop.1 hentry).2 heq

theorem drop_of_notMem {name : ν} {entries : List (ν × α)} (h : name ∉ entries.map (·.1)) :
    drop name entries = entries := by
  unfold drop
  rw [List.filter_eq_self]
  intro entry hentry
  rw [decide_eq_true_eq]
  intro heq
  exact h (heq ▸ List.mem_map_of_mem hentry)

/-- A value that is put under a new name is dropped without a trace. -/
theorem drop_put {name : ν} {entries : List (ν × α)} (h : entries.lookup name = none) (value : α) :
    drop name (put name value entries) = entries := by
  induction entries with
  | nil => simp [put, drop]
  | cons entry rest ih =>
    rw [lookup_cons] at h
    by_cases heq : name = entry.1
    . rw [if_pos heq] at h
      cases h
    . rw [if_neg heq] at h
      have hrest := ih h
      unfold drop at hrest ⊢
      rw [put, if_neg (Ne.symm heq), List.filter_cons, if_pos (by simpa using Ne.symm heq), hrest]

/-- The value that was put last stays. -/
theorem put_put (name : ν) (value other : α) (entries : List (ν × α)) :
    put name value (put name other entries) = put name value entries := by
  induction entries with
  | nil => simp [put]
  | cons entry rest ih =>
    by_cases heq : entry.1 = name
    . simp [put, heq]
    . rw [put, if_neg heq, put, if_neg heq, put, if_neg heq, ih]

/-- To put the value that a name has changes nothing. -/
theorem put_of_lookup {name : ν} {value : α} {entries : List (ν × α)} (h : entries.lookup name = some value) :
    put name value entries = entries := by
  induction entries with
  | nil => cases h
  | cons entry rest ih =>
    rw [lookup_cons] at h
    by_cases heq : name = entry.1
    . rw [if_pos heq, Option.some.injEq] at h
      rw [put, if_pos heq.symm, ← h]
    . rw [if_neg heq] at h
      rw [put, if_neg (Ne.symm heq), ih h]

theorem length_drop_of_mem {name : ν} {entries : List (ν × α)} (h : (entries.map (·.1)).Nodup)
    (hmem : name ∈ entries.map (·.1)) : (drop name entries).length + 1 = entries.length := by
  induction entries with
  | nil => simp at hmem
  | cons entry rest ih =>
    rw [List.map_cons, List.nodup_cons] at h
    by_cases heq : entry.1 = name
    . have hrest : drop name rest = rest := drop_of_notMem (heq ▸ h.1)
      unfold drop at hrest ⊢
      rw [List.filter_cons, if_neg (by simp [heq]), hrest, List.length_cons]
    . have hrest : name ∈ rest.map (·.1) := by
        rw [List.map_cons, List.mem_cons] at hmem
        cases hmem with
        | inl hfirst => exact absurd hfirst.symm heq
        | inr hlater => exact hlater
      have hlength := ih h.2 hrest
      unfold drop at hlength ⊢
      rw [List.filter_cons, if_pos (by simp [heq]), List.length_cons, List.length_cons]
      omega

/-- Where no name occurs twice, the entries are what the lookups find. -/
theorem mem_iff_lookup {name : ν} {value : α} {entries : List (ν × α)} (h : (entries.map (·.1)).Nodup) :
    (name, value) ∈ entries ↔ entries.lookup name = some value := by
  induction entries with
  | nil => simp
  | cons entry rest ih =>
    rw [List.map_cons, List.nodup_cons] at h
    rw [List.mem_cons, lookup_cons, ih h.2]
    by_cases hname : name = entry.1
    . have hrest : rest.lookup name ≠ some value := by
        intro hfound
        rw [← ih h.2] at hfound
        apply h.1
        rw [← hname]
        exact List.mem_map_of_mem (f := (·.1)) hfound
      rw [if_pos hname, Option.some.injEq]
      constructor
      . intro hmem
        cases hmem with
        | inl heq => rw [← heq]
        | inr hfound => exact absurd hfound hrest
      . intro heq
        left
        rw [← heq, hname]
    . have : (name, value) ≠ entry := fun heq => hname (heq ▸ rfl)
      simp [hname, this]

end Signpost.Route.Named
