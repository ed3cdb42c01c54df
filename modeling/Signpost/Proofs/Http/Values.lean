import Mathlib.Data.List.Induction
import Signpost.Http.Header

/-!
This module contains what the values of a header are after headers were changed. A header has the one value that it
was set to last, and headers that are merged in take the place of those with the same names.
-/

namespace Signpost.Http.Headers

/-! ## Values -/

theorem values_mk_append (front back : List (HeaderName × Bytes)) (name : HeaderName) :
    (mk (front ++ back)).values name = (mk front).values name ++ (mk back).values name := by
  unfold values
  rw [List.filter_append, List.map_append]

theorem contains_iff {h : Headers} {name : HeaderName} : h.contains name = true ↔ name ∈ h.entries.map (·.1) := by
  unfold contains
  rw [List.any_eq_true, List.mem_map]
  simp only [decide_eq_true_eq]

theorem values_eq_nil_iff {h : Headers} {name : HeaderName} : h.values name = [] ↔ h.contains name = false := by
  unfold values contains
  rw [List.map_eq_nil_iff, List.filter_eq_nil_iff, List.any_eq_false]

theorem get?_eq_head? (h : Headers) (name : HeaderName) : h.get? name = (h.values name).head? := by
  unfold get? values
  induction h.entries with
  | nil => rfl
  | cons entry entries ih =>
    rw [List.lookup_cons, List.filter_cons]
    by_cases hname : entry.1 = name
    . simp [hname]
    . have hother : (name == entry.1) = false := beq_false_of_ne (Ne.symm hname)
      rw [hother, ih, if_neg (by simpa using hname)]

theorem values_append (h : Headers) (name : HeaderName) (value : Bytes) (other : HeaderName) :
    (h.append name value).values other = h.values other ++ if name = other then [value] else [] := by
  unfold append
  rw [values_mk_append]
  by_cases hname : name = other <;> simp [values, hname]

theorem values_remove_of_ne (h : Headers) {name other : HeaderName} (hne : other ≠ name) :
    (h.remove name).values other = h.values other := by
  unfold values remove
  rw [List.filter_filter]
  congr 1
  apply List.filter_congr
  intro entry _
  by_cases hentry : entry.1 = other <;> simp [hentry, hne]

theorem values_insert (h : Headers) (name : HeaderName) (value : Bytes) (other : HeaderName) :
    (h.insert name value).values other = if name = other then [value] else h.values other := by
  split
  . next heq => rw [← heq, values_insert_self]
  . next hne => exact values_insert_of_ne h value (Ne.symm hne)

/-! ## Setting -/

/-- Set headers one after the other. -/
def setAll (h : Headers) (entries : List (HeaderName × Bytes)) : Headers :=
  entries.foldl (fun h entry => h.insert entry.1 entry.2) h

/-- The value that is given to a name last. -/
def lastSet? (entries : List (HeaderName × Bytes)) (name : HeaderName) : Option Bytes :=
  ((mk entries).values name).getLast?

theorem setAll_append (h : Headers) (front back : List (HeaderName × Bytes)) :
    h.setAll (front ++ back) = (h.setAll front).setAll back :=
  List.foldl_append

theorem lastSet?_concat (entries : List (HeaderName × Bytes)) (entry : HeaderName × Bytes) (name : HeaderName) :
    lastSet? (entries ++ [entry]) name = if entry.1 = name then some entry.2 else lastSet? entries name := by
  unfold lastSet?
  rw [values_mk_append]
  by_cases hname : entry.1 = name <;> simp [values, hname]

/-- The last value that a name is given is the only one that it has. A name that is given none is left alone. -/
theorem values_setAll (h : Headers) (entries : List (HeaderName × Bytes)) (name : HeaderName) :
    (h.setAll entries).values name = (lastSet? entries name).elim (h.values name) ([·]) := by
  induction entries using List.reverseRecOn with
  | nil => rfl
  | append_singleton entries entry ih =>
    rw [setAll_append, lastSet?_concat]
    change ((h.setAll entries).insert entry.1 entry.2).values name = _
    rw [values_insert]
    by_cases hname : entry.1 = name
    . rw [if_pos hname, if_pos hname]
      rfl
    . rw [if_neg hname, if_neg hname, ih]

/-! ## Merging -/

theorem nodup_eraseDups [BEq α] [LawfulBEq α] (xs : List α) : xs.eraseDups.Nodup := by
  match xs with
  | [] => exact List.nodup_nil
  | x :: xs =>
    rw [List.eraseDups_cons, List.nodup_cons]
    refine ⟨?_, nodup_eraseDups _⟩
    rw [List.mem_eraseDups, List.mem_filter]
    simp
termination_by xs.length
decreasing_by exact Nat.lt_succ_of_le (List.length_filter_le _ _)

/-- The first of a run of entries with one name has dropped what the name had, so the others are only added. -/
theorem takeOver_run (h : Headers) (name : HeaderName) (run : List Bytes) (rest : List (HeaderName × Bytes)) :
    h.takeOver (some name) (run.map (name, ·) ++ rest)
      =
    (mk (h.entries ++ run.map (name, ·))).takeOver (some name) rest := by
  induction run generalizing h with
  | nil => rw [List.map_nil, List.nil_append, List.append_nil]
  | cons value run ih =>
    rw [List.map_cons, List.cons_append, takeOver, if_pos rfl, ih, append, List.append_assoc, List.singleton_append]

theorem takeOver_values_append (h e : Headers) {before : Option HeaderName} (hbefore : before ≠ some name)
    (hname : e.values name ≠ []) (rest : List (HeaderName × Bytes)) :
    h.takeOver before ((e.values name).map (name, ·) ++ rest)
      =
    (mk ((h.remove name).entries ++ (e.values name).map (name, ·))).takeOver (some name) rest := by
  obtain ⟨value, run, hrun⟩ := List.exists_cons_of_ne_nil hname
  rw [hrun, List.map_cons, List.cons_append, takeOver, if_neg hbefore, takeOver_run, append, List.append_assoc,
    List.singleton_append]

theorem values_run (name : HeaderName) (run : List Bytes) (other : HeaderName) :
    (mk (run.map (name, ·))).values other = if name = other then run else [] := by
  unfold values
  by_cases hname : name = other <;> simp [hname, List.filter_map, Function.comp_def]

/-- The names come one after the other, so each of them drops its old values once, before the new ones are added. -/
theorem values_takeOver {names : List HeaderName} {before : Option HeaderName} (h : Headers) {e : Headers}
    (hnodup : names.Nodup) (hbefore : ∀ name ∈ names, before ≠ some name) (hnames : ∀ name ∈ names, e.values name ≠ [])
    (name : HeaderName) :
    (h.takeOver before (names.flatMap fun name => (e.values name).map (name, ·))).values name
      =
    if name ∈ names then e.values name else h.values name := by
  induction names generalizing h before with
  | nil => rfl
  | cons first names ih =>
    rw [List.nodup_cons] at hnodup
    rw [List.forall_mem_cons] at hbefore hnames
    have hfirst : ∀ name ∈ names, some first ≠ some name := by
      intro name hname heq
      cases heq
      exact hnodup.1 hname
    rw [List.flatMap_cons, takeOver_values_append h e hbefore.1 hnames.1, ih _ hnodup.2 hfirst hnames.2,
      values_mk_append, values_run]
    by_cases hname : name = first
    . subst hname
      rw [if_neg hnodup.1, if_pos rfl, if_pos List.mem_cons_self, remove]
      simp [values]
    . have hrest : (h.remove first).values name = h.values name := values_remove_of_ne h hname
      rw [if_neg (Ne.symm hname), List.append_nil]
      change (if _ then _ else (h.remove first).values name) = _
      rw [hrest]
      simp only [List.mem_cons, hname, false_or]

/-- A name that is merged in has the values that it is merged in with, and any other name keeps its own. -/
theorem values_merge (h e : Headers) (name : HeaderName) :
    (h.merge e).values name = if e.contains name then e.values name else h.values name := by
  have hmem : ∀ name, name ∈ (e.entries.map (·.1)).eraseDups ↔ e.contains name = true := by
    intro name
    rw [List.mem_eraseDups, contains_iff]
  have hnames : ∀ name ∈ (e.entries.map (·.1)).eraseDups, e.values name ≠ [] := by
    intro name hname hnil
    rw [hmem] at hname
    rw [values_eq_nil_iff, hname] at hnil
    cases hnil
  have hbefore : ∀ name ∈ (e.entries.map (·.1)).eraseDups, none ≠ some name := by
    intro name _ heq
    cases heq
  unfold merge grouped
  rw [values_takeOver h (nodup_eraseDups _) hbefore hnames]
  simp only [hmem]

end Signpost.Http.Headers
