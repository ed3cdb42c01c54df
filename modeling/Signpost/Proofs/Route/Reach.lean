import Signpost.Proofs.Route.Written

/-!
This module contains which methods can reach a key: those with which the key begins, provided that a request
can spell the rest of it.
-/

namespace Signpost.Route

namespace Table

section
variable {wildcard key method : String} {value : α}

/-- A request leads to the only key of a table if its own key, made of a target without a query, finds it. -/
theorem exists_match?_single_iff (hkey : segments key ≠ []) :
    (∃ path, ((single wildcard (.ofText wildcard key) value).match? method path).isSome = true) ↔
      ∃ target : String, '?' ∉ target.toList ∧
        (Ledger.mk [(Key.ofText wildcard key, value)]).Finds wildcard (joinPath (method.toLower :: segments target))
          (.ofText wildcard key) := by
  rw [← Key.segments_ofText wildcard] at hkey
  unfold match?
  simp only [Option.isSome_map]
  constructor
  . rintro ⟨path, hpath⟩
    obtain ⟨hit, hhit⟩ := Option.isSome_iff_exists.1 hpath
    rw [requestKey_eq, find?_single_eq_some_iff hkey] at hhit
    exact ⟨beforeQuery path, notMem_beforeQuery path, hhit.1⟩
  . rintro ⟨target, htarget, hfinds⟩
    refine ⟨target ++ "", ?_⟩
    rw [requestKey_append htarget (.inl rfl), Option.isSome_iff_exists]
    exact ⟨_, (find?_single_eq_some_iff hkey).2 ⟨hfinds, rfl⟩⟩

theorem segments_requestKey (hmethod : IsSegment method.toLower) (target : String) :
    segments (joinPath (method.toLower :: segments target)) = method.toLower :: segments target := by
  apply segments_joinPath
  rw [List.forall_mem_cons]
  exact ⟨hmethod, fun s hs => isSegment_of_mem_segments hs⟩

/-- The rest of a key without a query is the target of a request. -/
theorem exists_target {first : String} {rest : List String} (hsegments : segments key = first :: rest)
    (hquery : '?' ∉ key.toList) : ∃ target : String, '?' ∉ target.toList ∧ segments target = rest := by
  have hmem : ∀ s ∈ rest, s ∈ segments key := by
    intro s hs
    rw [hsegments]
    exact List.mem_cons_of_mem _ hs
  refine ⟨joinPath rest, ?_, ?_⟩
  . exact notMem_joinPath (by decide) fun s hs => notMem_of_mem_segments hquery (hmem s hs)
  . exact segments_joinPath fun s hs => isSegment_of_mem_segments (hmem s hs)

/-- A key with the wildcard is found by its segments. -/
theorem exists_finds_pattern_iff {first : String} {rest : List String} (hmethod : IsSegment method.toLower)
    (hword : '?' ∉ method.toLower.toList) (hwildcard : '?' ∉ wildcard.toList) (hfirst : first ≠ wildcard)
    (hsegments : segments key = first :: rest) :
    (∃ target : String, '?' ∉ target.toList ∧ (Ledger.mk [(.pattern (segments key), value)]).Finds wildcard
        (joinPath (method.toLower :: segments target)) (.pattern (segments key))) ↔
      first = method.toLower ∧ '?' ∉ key.toList := by
  simp only [Ledger.finds_pattern_iff, segments_requestKey hmethod, hsegments]
  constructor
  . rintro ⟨target, htarget, _, _, hleads⟩
    have hhead := (leads_cons.1 hleads).1
    refine ⟨hhead.resolve_right fun h => hfirst h.1, ?_⟩
    intro hquery
    obtain ⟨s, hs, hmem⟩ := exists_mem_segments (by decide) hquery
    rw [hsegments] at hs
    cases hleads.mem_or_eq hs with
    | inl hs =>
      rw [List.mem_cons] at hs
      cases hs with
      | inl heq => exact hword (heq ▸ hmem)
      | inr hs => exact notMem_of_mem_segments htarget hs hmem
    | inr heq => exact hwildcard (heq ▸ hmem)
  . rintro ⟨rfl, hquery⟩
    obtain ⟨target, htarget, heq⟩ := exists_target hsegments hquery
    refine ⟨target, htarget, by simp [Ledger.keys], by simp [Ledger.keys], ?_⟩
    rw [heq]
    apply leads_self

/-- A key without the wildcard is found by its spelling. -/
theorem exists_finds_fixed_iff {first : String} {rest : List String} (hmethod : IsSegment method.toLower)
    (hword : '?' ∉ method.toLower.toList) (hsegments : segments key = first :: rest) :
    (∃ target : String, '?' ∉ target.toList ∧ (Ledger.mk [(.fixed key, value)]).Finds wildcard
        (joinPath (method.toLower :: segments target)) (.fixed key)) ↔
      first = method.toLower ∧ '?' ∉ key.toList ∧ joinPath (segments key) = key := by
  simp only [Ledger.finds_fixed_iff]
  constructor
  . rintro ⟨target, htarget, heq, _⟩
    have hcons := segments_requestKey hmethod target
    rw [← heq] at hcons
    refine ⟨(List.cons.inj (hsegments.symm.trans hcons)).1, ?_, ?_⟩
    . rw [heq]
      apply notMem_joinPath (by decide)
      rw [List.forall_mem_cons]
      exact ⟨hword, fun s hs => notMem_of_mem_segments htarget hs⟩
    . rw [hcons, ← heq]
  . rintro ⟨rfl, hquery, hspelled⟩
    obtain ⟨target, htarget, heq⟩ := exists_target hsegments hquery
    rw [hsegments, ← heq] at hspelled
    refine ⟨target, htarget, hspelled.symm, ?_⟩
    rw [hspelled]
    simp [Ledger.keys]

theorem ofChanges_add (hkey : segments key ≠ []) (value : α) :
    ofChanges wildcard [.add key value] = single wildcard (.ofText wildcard key) value := by
  unfold ofChanges
  rw [List.foldl_cons, List.foldl_nil, change_add, if_neg hkey]
  rfl

/--
Some request with the method leads to the only key of a table exactly if the key begins with the method, has
no query, and has no slash too many unless it is found by its segments.
-/
theorem exists_match?_add_iff (hmethod : IsSegment method.toLower) (hword : '?' ∉ method.toLower.toList)
    (hwildcard : '?' ∉ wildcard.toList) (hkey : segments key ≠ []) (hhead : (segments key).head? ≠ some wildcard)
    (value : α) :
    (∃ path, ((ofChanges wildcard [.add key value]).match? method path).isSome = true) ↔
      (segments key).head? = some method.toLower ∧ '?' ∉ key.toList ∧
        (wildcard ∈ Text.split '/' key ∨ joinPath (segments key) = key) := by
  obtain ⟨first, rest, hsegments⟩ := List.exists_cons_of_ne_nil hkey
  have hfirst : (segments key).head? = some first := by
    rw [hsegments]
    rfl
  rw [hfirst, ne_eq, Option.some.injEq] at hhead
  rw [ofChanges_add hkey, exists_match?_single_iff hkey, hfirst, Option.some.injEq]
  by_cases hdynamic : wildcard ∈ Text.split '/' key
  . rw [Key.ofText_of_mem hdynamic, exists_finds_pattern_iff hmethod hword hwildcard hhead hsegments]
    simp only [hdynamic, true_or, and_true]
  . rw [Key.ofText_of_notMem hdynamic, exists_finds_fixed_iff hmethod hword hsegments]
    simp only [hdynamic, false_or]

end

end Table

end Signpost.Route
