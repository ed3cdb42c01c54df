import Signpost.Proofs.Route.Walk

/-!
This module contains what the operations do to the keys of the tree, and the invariant that they keep: no two
children of a node have one name, and below the root every node leads to a key.
-/

namespace Signpost.Route.Node

theorem child?_mk (value : Option α) (children : List (String × Node α)) (s : String) :
    (Node.mk value children).child? s = children.lookup s := by
  rfl

theorem isBare_mk (value : Option α) (children : List (String × Node α)) :
    (Node.mk value children).isBare = (value.isNone && children.isEmpty) := by
  rfl

theorem find?_nil (node : Node α) : node.find? [] = node.value := by
  rfl

theorem find?_cons (node : Node α) (s : String) (key : List String) :
    node.find? (s :: key) = (node.child? s).bind (find? key) := by
  rw [find?]

theorem find?_empty (key : List String) : (empty : Node α).find? key = none := by
  cases key <;> rfl

/-! ## The keys after an operation -/

theorem find?_insert (value : α) (key other : List String) (node : Node α) :
    (node.insert value key).find? other = if other = key then some value else node.find? other := by
  induction key generalizing node other with
  | nil =>
    cases other with
    | nil => rfl
    | cons s other =>
      rw [insert, if_neg (List.cons_ne_nil s other), find?_cons, find?_cons]
      rfl
  | cons k key ih =>
    rw [insert]
    cases other with
    | nil => rfl
    | cons s other =>
      rw [find?_cons, child?_mk, Named.lookup_put, find?_cons]
      by_cases hs : s = k
      . rw [if_pos hs, Option.bind_some, ih, hs]
        by_cases hother : other = key
        . rw [if_pos hother, if_pos (by rw [hother])]
        . rw [if_neg hother, if_neg (fun h => hother (List.cons.inj h).2)]
          cases node.child? k with
          | none => exact find?_empty other
          | some child => rfl
      . rw [if_neg hs, if_neg (fun h => hs (List.cons.inj h).1)]
        rfl

theorem find?_of_isBare {node : Node α} (h : node.isBare = true) (key : List String) :
    node.find? key = none := by
  unfold isBare at h
  rw [Bool.and_eq_true, Option.isNone_iff_eq_none, List.isEmpty_iff] at h
  cases key with
  | nil => exact h.1
  | cons s key =>
    rw [find?_cons]
    unfold child?
    rw [h.2]
    rfl

theorem child?_prune (name : String) (node child : Node α) (s : String) :
    (node.prune name child).child? s
      =
    if s = name then (if child.isBare then none else some child) else node.child? s := by
  unfold prune
  rw [child?_mk]
  split
  . exact Named.lookup_drop name s node.children
  . exact Named.lookup_put name s child node.children

theorem find?_erase {node : Node α} (h : node.find? key = some v) (other : List String) :
    (node.erase key).find? other = if other = key then none else node.find? other := by
  induction key generalizing node other with
  | nil =>
    cases other with
    | nil => rfl
    | cons s other =>
      rw [erase, if_neg (List.cons_ne_nil s other), find?_cons, find?_cons]
      rfl
  | cons k key ih =>
    rw [find?_cons, Option.bind_eq_some_iff] at h
    obtain ⟨child, hchild, hfind⟩ := h
    rw [erase_cons_of_child? hchild]
    cases other with
    | nil => rfl
    | cons s other =>
      rw [find?_cons, child?_prune]
      by_cases hs : s = k
      . -- a child that is bare holds no key, so it makes no difference that it is dropped
        have hpruned : (if (child.erase key).isBare then none else some (child.erase key)).bind (find? other)
            = (child.erase key).find? other := by
          split
          . next hbare => rw [find?_of_isBare hbare]; rfl
          . rfl
        rw [if_pos hs, hpruned, ih hfind, hs, find?_cons_of_child? hchild]
        by_cases hother : other = key
        . rw [if_pos hother, if_pos (by rw [hother])]
        . rw [if_neg hother, if_neg (fun h => hother (List.cons.inj h).2)]
      . rw [if_neg hs, if_neg (fun h => hs (List.cons.inj h).1), find?_cons]

/-! ## No dead branches -/

/-- Below the node all names of children are distinct and every child leads to a key. -/
inductive Tidy : Node α → Prop where
  | mk {value : Option α} {children : List (String × Node α)}
    (distinct : (children.map (·.1)).Nodup)
    (live : ∀ entry ∈ children, entry.2.isBare = false)
    (below : ∀ entry ∈ children, Tidy entry.2) :
    Tidy (.mk value children)

theorem tidy_empty : Tidy (empty : Node α) := by
  apply Tidy.mk <;> simp

theorem Tidy.nodup_names {node : Node α} (h : node.Tidy) : (node.children.map (·.1)).Nodup := by
  cases h with
  | mk distinct live below => exact distinct

theorem Tidy.live_of_mem {node : Node α} (h : node.Tidy) : ∀ entry ∈ node.children, entry.2.isBare = false := by
  cases h with
  | mk distinct live below => exact live

theorem Tidy.tidy_of_mem {node : Node α} (h : node.Tidy) : ∀ entry ∈ node.children, entry.2.Tidy := by
  cases h with
  | mk distinct live below => exact below

theorem Tidy.mem_children_iff {node : Node α} (h : node.Tidy) :
    (s, child) ∈ node.children ↔ node.child? s = some child :=
  Named.mem_iff_lookup h.nodup_names

theorem tidy_put {node child : Node α} (h : node.Tidy) (hlive : child.isBare = false) (hchild : child.Tidy)
    (value : Option α) (name : String) : Tidy (.mk value (Named.put name child node.children)) := by
  apply Tidy.mk
  . exact Named.nodup_put h.nodup_names
  . intro entry hentry
    cases Named.mem_put hentry with
    | inl hnew => rw [hnew]; exact hlive
    | inr hold => exact h.live_of_mem entry hold
  . intro entry hentry
    cases Named.mem_put hentry with
    | inl hnew => rw [hnew]; exact hchild
    | inr hold => exact h.tidy_of_mem entry hold

theorem isBare_insert (value : α) (key : List String) (node : Node α) :
    (node.insert value key).isBare = false := by
  cases key with
  | nil => rfl
  | cons s key =>
    rw [insert, isBare_mk, Bool.and_eq_false_iff, List.isEmpty_eq_false_iff]
    exact .inr (Named.put_ne_nil _ _ _)

theorem tidy_insert {node : Node α} (h : node.Tidy) (value : α) (key : List String) :
    (node.insert value key).Tidy := by
  induction key generalizing node with
  | nil => exact .mk h.nodup_names h.live_of_mem h.tidy_of_mem
  | cons s key ih =>
    rw [insert]
    apply tidy_put h
    . apply isBare_insert
    . apply ih
      cases hs : node.child? s with
      | none => exact tidy_empty
      | some child => exact h.tidy_of_mem _ (h.mem_children_iff.2 hs)

theorem tidy_prune {node child : Node α} (h : node.Tidy) (hchild : child.Tidy) (name : String) :
    (node.prune name child).Tidy := by
  unfold prune
  split
  . apply Tidy.mk
    . exact Named.nodup_drop h.nodup_names
    . intro entry hentry
      exact h.live_of_mem entry ((List.mem_filter.1 hentry).1)
    . intro entry hentry
      exact h.tidy_of_mem entry ((List.mem_filter.1 hentry).1)
  . next hlive => exact tidy_put h (Bool.eq_false_iff.2 hlive) hchild _ _

theorem tidy_erase {node : Node α} (h : node.Tidy) (key : List String) : (node.erase key).Tidy := by
  induction key generalizing node with
  | nil => exact .mk h.nodup_names h.live_of_mem h.tidy_of_mem
  | cons s key ih =>
    rw [erase]
    split
    . next child hchild =>
      apply tidy_prune h
      exact ih (h.tidy_of_mem _ (h.mem_children_iff.2 hchild))
    . exact h

theorem Tidy.exists_find? {node : Node α} (h : node.Tidy) (hlive : node.isBare = false) :
    ∃ key v, node.find? key = some v := by
  induction h with
  | @mk value children distinct live below ih =>
    rw [isBare_mk, Bool.and_eq_false_iff] at hlive
    cases hlive with
    | inl hvalue =>
      obtain ⟨v, hv⟩ := Option.isSome_iff_exists.1 (Option.isNone_eq_false_iff.1 hvalue)
      exact ⟨[], v, hv⟩
    | inr hchildren =>
      cases children with
      | nil => exact absurd hchildren (by simp)
      | cons entry rest =>
        obtain ⟨key, v, hfind⟩ := ih entry List.mem_cons_self (live entry List.mem_cons_self)
        refine ⟨entry.1 :: key, v, ?_⟩
        rw [find?_cons, child?_mk, Named.lookup_cons, if_pos rfl]
        exact hfind

theorem Tidy.of_at? {node found : Node α} (h : node.Tidy) (hat : node.at? (s :: lead) = some found) :
    found.Tidy ∧ found.isBare = false := by
  induction lead generalizing s node with
  | nil =>
    rw [at?, Option.bind_eq_some_iff] at hat
    obtain ⟨child, hchild, hfound⟩ := hat
    rw [at?, Option.some.injEq] at hfound
    rw [← hfound]
    have hmem := h.mem_children_iff.2 hchild
    exact ⟨h.tidy_of_mem _ hmem, h.live_of_mem _ hmem⟩
  | cons next lead ih =>
    rw [at?, Option.bind_eq_some_iff] at hat
    obtain ⟨child, hchild, hfound⟩ := hat
    exact ih (h.tidy_of_mem _ (h.mem_children_iff.2 hchild)) hfound

theorem find?_append (lead rest : List String) (node : Node α) :
    node.find? (lead ++ rest) = (node.at? lead).bind (find? rest) := by
  induction lead generalizing node with
  | nil => rfl
  | cons s lead ih =>
    rw [List.cons_append, find?_cons, at?]
    cases node.child? s with
    | none => rfl
    | some child => exact ih child

/-- Every node below the root lies on the way to a key. -/
theorem Tidy.begins_iff {node : Node α} (h : node.Tidy) (hlead : lead ≠ []) :
    node.begins lead = true ↔ ∃ rest v, node.find? (lead ++ rest) = some v := by
  unfold begins
  rw [Option.isSome_iff_exists]
  simp only [find?_append, Option.bind_eq_some_iff]
  constructor
  . rintro ⟨found, hat⟩
    cases lead with
    | nil => exact absurd rfl hlead
    | cons s lead =>
      have hfound := h.of_at? hat
      obtain ⟨rest, v, hfind⟩ := hfound.1.exists_find? hfound.2
      exact ⟨rest, v, found, hat, hfind⟩
  . rintro ⟨_, _, found, hat, _⟩
    exact ⟨found, hat⟩

/-! ## The listing of the keys -/

theorem mem_entriesBelow {children : List (String × Node α)} {key : List String} {v : α} :
    (key, v) ∈ entriesBelow children ↔
      ∃ s rest child, (s, child) ∈ children ∧ (rest, v) ∈ child.entries ∧ key = s :: rest := by
  induction children with
  | nil => simp [entriesBelow]
  | cons entry children ih =>
    rw [entriesBelow, List.mem_append, ih]
    constructor
    . intro h
      cases h with
      | inl hfirst =>
        simp only [List.mem_map, Prod.mk.injEq, Prod.exists] at hfirst
        obtain ⟨rest, v', hmem, rfl, rfl⟩ := hfirst
        exact ⟨entry.1, rest, entry.2, List.mem_cons_self, hmem, rfl⟩
      | inr hlater =>
        obtain ⟨s, rest, child, hchild, hmem, heq⟩ := hlater
        exact ⟨s, rest, child, List.mem_cons_of_mem _ hchild, hmem, heq⟩
    . rintro ⟨s, rest, child, hchild, hmem, heq⟩
      rw [List.mem_cons] at hchild
      cases hchild with
      | inl hfirst =>
        left
        rw [← hfirst, heq]
        exact List.mem_map_of_mem hmem
      | inr hlater => exact .inr ⟨s, rest, child, hlater, hmem, heq⟩

/-- The entries are the keys with the values that are found under them. -/
theorem Tidy.mem_entries_iff {node : Node α} (h : node.Tidy) :
    (key, v) ∈ node.entries ↔ node.find? key = some v := by
  induction h generalizing key with
  | @mk value children distinct live below ih =>
    rw [entries, List.mem_append, mem_entriesBelow]
    cases key with
    | nil =>
      rw [find?_nil]
      simp [Node.value, eq_comm]
    | cons s key =>
      rw [find?_cons, child?_mk, Option.bind_eq_some_iff]
      simp only [← Named.mem_iff_lookup distinct]
      constructor
      . intro hor
        cases hor with
        | inl hroot => simp at hroot
        | inr hbelow =>
          obtain ⟨_, _, child, hchild, hmem, heq⟩ := hbelow
          obtain ⟨rfl, rfl⟩ := List.cons.inj heq
          exact ⟨child, hchild, (ih _ hchild).1 hmem⟩
      . rintro ⟨child, hchild, hfind⟩
        exact .inr ⟨s, key, child, hchild, (ih _ hchild).2 hfind, rfl⟩

end Signpost.Route.Node
