import Signpost.Proofs.Route.Spelling

/-!
This module contains what is left of a new key when it is removed right after it was added: nothing. The table has
the same tree, node by node, the same spelled keys and the same size as before.
-/

namespace Signpost.Route

namespace Node

/-- To erase a new key drops the nodes that were made for it, and no other node. -/
theorem erase_insert {node : Node α} (h : node.Tidy) (hkey : node.find? key = none) (value : α) :
    (node.insert value key).erase key = node := by
  induction key generalizing node with
  | nil =>
    obtain ⟨stored, children⟩ := node
    rw [find?_nil] at hkey
    rw [insert, erase, ← hkey]
    rfl
  | cons s key ih =>
    obtain ⟨stored, children⟩ := node
    rw [find?_cons, child?_mk] at hkey
    have hchild : ((mk stored children).insert value (s :: key)).child? s
        = some (((children.lookup s).getD empty).insert value key) := by
      rw [insert, child?_mk, Named.lookup_put, if_pos rfl]
      rfl
    rw [erase_cons_of_child? hchild]
    unfold prune
    cases hs : children.lookup s with
    | none =>
      -- the whole branch is new, and what is left of it is bare
      have hrest : (empty.insert value key).erase key = (empty : Node α) := ih tidy_empty (find?_empty key)
      have hbare : (empty : Node α).isBare = true := rfl
      rw [Option.getD_none, hrest, if_pos hbare, insert]
      exact congrArg (mk stored) (Named.drop_put hs _)
    | some child =>
      rw [hs, Option.bind_some] at hkey
      have hmem : (s, child) ∈ children := h.mem_children_iff.2 hs
      have hlive : child.isBare = false := h.live_of_mem _ hmem
      rw [Option.getD_some, ih (h.tidy_of_mem _ hmem) hkey, hlive, if_neg Bool.false_ne_true, insert]
      exact congrArg (mk stored) ((Named.put_put s child _ children).trans (Named.put_of_lookup hs))

end Node

namespace Table

variable {t : Table α} {wildcard : String}

theorem forget_enter (h : t.root.Tidy) {key : Key} (hkey : t.stored key = none) (value : α) :
    (t.enter key value).forget key = t := by
  cases key with
  | fixed text =>
    have hfixed : Named.drop text (Named.put text value t.fixed) = t.fixed := Named.drop_put hkey value
    unfold enter forget
    rw [hkey]
    dsimp only
    rw [hfixed]
    rfl
  | pattern key =>
    have hroot : (t.root.insert value key).erase key = t.root := Node.erase_insert h hkey value
    unfold enter forget
    rw [hkey]
    dsimp only
    rw [hroot]
    rfl

theorem ofChanges_append (wildcard : String) (changes : List (Change α)) (c : Change α) :
    ofChanges wildcard (changes ++ [c]) = (ofChanges wildcard changes).change c := by
  unfold ofChanges
  rw [List.foldl_append]
  rfl

/-- A text finds the key that was added under it last. -/
theorem target?_enter_ofChanges (changes : List (Change α)) {key : String} (hkey : segments key ≠ []) (value : α) :
    ((ofChanges wildcard changes).enter (.ofText wildcard key) value).target? key = some (.ofText wildcard key) := by
  have h := keeps_ofChanges wildcard (changes ++ [.add key value])
  have hspelled := Ledger.spelled_ofChanges wildcard (changes ++ [.add key value])
  have hwildcard := (keeps_ofChanges wildcard changes).wildcard
  rw [ofChanges_append, change_add, if_neg hkey, hwildcard] at h
  rw [h.target?_eq_some_iff]
  apply hspelled.finds_ofText
  rw [h.mem_keys_iff, stored_enter, if_pos rfl]
  rfl

/--
An addition registers a new key, and the removal of the same text right after it gives the value back and restores the
whole table, exactly if the text has segments and its key is not registered. It makes no difference what the text has
found before.
-/
theorem remove_add_ofChanges (wildcard : String) (changes : List (Change α)) (key : String) (value : α) :
    let t := ofChanges wildcard changes
    segments key ≠ [] ∧ .ofText wildcard key ∉ (Ledger.ofChanges wildcard changes).keys ↔
      ∃ t', t.add key value = .ok (none, t') ∧ t'.remove key = .ok (some value, t) := by
  intro t
  have h : t.Keeps wildcard (.ofChanges wildcard changes) := keeps_ofChanges wildcard changes
  rw [h.mem_keys_iff, Option.not_isSome_iff_eq_none]
  constructor
  . rintro ⟨hkey, hnew⟩
    have htarget : (t.enter (.ofText wildcard key) value).target? key = some (.ofText wildcard key) :=
      target?_enter_ofChanges changes hkey value
    refine ⟨t.enter (.ofText wildcard key) value, ?_, ?_⟩
    . rw [add_of_ne_nil t hkey, h.wildcard, hnew]
    . rw [remove_of_ne_nil _ hkey, htarget, Option.bind_some, Option.elim_some, stored_enter, if_pos rfl,
        forget_enter h.tidy hnew]
  . rintro ⟨t', hadd, _⟩
    by_cases hkey : segments key = []
    . rw [add_of_eq_nil t hkey] at hadd
      cases hadd
    . rw [add_of_ne_nil t hkey, h.wildcard, Except.ok.injEq, Prod.mk.injEq] at hadd
      exact ⟨hkey, hadd.1⟩

/-- A pattern that has found another pattern before is added next to it, and is taken out again. -/
theorem remove_add_ofChanges_shadowed :
    let t := ofChanges "*" [.add "get/*/*" 1, .add "get/item/*" 2, .add "get/user" 3, .add "get/*" 5, .remove "get/7"]
    t.find? "get/user/*" = some ⟨1, ["user"]⟩ ∧
      ∃ t', t.add "get/user/*" 4 = .ok (none, t') ∧ t'.remove "get/user/*" = .ok (some 4, t) := by
  intro t
  refine ⟨by decide +kernel, ?_⟩
  apply (remove_add_ofChanges _ _ _ _).1
  decide +kernel

end Table

end Signpost.Route
