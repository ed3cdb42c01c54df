import Signpost.Proofs.Route.Listing
import Signpost.Proofs.Route.Spelling
import Signpost.Proofs.Text.Order

/-!
This module contains the order of a listing. Under a wildcard that is not empty no two keys are listed as the same
text, so the listing of a table is strictly increasing, and each text in it leads back to the key from which it
comes.
-/

namespace Signpost.Route

namespace Key

/--
One key is listed before another one. Those without a wildcard come first, and each group is in the order of its
bytes.
-/
def Before : Key → Key → Prop
  | .fixed text, .fixed other => Text.utf8 text < Text.utf8 other
  | .fixed _, .pattern _ => True
  | .pattern _, .fixed _ => False
  | .pattern key, .pattern other => Text.utf8 (joinPath key) < Text.utf8 (joinPath other)

end Key

namespace Ledger

variable {wildcard : String} {changes : List (Change α)}

/-- What is listed of a key of the tree is read as this key. -/
theorem ofText_joinPath (hwildcard : wildcard ≠ "") {key : List String}
    (h : .pattern key ∈ (ofChanges wildcard changes).keys) : Key.ofText wildcard (joinPath key) = .pattern key := by
  have hsegments := segments_joinPath fun _ => isSegment_of_mem_pattern h
  obtain ⟨text, hmem, heq⟩ := exists_text_of_pattern h
  have hkey : wildcard ∈ segments (joinPath key) := by
    rw [hsegments, heq, segments, List.mem_filter]
    exact ⟨hmem, by simpa using hwildcard⟩
  rw [Key.ofText_of_mem (List.mem_of_mem_filter hkey), hsegments]

/-- Each registered key is what its text spells. -/
theorem ofText_text (hwildcard : wildcard ≠ "") {key : Key} (h : key ∈ (ofChanges wildcard changes).keys) :
    Key.ofText wildcard key.text = key := by
  cases key with
  | fixed text => exact spelled_ofChanges wildcard changes text h
  | pattern key => exact ofText_joinPath hwildcard h

theorem nodup_texts (hwildcard : wildcard ≠ "") (h : (ofChanges wildcard changes).keys.Nodup) :
    ((ofChanges wildcard changes).keys.map Key.text).Nodup := by
  apply h.map_on
  intro key hkey other hother heq
  rw [← ofText_text hwildcard hkey, heq, ofText_text hwildcard hother]

theorem finds_text (hwildcard : wildcard ≠ "") {key : Key} (h : key ∈ (ofChanges wildcard changes).keys) :
    (ofChanges wildcard changes).Finds wildcard key.text key := by
  apply finds_self h
  have hspells := ofText_text hwildcard h
  cases key with
  | fixed text => exact .inl rfl
  | pattern key =>
    refine .inr ⟨?_, ?_⟩
    . exact congrArg Key.pattern (segments_joinPath fun _ => isSegment_of_mem_pattern h).symm
    . intro hfixed
      rw [Key.text] at hspells hfixed
      rw [spelled_ofChanges wildcard changes _ hfixed] at hspells
      cases hspells

end Ledger

/-- Keys in the order of their texts. -/
def sortEntries (entries : List (Key × α)) : List (Key × α) :=
  entries.mergeSort fun a b => decide (a.1.text ≤ b.1.text)

theorem sortEntries_perm (entries : List (Key × α)) : (sortEntries entries).Perm entries :=
  List.mergeSort_perm _ _

theorem map_text_sortEntries (entries : List (Key × α)) :
    (sortEntries entries).map (·.1.text) = Table.sortKeys (entries.map (·.1.text)) :=
  List.map_mergeSort fun _ _ _ _ => rfl

/-- Where no text occurs twice, the order is strict, and it is the order of the bytes. -/
theorem pairwise_sortEntries {entries : List (Key × α)} (h : (entries.map (·.1.text)).Nodup) :
    (sortEntries entries).Pairwise fun a b => Text.utf8 a.1.text < Text.utf8 b.1.text := by
  have hsorted : (sortEntries entries).Pairwise fun a b => a.1.text ≤ b.1.text := by
    have hle : (sortEntries entries).Pairwise fun a b => decide (a.1.text ≤ b.1.text) = true := by
      apply List.pairwise_mergeSort
      . intro a b c hab hbc
        simpa using String.le_trans (of_decide_eq_true hab) (of_decide_eq_true hbc)
      . intro a b
        simpa using String.le_total a.1.text b.1.text
    exact hle.imp of_decide_eq_true
  have hdistinct : (sortEntries entries).Pairwise fun a b => a.1.text ≠ b.1.text := by
    rw [← List.pairwise_map]
    exact ((sortEntries_perm entries).map _).nodup_iff.2 h
  apply hsorted.imp₂ _ hdistinct
  intro a b hle hne
  apply Text.utf8_lt_utf8
  rw [← String.not_le]
  exact fun hge => hne (String.le_antisymm hle hge)

/-- Keys of one kind are listed in the order of their texts. -/
theorem pairwise_before_sortEntries {kind : β → Key} {entries : List (β × α)}
    (hkind : ∀ a b, Text.utf8 (kind a).text < Text.utf8 (kind b).text → (kind a).Before (kind b))
    (h : ((entries.map fun (a, v) => (kind a, v)).map (·.1.text)).Nodup) :
    (sortEntries (entries.map fun (a, v) => (kind a, v))).Pairwise fun a b => a.1.Before b.1 := by
  apply (pairwise_sortEntries h).imp_of_mem
  intro a b ha hb hlt
  rw [(sortEntries_perm _).mem_iff, List.mem_map] at ha hb
  obtain ⟨_, _, rfl⟩ := ha
  obtain ⟨_, _, rfl⟩ := hb
  exact hkind _ _ hlt

namespace Table

/-- The keys of a table with their values, in the order of the listing. -/
def listed (t : Table α) : List (Key × α) :=
  sortEntries (t.fixed.map fun (text, v) => (.fixed text, v))
    ++ sortEntries (t.root.entries.map fun (key, v) => (.pattern key, v))

theorem listed_perm (t : Table α) : t.listed.Perm t.entries :=
  (sortEntries_perm _).append (sortEntries_perm _)

theorem keys_eq (t : Table α) : t.keys = t.listed.map (·.1.text) := by
  unfold keys listed
  rw [List.map_append, map_text_sortEntries, map_text_sortEntries, List.map_map, List.map_map]
  rfl

theorem pairwise_listed {t : Table α} (h : (t.entries.map (·.1.text)).Nodup) :
    t.listed.Pairwise fun a b => a.1.Before b.1 := by
  unfold entries at h
  rw [List.map_append, List.nodup_append] at h
  unfold listed
  rw [List.pairwise_append]
  refine ⟨pairwise_before_sortEntries (fun _ _ => id) h.1, pairwise_before_sortEntries (fun _ _ => id) h.2.1, ?_⟩
  intro a ha b hb
  rw [(sortEntries_perm _).mem_iff, List.mem_map] at ha hb
  obtain ⟨_, _, rfl⟩ := ha
  obtain ⟨_, _, rfl⟩ := hb
  trivial

/-- Where each text in the listing leads back to its key, the routes are the listing. -/
theorem routes_eq {t : Table α} (h : ∀ entry ∈ t.entries, t.get? entry.1.text = some entry.2) :
    t.routes = t.listed.map fun (key, v) => (key.text, v) := by
  unfold routes
  rw [keys_eq, List.filterMap_map, ← List.filterMap_eq_map]
  apply List.filterMap_congr
  intro entry hentry
  rw [(listed_perm t).mem_iff] at hentry
  rw [Function.comp_apply, h entry hentry]
  rfl

/-- A removal that takes out a value counts one key less, so there was one to count. -/
theorem Keeps.size_of_remove {t t' : Table α} {wildcard : String} {r : Ledger α} (h : t.Keeps wildcard r)
    (hremove : t.remove path = .ok (some v, t')) : t.size = t'.size + 1 := by
  by_cases hpath : segments path = []
  . rw [remove_of_eq_nil t hpath] at hremove
    cases hremove
  . rw [remove_of_ne_nil t hpath, Except.ok.injEq, Prod.mk.injEq, Option.bind_eq_some_iff] at hremove
    obtain ⟨⟨key, htarget, hstored⟩, rfl⟩ := hremove
    rw [htarget, Option.elim_some, h.size_forget]
    exact List.mem_map_of_mem ((h.stored key v).2 hstored)

/--
The size and the listing are exact. No removal brings the size below zero. The listing has the registered keys once
each, those without a wildcard as they were written and before the others, and each group in increasing order; and
the routes are the same list with the values that are stored under these very keys.
-/
theorem listing_ofChanges {wildcard : String} (hwildcard : wildcard ≠ "") (changes : List (Change α)) :
    let t := ofChanges wildcard changes
    (∀ path v t', t.remove path = .ok (some v, t') → t.size = t'.size + 1) ∧
      t.size = t.keys.length ∧ t.keys.Nodup ∧
      ∃ listed : List (Key × α),
        listed.Perm (Ledger.ofChanges wildcard changes).entries ∧ listed.Pairwise (fun a b => a.1.Before b.1) ∧
        t.keys = listed.map (fun (key, _) => key.text) ∧ t.routes = listed.map fun (key, v) => (key.text, v) := by
  intro t
  have h : t.Keeps wildcard (.ofChanges wildcard changes) := keeps_ofChanges wildcard changes
  have hnodup : (t.entries.map (·.1.text)).Nodup := by
    have htexts := Ledger.nodup_texts hwildcard h.distinct
    rw [Ledger.keys, List.map_map] at htexts
    exact (h.entries_perm.map _).nodup_iff.2 htexts
  have hget : ∀ entry ∈ t.entries, t.get? entry.1.text = some entry.2 := by
    intro entry hentry
    rw [h.mem_entries_iff] at hentry
    have hfinds := Ledger.finds_text hwildcard (List.mem_map_of_mem hentry)
    rw [h.get?_eq, h.target?_eq_some_iff.2 hfinds, Option.bind_some, ← h.stored]
    exact hentry
  refine ⟨fun _ _ _ => h.size_of_remove, ?_, ?_, t.listed, ?_, ?_, keys_eq t, routes_eq hget⟩
  . rw [h.size_eq, (keys_perm t).length_eq, List.length_map]
  . exact (keys_perm t).nodup_iff.2 hnodup
  . exact (listed_perm t).trans h.entries_perm
  . exact pairwise_listed hnodup

/-- A key is written over, and another one is taken out by a path that it matches. -/
theorem listing_ofChanges_overwritten :
    let changes : List (Change Nat) := [.add "post/a" 1, .add "get//b" 2, .add "get//*" 3, .add "get/*/c" 4,
      .add "post/a" 5, .remove "get/7/c", .remove "get/7/d"]
    let t := ofChanges "*" changes
    t.size = 3 ∧ t.keys = ["get//b", "post/a", "get/*"] ∧
      t.routes = [("get//b", 2), ("post/a", 5), ("get/*", 3)] := by
  intro changes t
  have hfixed : t.fixed.map (·.1) = ["post/a", "get//b"] := by decide +kernel
  have hpatterns : t.root.entries.map (fun (key, _) => joinPath key) = ["get/*"] := by decide +kernel
  have hkeys : t.keys = ["get//b", "post/a", "get/*"] := by
    rw [keys, hfixed, hpatterns]
    simp [sortKeys, List.mergeSort, List.MergeSort.Internal.splitInTwo]
  obtain ⟨_, hsize, _⟩ := listing_ofChanges (show "*" ≠ "" by decide) changes
  refine ⟨?_, hkeys, ?_⟩
  . rw [hsize, hkeys]
    rfl
  . rw [routes, hkeys]
    decide +kernel

end Table

end Signpost.Route
