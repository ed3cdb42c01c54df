import Signpost.Proofs.Route.Removal
import Signpost.Proofs.Route.Spelling

/-!
This module contains the branches of a tree that has gone through any changes. None of them is dead: every node
below the root leads to a registered key, and so a path is the beginning of another one that the table contains
exactly if the table says so.
-/

namespace Signpost.Route

namespace Node

/-- One node stands below another one. The names are those of the children on the way to it. -/
inductive Below : Node α → List String → Node α → Prop where
  | child {node : Node α} (mem : (name, child) ∈ node.children) : Below node [name] child
  | deeper {node : Node α} (mem : (name, child) ∈ node.children) (below : Below child lead found) :
    Below node (name :: lead) found

theorem Below.ne_nil {node : Node α} (h : Below node lead found) : lead ≠ [] := by
  cases h <;> exact List.cons_ne_nil _ _

theorem isBare_eq_false_iff {node : Node α} :
    node.isBare = false ↔ node.value.isSome = true ∨ node.children ≠ [] := by
  unfold isBare
  rw [Bool.and_eq_false_iff, Option.isNone_eq_false_iff, List.isEmpty_eq_false_iff]

/-- Where the names of children are distinct, they lead to the nodes below. -/
theorem Tidy.at?_of_below {node : Node α} (h : node.Tidy) (hbelow : Below node lead found) :
    node.at? lead = some found := by
  induction hbelow with
  | child mem =>
    rw [at?, h.mem_children_iff.1 mem]
    rfl
  | deeper mem _ ih =>
    rw [at?, h.mem_children_iff.1 mem, Option.bind_some]
    exact ih (h.tidy_of_mem _ mem)

theorem Tidy.isBare_of_below {node : Node α} (h : node.Tidy) (hbelow : Below node lead found) :
    found.isBare = false := by
  obtain ⟨s, rest, rfl⟩ := List.exists_cons_of_ne_nil hbelow.ne_nil
  exact (h.of_at? (h.at?_of_below hbelow)).2

/-- A trail that ends below the root goes on to a key, and the path goes on with it. -/
theorem Tidy.exists_trail_append {node : Node α} (h : node.Tidy) (hpath : path ≠ [])
    (htrail : node.trail wildcard path = some key) :
    ∃ rest v, node.trail wildcard (path ++ rest) = some (key ++ rest) ∧ node.find? (key ++ rest) = some v := by
  have hbegins := (trail_eq_some_iff.1 htrail).1
  have hlength := (trail_eq_some_iff.1 htrail).2.1
  have hkey : key ≠ [] := by
    intro hnil
    rw [hnil] at hlength
    exact hpath (List.length_eq_zero_iff.1 hlength.symm)
  obtain ⟨rest, v, hfind⟩ := (h.begins_iff hkey).1 hbegins
  refine ⟨rest, v, ?_, hfind⟩
  obtain ⟨found, hfound⟩ := Option.isSome_iff_exists.1 hbegins
  have hrest : found.find? rest = some v := by
    rw [find?_append, hfound] at hfind
    exact hfind
  rw [trail_append, htrail, Option.bind_some, hfound, Option.bind_some, trail_of_find? hrest]
  rfl

end Node

namespace Table

variable {t : Table α} {wildcard path start : String}

theorem startsWith_iff :
    t.startsWith start = true ↔
      segments start ≠ [] ∧
        ((∃ key v, (key, v) ∈ t.fixed ∧ segments start <+: segments key) ∨
          (t.root.trail t.wildcard (segments start)).isSome = true) := by
  unfold startsWith
  cases hsegments : segments start with
  | nil => simp
  | cons s rest =>
    dsimp only
    rw [Bool.or_eq_true, List.any_eq_true, Node.isSome_walk]
    simp [Prod.exists]

theorem isSome_target?_iff :
    (t.target? path).isSome = true ↔
      (t.fixed.lookup path).isSome = true ∨
        ∃ key v, t.root.trail t.wildcard (segments path) = some key ∧ t.root.find? key = some v := by
  cases hfixed : t.fixed.lookup path with
  | some v => simp [target?_of_fixed hfixed]
  | none =>
    rw [target?_of_not_fixed hfixed, Option.isSome_map]
    cases t.root.trail t.wildcard (segments path) with
    | none => simp
    | some key => simp [Option.isSome_iff_exists]

namespace Keeps

variable {changes : List (Change α)}

/-- A trail that the table begins goes on along some path to a key. -/
theorem exists_path_of_trail (h : t.Keeps wildcard (.ofChanges wildcard changes)) (hstart : segments start ≠ [])
    (htrail : t.root.trail t.wildcard (segments start) = some key) :
    ∃ path, segments start <+: segments path ∧
      ∃ key v, t.root.trail t.wildcard (segments path) = some key ∧ t.root.find? key = some v := by
  obtain ⟨rest, v, hlonger, hfind⟩ := h.tidy.exists_trail_append hstart htrail
  have hmem : .pattern (key ++ rest) ∈ (Ledger.ofChanges wildcard changes).keys := by
    rw [h.mem_keys_iff, Table.stored, hfind]
    rfl
  -- the names in the tree are segments, so the path is read as it was put together
  have hsegments : ∀ s ∈ segments start ++ rest, IsSegment s := by
    intro s hs
    cases List.mem_append.1 hs with
    | inl hlead => exact isSegment_of_mem_segments hlead
    | inr hrest => exact Ledger.isSegment_of_mem_pattern hmem (List.mem_append_right key hrest)
  refine ⟨joinPath (segments start ++ rest), ?_, key ++ rest, v, ?_, hfind⟩ <;> rw [segments_joinPath hsegments]
  . exact List.prefix_append _ _
  . exact hlonger

/-- What goes on from the path is contained, and what is contained goes on from each path that begins it. -/
theorem startsWith_iff_exists (h : t.Keeps wildcard (.ofChanges wildcard changes)) :
    t.startsWith start = true ↔
      segments start ≠ [] ∧ ∃ path, segments start <+: segments path ∧ t.contains path = true := by
  rw [startsWith_iff]
  simp only [h.contains_eq, isSome_target?_iff]
  apply and_congr_right
  intro hstart
  constructor
  . intro hor
    cases hor with
    | inl hfixed =>
      obtain ⟨key, v, hmem, hprefix⟩ := hfixed
      rw [Named.mem_iff_lookup h.distinctFixed] at hmem
      exact ⟨key, hprefix, .inl (hmem ▸ rfl)⟩
    | inr htrail =>
      obtain ⟨key, hkey⟩ := Option.isSome_iff_exists.1 htrail
      obtain ⟨path, hprefix, hfound⟩ := h.exists_path_of_trail hstart hkey
      exact ⟨path, hprefix, .inr hfound⟩
  . rintro ⟨path, ⟨rest, hrest⟩, hor⟩
    cases hor with
    | inl hfixed =>
      obtain ⟨v, hv⟩ := Option.isSome_iff_exists.1 hfixed
      rw [← Named.mem_iff_lookup h.distinctFixed] at hv
      exact .inl ⟨path, v, hv, rest, hrest⟩
    | inr hfound =>
      obtain ⟨key, v, htrail, _⟩ := hfound
      rw [← hrest, Node.trail_append, Option.bind_eq_some_iff] at htrail
      obtain ⟨front, hfront, _⟩ := htrail
      exact .inr (hfront ▸ rfl)

end Keeps

/--
There are no dead branches. Below the root every node has a value or a child and leads to a registered key, and a
table goes on from a path with segments exactly if it contains some path that begins with these segments.
-/
theorem startsWith_ofChanges (wildcard : String) (changes : List (Change α)) :
    let t := ofChanges wildcard changes
    (∀ lead node, t.root.Below lead node →
      (node.value.isSome = true ∨ node.children ≠ []) ∧
        ∃ rest v, (.pattern (lead ++ rest), v) ∈ (Ledger.ofChanges wildcard changes).entries) ∧
      ∀ start, t.startsWith start = true ↔
        segments start ≠ [] ∧ ∃ path, segments start <+: segments path ∧ t.contains path = true := by
  intro t
  have h : t.Keeps wildcard (.ofChanges wildcard changes) := keeps_ofChanges wildcard changes
  refine ⟨?_, fun _ => h.startsWith_iff_exists⟩
  intro lead node hbelow
  constructor
  . exact Node.isBare_eq_false_iff.1 (h.tidy.isBare_of_below hbelow)
  . have hbegins : t.root.begins lead = true := by
      unfold Node.begins
      rw [h.tidy.at?_of_below hbelow]
      rfl
    obtain ⟨rest, v, hfind⟩ := (h.tidy.begins_iff hbelow.ne_nil).1 hbegins
    exact ⟨rest, v, (h.stored _ _).2 hfind⟩

end Table

end Signpost.Route
