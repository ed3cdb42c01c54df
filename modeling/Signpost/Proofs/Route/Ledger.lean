import Signpost.Proofs.Route.Target

/-!
This module contains the ledger of the registered keys, which knows nothing of trees. A path finds a key in it
by the rule of the longest literal, and a removal strikes what the path finds. A table that is changed step by
step keeps the ledger of the same changes.
-/

namespace Signpost.Route

/-- A change of a table. -/
inductive Change (α : Type u) where
  | add (key : String) (value : α)
  | remove (path : String)
  | clear

/-- The registered keys with their values. -/
structure Ledger (α : Type u) where
  entries : List (Key × α)

namespace Ledger

def empty : Ledger α :=
  ⟨[]⟩

def keys (r : Ledger α) : List Key :=
  r.entries.map (·.1)

/-- Whether some key with a wildcard begins with these segments. -/
def begins (r : Ledger α) (lead : List String) : Bool :=
  r.keys.any fun
    | .fixed _ => false
    | .pattern key => lead.isPrefixOf key

/--
A path finds the key that is spelled like it, and if there is none the key with a wildcard to which its
segments lead.
-/
def Finds (r : Ledger α) (wildcard path : String) : Key → Prop
  | .fixed text => text = path ∧ .fixed path ∈ r.keys
  | .pattern key =>
    .fixed path ∉ r.keys ∧ .pattern key ∈ r.keys ∧ Leads r.begins wildcard (segments path) key

instance (r : Ledger α) (wildcard path : String) : DecidablePred (r.Finds wildcard path)
  | .fixed _ => inferInstanceAs (Decidable (_ ∧ _))
  | .pattern _ => inferInstanceAs (Decidable (_ ∧ _))

theorem finds_fixed_iff {r : Ledger α} :
    r.Finds wildcard path (.fixed text) ↔ text = path ∧ .fixed path ∈ r.keys := by
  rfl

theorem finds_pattern_iff {r : Ledger α} :
    r.Finds wildcard path (.pattern key) ↔
      .fixed path ∉ r.keys ∧ .pattern key ∈ r.keys ∧ Leads r.begins wildcard (segments path) key := by
  rfl

/-- A path that spells a key finds that key. -/
theorem finds_self {r : Ledger α} (hmem : key ∈ r.keys)
    (hkey : key = .fixed path ∨ key = .pattern (segments path) ∧ .fixed path ∉ r.keys) :
    r.Finds wildcard path key := by
  cases hkey with
  | inl hfixed =>
    subst hfixed
    exact ⟨rfl, hmem⟩
  | inr hpattern =>
    obtain ⟨heq, hfixed⟩ := hpattern
    subst heq
    exact ⟨hfixed, hmem, leads_self ..⟩

/-- Enter a value under a key, in the place of the one that it had. -/
def enter (r : Ledger α) (key : Key) (value : α) : Ledger α :=
  ⟨(key, value) :: Named.drop key r.entries⟩

/-- Strike what a path finds. -/
def strike (r : Ledger α) (wildcard path : String) : Ledger α :=
  ⟨r.entries.filter fun (key, _) => ¬r.Finds wildcard path key⟩

/-- The ledger after a change. A key without segments is refused. -/
def change (wildcard : String) (r : Ledger α) : Change α → Ledger α
  | .add key value => if segments key = [] then r else r.enter (.ofText wildcard key) value
  | .remove path => r.strike wildcard path
  | .clear => empty

/-- The ledger of some changes. -/
def ofChanges (wildcard : String) (changes : List (Change α)) : Ledger α :=
  changes.foldl (change wildcard) empty

end Ledger

namespace Table

/-- The table after a change. It stays as it is if the key is refused. -/
def change (t : Table α) : Change α → Table α
  | .add key value =>
    match t.add key value with
    | .ok (_, t) => t
    | .error _ => t
  | .remove path =>
    match t.remove path with
    | .ok (_, t) => t
    | .error _ => t
  | .clear => t.clear

/-- The table that comes of some changes of the empty one. -/
def ofChanges (wildcard : String) (changes : List (Change α)) : Table α :=
  changes.foldl change (empty wildcard)

/-- A table keeps a ledger: it stores the same, without dead branches, and counts it. -/
structure Keeps (t : Table α) (wildcard : String) (r : Ledger α) : Prop where
  wildcard : t.wildcard = wildcard
  tidy : t.root.Tidy
  distinctFixed : (t.fixed.map (·.1)).Nodup
  stored : ∀ key v, (key, v) ∈ r.entries ↔ t.stored key = some v
  distinct : r.keys.Nodup
  named : ∀ key ∈ r.keys, key.segments ≠ []
  size : t.size = r.entries.length

theorem change_add (t : Table α) (key : String) (value : α) :
    t.change (.add key value)
      =
    if segments key = [] then t else t.enter (.ofText t.wildcard key) value := by
  rw [change]
  by_cases h : segments key = []
  . rw [add_of_eq_nil t h, if_pos h]
  . rw [add_of_ne_nil t h, if_neg h]

theorem change_remove (t : Table α) (path : String) :
    t.change (.remove path) = if segments path = [] then t else (t.target? path).elim t t.forget := by
  rw [change]
  by_cases h : segments path = []
  . rw [remove_of_eq_nil t h, if_pos h]
  . rw [remove_of_ne_nil t h, if_neg h]

namespace Keeps

variable {t : Table α} {wildcard : String} {r : Ledger α}

theorem mem_keys_iff (h : t.Keeps wildcard r) (key : Key) : key ∈ r.keys ↔ (t.stored key).isSome = true := by
  unfold Ledger.keys
  rw [List.mem_map, Option.isSome_iff_exists]
  constructor
  . rintro ⟨entry, hentry, heq⟩
    subst heq
    exact ⟨entry.2, (h.stored _ _).1 hentry⟩
  . rintro ⟨v, hv⟩
    exact ⟨(key, v), (h.stored _ _).2 hv, rfl⟩

theorem isSome_fixed_iff (h : t.Keeps wildcard r) (path : String) :
    (t.fixed.lookup path).isSome = true ↔ .fixed path ∈ r.keys := by
  rw [h.mem_keys_iff]
  rfl

theorem begins_eq (h : t.Keeps wildcard r) (lead : List String) (hlead : lead ≠ []) :
    t.root.begins lead = r.begins lead := by
  rw [Bool.eq_iff_iff, h.tidy.begins_iff hlead]
  unfold Ledger.begins
  rw [List.any_eq_true]
  constructor
  . rintro ⟨rest, v, hfind⟩
    refine ⟨.pattern (lead ++ rest), ?_, ?_⟩
    . rw [h.mem_keys_iff, Table.stored, hfind]
      rfl
    . exact List.isPrefixOf_iff_prefix.2 (List.prefix_append lead rest)
  . rintro ⟨key, hkey, hbegins⟩
    cases key with
    | fixed text => exact absurd hbegins (by simp)
    | pattern key =>
      obtain ⟨rest, hrest⟩ := List.isPrefixOf_iff_prefix.1 hbegins
      rw [h.mem_keys_iff, Table.stored, Option.isSome_iff_exists] at hkey
      obtain ⟨v, hv⟩ := hkey
      exact ⟨rest, v, hrest ▸ hv⟩

/-- A path leads the table to the key that it finds in the ledger. -/
theorem target?_eq_some_iff (h : t.Keeps wildcard r) :
    t.target? path = some key ↔ r.Finds wildcard path key := by
  cases hfixed : t.fixed.lookup path with
  | some v =>
    have hmem : .fixed path ∈ r.keys := by
      rw [← h.isSome_fixed_iff, hfixed]
      rfl
    rw [target?_of_fixed hfixed, Option.some.injEq]
    cases key with
    | fixed text => simp [Ledger.finds_fixed_iff, hmem, eq_comm]
    | pattern key => simp [Ledger.finds_pattern_iff, hmem]
  | none =>
    have hnotMem : .fixed path ∉ r.keys := by
      rw [← h.isSome_fixed_iff, hfixed]
      simp
    rw [target?_of_not_fixed hfixed, Option.map_eq_some_iff, h.wildcard]
    cases key with
    | fixed text => simp [Ledger.finds_fixed_iff, hnotMem]
    | pattern key =>
      simp only [Key.pattern.injEq, exists_eq_right, Option.filter_eq_some_iff, Node.trail_eq_some_iff]
      rw [Ledger.finds_pattern_iff, h.mem_keys_iff (.pattern key), Table.stored, Leads.congr h.begins_eq]
      constructor
      . rintro ⟨⟨_, hleads⟩, hfind⟩
        exact ⟨hnotMem, hfind, hleads⟩
      . rintro ⟨_, hfind, hleads⟩
        obtain ⟨v, hv⟩ := Option.isSome_iff_exists.1 hfind
        exact ⟨⟨Node.begins_of_find? hv, hleads⟩, hfind⟩

theorem finds_unique (h : t.Keeps wildcard r) (hkey : r.Finds wildcard path key)
    (hother : r.Finds wildcard path other) : other = key := by
  rw [← h.target?_eq_some_iff] at hkey hother
  rw [hkey, Option.some.injEq] at hother
  exact hother.symm

theorem segments_ne_nil (h : t.Keeps wildcard r) (hkey : r.Finds wildcard path key) : segments path ≠ [] := by
  intro hnil
  cases key with
  | fixed text => exact h.named _ hkey.2 hnil
  | pattern key =>
    obtain ⟨_, hmem, hleads⟩ := hkey
    rw [hnil, leads_nil] at hleads
    exact h.named _ hmem hleads

theorem empty (wildcard : String) : (Table.empty wildcard : Table α).Keeps wildcard .empty where
  wildcard := rfl
  tidy := Node.tidy_empty
  distinctFixed := by simp [Table.empty]
  stored := by
    intro key v
    cases key with
    | fixed text => simp [Ledger.empty, Table.stored, Table.empty]
    | pattern key => simp [Ledger.empty, Table.stored, Table.empty, Node.find?_empty]
  distinct := by simp [Ledger.empty, Ledger.keys]
  named := by simp [Ledger.empty, Ledger.keys]
  size := rfl

theorem enter (h : t.Keeps wildcard r) (key : Key) (hkey : key.segments ≠ []) (value : α) :
    (t.enter key value).Keeps wildcard (r.enter key value) where
  wildcard := by
    cases key <;> exact h.wildcard
  tidy := by
    cases key with
    | fixed text => exact h.tidy
    | pattern key => exact Node.tidy_insert h.tidy value key
  distinctFixed := by
    cases key with
    | fixed text => exact Named.nodup_put h.distinctFixed
    | pattern key => exact h.distinctFixed
  stored := by
    intro other v
    rw [Table.stored_enter, Ledger.enter, List.mem_cons, Named.mem_drop, h.stored]
    by_cases heq : other = key
    . simp [heq, eq_comm]
    . simp [heq]
  distinct := by
    unfold Ledger.enter Ledger.keys
    rw [List.map_cons, List.nodup_cons]
    exact ⟨Named.name_notMem_drop key r.entries, Named.nodup_drop h.distinct⟩
  named := by
    intro other hother
    unfold Ledger.enter Ledger.keys at hother
    rw [List.map_cons, List.mem_cons] at hother
    cases hother with
    | inl heq => exact heq ▸ hkey
    | inr hold => exact h.named other (Named.names_drop_subset key r.entries hold)
  size := by
    have hsize : (t.enter key value).size = if (t.stored key).isNone then t.size + 1 else t.size := by
      cases key <;> rfl
    rw [hsize, h.size, Ledger.enter, List.length_cons]
    by_cases hmem : key ∈ r.keys
    . have hlength := Named.length_drop_of_mem h.distinct hmem
      have hstored := (h.mem_keys_iff key).1 hmem
      rw [← Option.not_isNone, Bool.not_eq_true'] at hstored
      rw [hstored, if_neg (by simp)]
      exact hlength.symm
    . have hlength := Named.drop_of_notMem hmem
      have hstored : (t.stored key).isNone = true := by
        rw [h.mem_keys_iff, Option.not_isSome_iff_eq_none] at hmem
        rw [hmem]
        rfl
      rw [hstored, if_pos rfl, hlength]

theorem forget (h : t.Keeps wildcard r) (key : Key) (hkey : key ∈ r.keys) :
    (t.forget key).Keeps wildcard ⟨Named.drop key r.entries⟩ where
  wildcard := by
    cases key <;> exact h.wildcard
  tidy := by
    cases key with
    | fixed text => exact h.tidy
    | pattern key => exact Node.tidy_erase h.tidy key
  distinctFixed := by
    cases key with
    | fixed text => exact Named.nodup_drop h.distinctFixed
    | pattern key => exact h.distinctFixed
  stored := by
    intro other v
    obtain ⟨stored, hstored⟩ := Option.isSome_iff_exists.1 ((h.mem_keys_iff key).1 hkey)
    rw [Table.stored_forget hstored, Named.mem_drop, h.stored]
    by_cases heq : other = key <;> simp [heq]
  distinct := Named.nodup_drop h.distinct
  named := by
    intro other hother
    exact h.named other (Named.names_drop_subset key r.entries hother)
  size := by
    have hsize : (t.forget key).size = t.size - 1 := by
      cases key <;> rfl
    have hlength := Named.length_drop_of_mem h.distinct hkey
    rw [hsize, h.size]
    dsimp only
    omega

/-- At most one key is found, so striking what is found takes out one key or none. -/
theorem strike_eq (h : t.Keeps wildcard r) (path : String) :
    r.strike wildcard path = (t.target? path).elim r fun key => ⟨Named.drop key r.entries⟩ := by
  unfold Ledger.strike Named.drop
  cases htarget : t.target? path with
  | none =>
    have hnone : ∀ key, ¬r.Finds wildcard path key := by
      intro key hkey
      rw [← h.target?_eq_some_iff, htarget] at hkey
      exact absurd hkey (by simp)
    have hall : r.entries.filter (fun (key, _) => ¬r.Finds wildcard path key) = r.entries := by
      rw [List.filter_eq_self]
      intro entry _
      simp [hnone]
    rw [hall, Option.elim_none]
  | some key =>
    have hiff : ∀ other, r.Finds wildcard path other ↔ other = key := by
      intro other
      rw [← h.target?_eq_some_iff, htarget, Option.some.injEq, eq_comm]
    simp [hiff]

theorem change (h : t.Keeps wildcard r) (c : Change α) : (t.change c).Keeps wildcard (r.change wildcard c) := by
  cases c with
  | add key value =>
    rw [Table.change_add, Ledger.change]
    split
    . exact h
    . next hkey =>
      rw [h.wildcard]
      apply h.enter
      rw [Key.segments_ofText]
      exact hkey
  | remove path =>
    rw [Table.change_remove, Ledger.change, h.strike_eq]
    cases htarget : t.target? path with
    | none =>
      rw [Option.elim_none, ite_self]
      exact h
    | some key =>
      have hfinds := h.target?_eq_some_iff.1 htarget
      rw [if_neg (h.segments_ne_nil hfinds)]
      apply h.forget
      rw [h.mem_keys_iff]
      exact isSome_stored_of_target? htarget
  | clear =>
    rw [Table.change, Table.clear, h.wildcard]
    exact .empty wildcard

theorem foldl_change (h : t.Keeps wildcard r) (changes : List (Change α)) :
    (changes.foldl Table.change t).Keeps wildcard (changes.foldl (Ledger.change wildcard) r) := by
  induction changes generalizing t r with
  | nil => exact h
  | cons c changes ih => exact ih (h.change c)

end Keeps

theorem keeps_ofChanges (wildcard : String) (changes : List (Change α)) :
    (ofChanges wildcard changes).Keeps wildcard (.ofChanges wildcard changes) :=
  (Keeps.empty wildcard).foldl_change changes

end Table

end Signpost.Route
