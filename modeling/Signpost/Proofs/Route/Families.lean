import Signpost.Proofs.Route.Listing

/-!
This module contains families of keys: the keys that begin with one and the same lead. Two tables that store the
same within a family give the same answers there, if every key begins with a lead of this length that has no
wildcard.
-/

namespace Signpost.Route

section
variable {known known' : List String → Bool} {wildcard : String} {lead other path key : List String}

/-- A path reaches no key of another family, since the walk would have to take a wildcard to get there. -/
theorem Leads.lead_eq (h : Leads known wildcard path key) (hpath : lead <+: path) (hkey : other <+: key ++ rest)
    (hlength : other.length = lead.length) (hliteral : wildcard ∉ other) : other = lead ∧ lead <+: key := by
  induction lead generalizing known path other key with
  | nil => exact ⟨List.length_eq_zero_iff.1 hlength, List.nil_prefix⟩
  | cons s lead ih =>
    obtain ⟨more, rfl⟩ := hpath
    obtain ⟨k, key, rfl⟩ := h.ne_nil
    cases other with
    | nil => exact absurd hlength (by simp)
    | cons o other =>
      rw [List.cons_append, List.cons_prefix_cons] at hkey
      rw [List.mem_cons, not_or] at hliteral
      rw [List.cons_append, leads_cons] at h
      have hstep : k = s := by
        apply h.1.resolve_right
        intro hwildcard
        exact hliteral.1 (hwildcard.1.symm.trans hkey.1.symm)
      obtain ⟨heq, hlead⟩ := ih h.2 (List.prefix_append lead more) hkey.2 (Nat.succ.inj hlength) hliteral.2
      rw [heq, hkey.1, hstep]
      exact ⟨rfl, (List.cons_prefix_cons).2 ⟨rfl, hlead⟩⟩

/-- Within a family, it only counts what is known of the family. -/
theorem Leads.of_agree (h : Leads known wildcard path key) (hkey : lead <+: key) (hliteral : wildcard ∉ lead)
    (hknown : ∀ more, lead <+: more → more ≠ [] → known more = known' more) : Leads known' wildcard path key := by
  induction lead generalizing known known' path key with
  | nil =>
    apply (Leads.congr _).1 h
    intro more hmore
    exact hknown more List.nil_prefix hmore
  | cons s lead ih =>
    obtain ⟨rest, rfl⟩ := hkey
    cases path with
    | nil => exact absurd (leads_nil.1 h) (List.cons_ne_nil _ _)
    | cons p path =>
      rw [List.mem_cons, not_or] at hliteral
      rw [List.cons_append, leads_cons] at h ⊢
      refine ⟨.inl (h.1.resolve_right ?_), ?_⟩
      . intro hwildcard
        exact hliteral.1 hwildcard.1.symm
      . apply ih h.2 (List.prefix_append lead rest) hliteral.2
        intro more hmore _
        exact hknown (s :: more) ((List.cons_prefix_cons).2 ⟨rfl, hmore⟩) (List.cons_ne_nil s more)

end

namespace Table

/-- A table whose keys all begin with one of some leads, which have one length and no wildcard. -/
structure Covered (wildcard : String) (n : Nat) (leads : List (List String)) (t : Table α) : Prop where
  keeps : ∃ r, t.Keeps wildcard r
  length : ∀ lead ∈ leads, lead.length = n
  literal : ∀ lead ∈ leads, wildcard ∉ lead
  led : ∀ key, (t.stored key).isSome = true → ∃ lead ∈ leads, lead <+: key.segments

/-- Two tables store the same in the family of a lead. -/
def Agrees (lead : List String) (t t' : Table α) : Prop :=
  ∀ key : Key, lead <+: key.segments → t.stored key = t'.stored key

/-- Two tables that are covered by leads and store the same in the family of one of them. -/
structure Alike (wildcard : String) (n : Nat) (leads leads' : List (List String)) (lead : List String)
    (t t' : Table α) : Prop where
  ne_nil : lead ≠ []
  mem : lead ∈ leads
  mem' : lead ∈ leads'
  covered : t.Covered wildcard n leads
  covered' : t'.Covered wildcard n leads'
  agrees : Agrees lead t t'

section
variable {wildcard : String} {n : Nat} {leads leads' : List (List String)} {lead other : List String} {t t' : Table α}

namespace Covered

theorem wildcard_eq (h : t.Covered wildcard n leads) : t.wildcard = wildcard := by
  obtain ⟨r, hkeeps⟩ := h.keeps
  exact hkeeps.wildcard

theorem begins_iff (h : t.Covered wildcard n leads) (hkey : key ≠ []) :
    t.root.begins key = true ↔ ∃ rest, (t.stored (.pattern (key ++ rest))).isSome = true := by
  obtain ⟨r, hkeeps⟩ := h.keeps
  rw [hkeeps.tidy.begins_iff hkey]
  simp only [Option.isSome_iff_exists]
  rfl

/-- No key is in two families. -/
theorem lead_unique (h : t.Covered wildcard n leads) (hmem : lead ∈ leads) (hother : other ∈ leads)
    (hkey : lead <+: key) (hkeyOther : other <+: key) : other = lead := by
  have hlength := (h.length other hother).trans (h.length lead hmem).symm
  exact (List.prefix_of_prefix_length_le hkeyOther hkey (Nat.le_of_eq hlength)).eq_of_length hlength

/-- The trail of a path stays in the family of the path. -/
theorem lead_of_trail (h : t.Covered wildcard n leads) (hmem : lead ∈ leads) (hlead : lead ≠ [])
    (hpath : lead <+: path) (htrail : t.root.trail wildcard path = some key) : lead <+: key ∧ key ≠ [] := by
  rw [Node.trail_eq_some_iff] at htrail
  have hkey : key ≠ [] := by
    intro hnil
    have hempty : path = [] := by
      rw [← List.length_eq_zero_iff, ← htrail.2.1, hnil]
      rfl
    rw [hempty, List.prefix_nil] at hpath
    exact hlead hpath
  obtain ⟨rest, hrest⟩ := (h.begins_iff hkey).1 htrail.1
  obtain ⟨other, hother, hbegin⟩ := h.led _ hrest
  have hlength := (h.length other hother).trans (h.length lead hmem).symm
  exact ⟨(htrail.2.lead_eq hpath hbegin hlength (h.literal other hother)).2, hkey⟩

/-- A path leads to a key of its own family. -/
theorem lead_of_target? (h : t.Covered wildcard n leads) (hmem : lead ∈ leads) (hlead : lead ≠ [])
    (hpath : lead <+: segments path) (htarget : t.target? path = some key) : lead <+: key.segments := by
  cases hfixed : t.fixed.lookup path with
  | some v =>
    rw [target?_of_fixed hfixed, Option.some.injEq] at htarget
    rw [← htarget]
    exact hpath
  | none =>
    rw [target?_of_not_fixed hfixed, h.wildcard_eq, Option.map_eq_some_iff] at htarget
    obtain ⟨pattern, htrail, rfl⟩ := htarget
    rw [Option.filter_eq_some_iff] at htrail
    exact (h.lead_of_trail hmem hlead hpath htrail.1).1

end Covered

namespace Alike

variable (h : Alike wildcard n leads leads' lead t t')

include h

theorem symm : Alike wildcard n leads' leads lead t' t where
  ne_nil := h.ne_nil
  mem := h.mem'
  mem' := h.mem
  covered := h.covered'
  covered' := h.covered
  agrees := fun key hkey => (h.agrees key hkey).symm

theorem begins_eq (hkey : lead <+: key) (hne : key ≠ []) : t.root.begins key = t'.root.begins key := by
  have hstored : ∀ rest, t.stored (.pattern (key ++ rest)) = t'.stored (.pattern (key ++ rest)) := by
    intro rest
    exact h.agrees (.pattern (key ++ rest)) (hkey.trans (List.prefix_append key rest))
  rw [Bool.eq_iff_iff, h.covered.begins_iff hne, h.covered'.begins_iff hne]
  simp only [hstored]

theorem trail_of_trail (hpath : lead <+: path) (htrail : t.root.trail wildcard path = some key) :
    t'.root.trail wildcard path = some key := by
  obtain ⟨hkey, hne⟩ := h.covered.lead_of_trail h.mem h.ne_nil hpath htrail
  rw [Node.trail_eq_some_iff] at htrail ⊢
  constructor
  . rw [← h.begins_eq hkey hne]
    exact htrail.1
  . apply htrail.2.of_agree hkey (h.covered.literal lead h.mem)
    intro more hmore hmoreNe
    exact h.begins_eq hmore hmoreNe

/-- The walks of a path take the same turns in both trees. -/
theorem trail_eq (hpath : lead <+: path) : t.root.trail wildcard path = t'.root.trail wildcard path := by
  apply Option.ext
  intro key
  constructor
  . intro htrail
    exact h.trail_of_trail hpath htrail
  . intro htrail
    exact h.symm.trail_of_trail hpath htrail

theorem target?_eq (hpath : lead <+: segments path) : t.target? path = t'.target? path := by
  have hfixed : t.fixed.lookup path = t'.fixed.lookup path := h.agrees (.fixed path) hpath
  unfold target?
  rw [hfixed, h.covered.wildcard_eq, h.covered'.wildcard_eq, h.trail_eq hpath]
  cases htrail : t'.root.trail wildcard (segments path) with
  | none => rfl
  | some key =>
    have hkey := (h.covered'.lead_of_trail h.mem' h.ne_nil hpath htrail).1
    have hfind : t.root.find? key = t'.root.find? key := h.agrees (.pattern key) hkey
    rw [Option.filter_some, Option.filter_some, hfind]

theorem find?_eq (hpath : lead <+: segments path) : t.find? path = t'.find? path := by
  obtain ⟨r, hkeeps⟩ := h.covered.keeps
  obtain ⟨r', hkeeps'⟩ := h.covered'.keeps
  rw [hkeeps.find?_eq, hkeeps'.find?_eq, h.target?_eq hpath]
  cases htarget : t'.target? path with
  | none => rfl
  | some key =>
    rw [Option.bind_some, Option.bind_some,
      h.agrees key (h.covered'.lead_of_target? h.mem' h.ne_nil hpath htarget)]

theorem contains_eq (hpath : lead <+: segments path) : t.contains path = t'.contains path := by
  obtain ⟨r, hkeeps⟩ := h.covered.keeps
  obtain ⟨r', hkeeps'⟩ := h.covered'.keeps
  rw [hkeeps.contains_eq, hkeeps'.contains_eq, h.target?_eq hpath]

theorem stored_target?_eq (hpath : lead <+: segments path) :
    (t.target? path).bind t.stored = (t'.target? path).bind t'.stored := by
  rw [h.target?_eq hpath]
  cases htarget : t'.target? path with
  | none => rfl
  | some key => exact h.agrees key (h.covered'.lead_of_target? h.mem' h.ne_nil hpath htarget)

theorem any_fixed_of_any_fixed (hpath : lead <+: path)
    (hany : t.fixed.any (fun (key, _) => path.isPrefixOf (segments key)) = true) :
    t'.fixed.any (fun (key, _) => path.isPrefixOf (segments key)) = true := by
  obtain ⟨r, hkeeps⟩ := h.covered.keeps
  obtain ⟨r', hkeeps'⟩ := h.covered'.keeps
  rw [List.any_eq_true] at hany ⊢
  obtain ⟨⟨key, v⟩, hmem, hbegin⟩ := hany
  have hkey : lead <+: segments key := hpath.trans (List.isPrefixOf_iff_prefix.1 hbegin)
  have hstored : t.fixed.lookup key = t'.fixed.lookup key := h.agrees (.fixed key) hkey
  rw [Named.mem_iff_lookup hkeeps.distinctFixed, hstored, ← Named.mem_iff_lookup hkeeps'.distinctFixed] at hmem
  exact ⟨(key, v), hmem, hbegin⟩

theorem startsWith_eq (hpath : lead <+: segments path) : t.startsWith path = t'.startsWith path := by
  have hfixed : t.fixed.any (fun (key, _) => (segments path).isPrefixOf (segments key))
      = t'.fixed.any fun (key, _) => (segments path).isPrefixOf (segments key) := by
    rw [Bool.eq_iff_iff]
    exact ⟨h.any_fixed_of_any_fixed hpath, h.symm.any_fixed_of_any_fixed hpath⟩
  have hwalk : (t.root.walk t.wildcard (segments path)).isSome
      = (t'.root.walk t'.wildcard (segments path)).isSome := by
    rw [h.covered.wildcard_eq, h.covered'.wildcard_eq, Node.isSome_walk, Node.isSome_walk, h.trail_eq hpath]
  unfold startsWith
  cases hsegments : segments path with
  | nil => rfl
  | cons s rest =>
    rw [hsegments] at hfixed hwalk
    dsimp only
    rw [hfixed, hwalk]

end Alike

end

end Table

end Signpost.Route
