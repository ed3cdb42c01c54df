import Signpost.Proofs.Route.Ledger

/-!
This module contains the answers of a table that has gone through any changes. They are determined by the
ledger of these changes alone, and what they capture are the segments in the places of the wildcards, except
for a segment that is itself spelled like the wildcard.
-/

namespace Signpost.Route

namespace Table.Keeps

variable {t : Table α} {wildcard : String} {r : Ledger α}

theorem target?_empty (h : t.Keeps wildcard r) : t.target? "" = none := by
  rw [Option.eq_none_iff_forall_ne_some]
  intro key hkey
  exact h.segments_ne_nil (h.target?_eq_some_iff.1 hkey) (by decide)

theorem find?_eq (h : t.Keeps wildcard r) (path : String) :
    t.find? path
      =
    (t.target? path).bind fun key => (t.stored key).map fun value => ⟨value, key.args path⟩ := by
  by_cases hpath : path = ""
  . rw [hpath, h.target?_empty]
    unfold find?
    rw [if_pos rfl]
    rfl
  . exact find?_of_ne_empty t hpath

/-- A path has the answer of the key that it finds. -/
theorem find?_eq_some_iff (h : t.Keeps wildcard r) :
    t.find? path = some hit ↔
      ∃ key, r.Finds wildcard path key ∧ (key, hit.value) ∈ r.entries ∧ hit.args = key.args path := by
  rw [h.find?_eq, Option.bind_eq_some_iff]
  constructor
  . rintro ⟨key, htarget, hhit⟩
    rw [Option.map_eq_some_iff] at hhit
    obtain ⟨v, hv, rfl⟩ := hhit
    exact ⟨key, h.target?_eq_some_iff.1 htarget, (h.stored _ _).2 hv, rfl⟩
  . rintro ⟨key, hfinds, hmem, hargs⟩
    refine ⟨key, h.target?_eq_some_iff.2 hfinds, ?_⟩
    rw [(h.stored _ _).1 hmem, Option.map_some, ← hargs]

theorem find?_eq_none (h : t.Keeps wildcard r) (hnone : ∀ key, ¬r.Finds wildcard path key) :
    t.find? path = none := by
  rw [Option.eq_none_iff_forall_ne_some]
  intro hit hhit
  obtain ⟨key, hfinds, _⟩ := h.find?_eq_some_iff.1 hhit
  exact hnone key hfinds

end Table.Keeps

/-- A key that is spelled like the path is found first; else the one key to which the segments lead. -/
theorem find?_ofChanges (wildcard : String) (changes : List (Change α)) (path : String) :
    let t := Table.ofChanges wildcard changes
    let r := Ledger.ofChanges wildcard changes
    (∀ v, (.fixed path, v) ∈ r.entries → t.find? path = some ⟨v, []⟩) ∧
      (.fixed path ∉ r.keys →
        (∀ key v, (.pattern key, v) ∈ r.entries → Leads r.begins wildcard (segments path) key →
          t.find? path = some ⟨v, captured (segments path) key⟩) ∧
        (∀ key other, .pattern key ∈ r.keys → Leads r.begins wildcard (segments path) key →
          .pattern other ∈ r.keys → Leads r.begins wildcard (segments path) other → other = key) ∧
        ((path = "" ∨ ∀ key, .pattern key ∈ r.keys → ¬Leads r.begins wildcard (segments path) key) →
          t.find? path = none)) := by
  intro t r
  have h : t.Keeps wildcard r := Table.keeps_ofChanges wildcard changes
  have hkeys : ∀ {key v}, (key, v) ∈ r.entries → key ∈ r.keys := fun hmem => List.mem_map_of_mem hmem
  refine ⟨?_, ?_⟩
  . intro v hmem
    exact h.find?_eq_some_iff.2 ⟨.fixed path, ⟨rfl, hkeys hmem⟩, hmem, rfl⟩
  . intro hfixed
    refine ⟨?_, ?_, ?_⟩
    . intro key v hmem hleads
      exact h.find?_eq_some_iff.2 ⟨.pattern key, ⟨hfixed, hkeys hmem, hleads⟩, hmem, rfl⟩
    . intro key other hkey hleads hother hleadsOther
      have hfindsKey : r.Finds wildcard path (.pattern key) := ⟨hfixed, hkey, hleads⟩
      have hfindsOther : r.Finds wildcard path (.pattern other) := ⟨hfixed, hother, hleadsOther⟩
      exact Key.pattern.inj (h.finds_unique hfindsKey hfindsOther)
    . intro hmiss
      cases hmiss with
      | inl hempty =>
        rw [hempty]
        unfold Table.find?
        rw [if_pos rfl]
      | inr hnone =>
        apply h.find?_eq_none
        intro key hkey
        cases key with
        | fixed text => exact hfixed hkey.2
        | pattern key => exact hnone key hkey.2.1 hkey.2.2

/-! ## Captures and wildcards -/

/-- Put arguments in the places of the wildcards, from left to right. -/
def fill (wildcard : String) : List String → List String → List String
  | [], _ => []
  | k :: key, args =>
    if k = wildcard then args.headD k :: fill wildcard key args.tail else k :: fill wildcard key args

section
variable {known : List String → Bool} {wildcard : String} {path key : List String}

theorem captured_cons_self (s : String) (path key : List String) :
    captured (s :: path) (s :: key) = captured path key := by
  simp [captured]

theorem captured_cons_of_ne {s k : String} (h : k ≠ s) (path key : List String) :
    captured (s :: path) (k :: key) = s :: captured path key := by
  simp [captured, h]

/-- One segment is captured for each wildcard in whose place the path does not spell the wildcard. -/
theorem Leads.length_captured (h : Leads known wildcard path key) :
    (captured path key).length + path.count wildcard = key.count wildcard := by
  induction path generalizing key known with
  | nil =>
    rw [leads_nil] at h
    rw [h]
    rfl
  | cons s path ih =>
    obtain ⟨k, rest, rfl⟩ := h.ne_nil
    rw [leads_cons] at h
    have hrest := ih h.2
    by_cases hk : k = s
    . rw [hk, captured_cons_self, List.count_cons, List.count_cons]
      omega
    . have hwildcard : k = wildcard := (h.1.resolve_left hk).1
      have hs : s ≠ wildcard := fun heq => hk (hwildcard.trans heq.symm)
      rw [captured_cons_of_ne hk, List.length_cons, List.count_cons_of_ne hs, hwildcard,
        List.count_cons_self]
      omega

theorem Leads.captured_eq (h : Leads known wildcard path key) :
    captured path key = ((path.zip key).filter fun (s, k) => k = wildcard ∧ s ≠ wildcard).map (·.1) := by
  induction path generalizing key known with
  | nil => rfl
  | cons s path ih =>
    obtain ⟨k, rest, rfl⟩ := h.ne_nil
    rw [leads_cons] at h
    rw [List.zip_cons_cons, List.filter_cons]
    by_cases hk : k = s
    . rw [hk, captured_cons_self, ih h.2, if_neg (by simp)]
    . have hwildcard : k = wildcard := (h.1.resolve_left hk).1
      have hs : s ≠ wildcard := fun heq => hk (hwildcard.trans heq.symm)
      rw [captured_cons_of_ne hk, ih h.2, if_pos (by simp [hwildcard, hs]), List.map_cons]

theorem Leads.fill_captured (h : Leads known wildcard path key) (hpath : wildcard ∉ path) :
    fill wildcard key (captured path key) = path := by
  induction path generalizing key known with
  | nil =>
    rw [leads_nil] at h
    rw [h]
    rfl
  | cons s path ih =>
    obtain ⟨k, rest, rfl⟩ := h.ne_nil
    rw [leads_cons] at h
    rw [List.mem_cons, not_or] at hpath
    have hrest := ih h.2 hpath.2
    rw [fill]
    by_cases hk : k = s
    . rw [hk, captured_cons_self, if_neg (Ne.symm hpath.1), hrest]
    . rw [captured_cons_of_ne hk, if_pos (h.1.resolve_left hk).1]
      rw [List.headD_cons, List.tail_cons, hrest]

end

/--
What is captured fills the wildcards of the key to give the path back exactly if the path has no segment that
is spelled like the wildcard. Such a segment takes the place of a wildcard and is not captured.
-/
theorem args_fill_iff {wildcard path : String} {changes : List (Change α)} {hit : Hit α} {key : List String}
    (hfind : (Table.ofChanges wildcard changes).find? path = some hit)
    (hkey : (Ledger.ofChanges wildcard changes).Finds wildcard path (.pattern key)) :
    (hit.args.length = key.count wildcard ∧ fill wildcard key hit.args = segments path ↔
        wildcard ∉ segments path) ∧
      hit.args.length + (segments path).count wildcard = key.count wildcard ∧
      hit.args
        =
      (((segments path).zip key).filter fun (s, k) => k = wildcard ∧ s ≠ wildcard).map (·.1) := by
  have h := Table.keeps_ofChanges wildcard changes
  have hargs : hit.args = captured (segments path) key := by
    obtain ⟨found, hfound, _, hargs⟩ := h.find?_eq_some_iff.1 hfind
    rw [hargs, h.finds_unique hkey hfound]
    rfl
  have hleads := hkey.2.2
  have hlength := hleads.length_captured
  rw [hargs]
  refine ⟨?_, hlength, hleads.captured_eq⟩
  constructor
  . rintro ⟨hcount, _⟩
    rw [← List.count_eq_zero]
    omega
  . intro hpath
    have hzero := List.count_eq_zero.2 hpath
    exact ⟨by omega, hleads.fill_captured hpath⟩

/-- A segment that is spelled like the wildcard is passed, but not handed over. -/
theorem wildcard_segment_not_captured :
    ∃ hit, (Table.ofChanges "*" [.add "get/user/*" 1]).find? "get/user/*" = some hit ∧
      (Ledger.ofChanges "*" [.add "get/user/*" 1]).Finds "*" "get/user/*" (.pattern ["get", "user", "*"]) ∧
      ¬(hit.args.length = ["get", "user", "*"].count "*" ∧
        fill "*" ["get", "user", "*"] hit.args = segments "get/user/*") := by
  refine ⟨⟨1, []⟩, ?_, ?_, ?_⟩
  . decide +kernel
  . decide +kernel
  . decide

theorem args_fill_iff_two_wildcards :
    (Table.ofChanges "*" [.add "get/*/*" 1, .add "get/a/b" 2, .remove "get/a/b"]).find? "get//a/b"
        = some ⟨1, ["a", "b"]⟩ ∧
      fill "*" ["get", "*", "*"] ["a", "b"] = segments "get//a/b" := by
  have hfind : (Table.ofChanges "*" [.add "get/*/*" 1, .add "get/a/b" 2, .remove "get/a/b"]).find? "get//a/b"
      = some ⟨1, ["a", "b"]⟩ := by decide +kernel
  have hkey : (Ledger.ofChanges "*" [.add "get/*/*" 1, .add "get/a/b" 2, .remove "get/a/b"]).Finds "*"
      "get//a/b" (.pattern ["get", "*", "*"]) := by decide +kernel
  exact ⟨hfind, ((args_fill_iff hfind hkey).1.2 (by decide)).2⟩

end Signpost.Route
