import Signpost.Route.Node

/-!
This module contains the theory of the walk through the tree. The walk follows a trail, the names of the
children that it passes; what it captures, where it ends and what a removal takes out are all read off the
trail. A trail is the one key that a list of segments leads to.
-/

namespace Signpost.Route

/--
A list of segments leads to a key of the same length if at every position the key has the segment itself, or
else the wildcard while nothing begins with the key up to there and the segment.
-/
def Leads (known : List String → Bool) (wildcard : String) (path key : List String) : Prop :=
  key.length = path.length ∧
    ∀ (i : Nat) (h : i < path.length),
      key[i]? = some path[i] ∨
        (key[i]? = some wildcard ∧ known (key.take i ++ [path[i]]) = false)

instance (known : List String → Bool) (wildcard : String) (path key : List String) :
    Decidable (Leads known wildcard path key) :=
  inferInstanceAs (Decidable (_ ∧ _))

/-- The segments at the positions where the key has something else. -/
def captured (path key : List String) : List String :=
  (path.zip key).filterMap fun (s, k) => if k = s then none else some s

section
variable {known : List String → Bool} {wildcard s k : String} {path key : List String}

theorem leads_nil : Leads known wildcard [] key ↔ key = [] := by
  unfold Leads
  constructor
  . intro h
    exact List.length_eq_zero_iff.1 h.1
  . intro h
    subst h
    exact ⟨rfl, fun i hi => absurd hi (Nat.not_lt_zero i)⟩

theorem leads_cons : Leads known wildcard (s :: path) (k :: key) ↔
    (k = s ∨ (k = wildcard ∧ known [s] = false)) ∧
      Leads (fun lead => known (k :: lead)) wildcard path key := by
  unfold Leads
  constructor
  . rintro ⟨hlength, h⟩
    refine ⟨?_, by simpa using hlength, ?_⟩
    . have hzero := h 0 (Nat.zero_lt_succ _)
      simpa using hzero
    . intro i hi
      have hsucc := h (i + 1) (Nat.succ_lt_succ hi)
      simpa using hsucc
  . rintro ⟨hfirst, hlength, h⟩
    refine ⟨by simpa using hlength, ?_⟩
    intro i hi
    cases i with
    | zero => simpa using hfirst
    | succ i => simpa using h i (by simpa using hi)

theorem Leads.mem_or_eq (h : Leads known wildcard path key) (hs : s ∈ key) : s ∈ path ∨ s = wildcard := by
  obtain ⟨i, hi⟩ := List.mem_iff_getElem?.1 hs
  obtain ⟨hlt, _⟩ := List.getElem?_eq_some_iff.1 hi
  rw [h.1] at hlt
  cases h.2 i hlt with
  | inl hself =>
    rw [hi, Option.some.injEq] at hself
    exact .inl (hself ▸ List.getElem_mem hlt)
  | inr hwildcard =>
    rw [hi, Option.some.injEq] at hwildcard
    exact .inr hwildcard.1

theorem Leads.ne_nil (h : Leads known wildcard (s :: path) key) : ∃ k rest, key = k :: rest := by
  cases key with
  | nil => simp [Leads] at h
  | cons k rest => exact ⟨k, rest, rfl⟩

/-- A path that spells a key leads to it, whatever else is known. -/
theorem leads_self (known : List String → Bool) (wildcard : String) (path : List String) :
    Leads known wildcard path path :=
  ⟨rfl, fun _ hi => .inl (List.getElem?_eq_getElem hi)⟩

/-- Only what begins with something is asked. -/
theorem Leads.congr {known known' : List String → Bool} (h : ∀ lead, lead ≠ [] → known lead = known' lead) :
    Leads known wildcard path key ↔ Leads known' wildcard path key := by
  unfold Leads
  simp only [h _ (List.append_ne_nil_of_right_ne_nil _ (List.cons_ne_nil _ _))]

end

namespace Node

/-- The node at which exactly these segments end. -/
def at? : List String → Node α → Option (Node α)
  | [], node => some node
  | s :: rest, node => (node.child? s).bind (at? rest)

/-- Whether a node of the tree stands under exactly these segments. -/
def begins (node : Node α) (lead : List String) : Bool :=
  (node.at? lead).isSome

/-- The name of the child to which a segment leads. -/
def turn (wildcard s : String) (node : Node α) : String :=
  if (node.child? s).isSome then s else wildcard

/-- The names of the children that the walk passes. -/
def trail (wildcard : String) : List String → Node α → Option (List String)
  | [], _ => some []
  | s :: rest, node =>
    (node.child? (node.turn wildcard s)).bind fun child =>
      (trail wildcard rest child).map (node.turn wildcard s :: ·)

theorem find?_eq (key : List String) (node : Node α) : node.find? key = (node.at? key).bind value := by
  induction key generalizing node with
  | nil => rfl
  | cons s rest ih =>
    rw [find?, at?]
    cases node.child? s with
    | none => rfl
    | some child => exact ih child

theorem begins_of_find? {node : Node α} (h : node.find? key = some v) : node.begins key = true := by
  unfold begins
  rw [find?_eq] at h
  cases hat : node.at? key with
  | none => simp [hat] at h
  | some found => rfl

theorem begins_cons (node : Node α) (s : String) (lead : List String) :
    node.begins (s :: lead) = (node.child? s).any (·.begins lead) := by
  unfold begins
  rw [at?]
  cases node.child? s <;> rfl

theorem begins_singleton (node : Node α) (s : String) : node.begins [s] = (node.child? s).isSome := by
  rw [begins_cons]
  cases node.child? s <;> rfl

theorem ne_of_child? {node child : Node α} (hs : node.child? s = none) (h : node.child? k = some child) :
    k ≠ s := by
  intro heq
  rw [heq, hs] at h
  exact absurd h (by simp)

theorem trail_cons_of_child? {node child : Node α} (h : node.child? s = some child) :
    node.trail wildcard (s :: path) = (child.trail wildcard path).map (s :: ·) := by
  rw [trail, turn, h]
  simp only [Option.isSome_some, ↓reduceIte]
  rw [h]
  rfl

theorem trail_cons_of_wildcard {node child : Node α} (hs : node.child? s = none)
    (h : node.child? wildcard = some child) :
    node.trail wildcard (s :: path) = (child.trail wildcard path).map (wildcard :: ·) := by
  rw [trail, turn, hs]
  simp only [Option.isSome_none, Bool.false_eq_true, ↓reduceIte]
  rw [h]
  rfl

theorem trail_cons_of_none {node : Node α} (hs : node.child? s = none) (h : node.child? wildcard = none) :
    node.trail wildcard (s :: path) = none := by
  rw [trail, turn, hs]
  simp only [Option.isSome_none, Bool.false_eq_true, ↓reduceIte]
  rw [h]
  rfl

/-- The walk ends where its trail ends, and has captured what differs from the trail. -/
theorem walk_eq (wildcard : String) (path : List String) (node : Node α) :
    node.walk wildcard path
      =
    (node.trail wildcard path).bind fun key =>
      (node.at? key).map fun found => (captured path key, found) := by
  induction path generalizing node with
  | nil => rfl
  | cons s rest ih =>
    rw [walk]
    cases hs : node.child? s with
    | some child =>
      rw [trail_cons_of_child? hs]
      dsimp only
      rw [ih, Option.bind_map]
      congr
      funext key
      simp [at?, hs, captured]
    | none =>
      dsimp only
      cases hw : node.child? wildcard with
      | none =>
        rw [trail_cons_of_none hs hw]
        rfl
      | some child =>
        have hne := ne_of_child? hs hw
        rw [trail_cons_of_wildcard hs hw]
        dsimp only
        rw [ih, Option.bind_map, Option.map_bind]
        congr
        funext key
        simp [at?, hw, captured, hne, Function.comp_def]

theorem trail_cons_ne_nil (node : Node α) : node.trail wildcard (s :: path) ≠ some [] := by
  rw [trail]
  cases node.child? (node.turn wildcard s) with
  | none => simp
  | some child => simp

theorem trail_cons_eq_some_iff {node : Node α} :
    node.trail wildcard (s :: path) = some (k :: key) ↔
      ∃ child, node.child? k = some child ∧ (k = s ∨ (k = wildcard ∧ node.child? s = none)) ∧
        child.trail wildcard path = some key := by
  cases hs : node.child? s with
  | some child =>
    rw [trail_cons_of_child? hs]
    by_cases hk : k = s
    . simp [hk, hs]
    . simp [hk, Ne.symm hk]
  | none =>
    have hk : ∀ child, node.child? k = some child → k ≠ s := fun child h => ne_of_child? hs h
    cases hw : node.child? wildcard with
    | none =>
      rw [trail_cons_of_none hs hw]
      constructor
      . intro h
        exact absurd h (by simp)
      . rintro ⟨child, hchild, hor, _⟩
        cases hor with
        | inl heq => exact absurd heq (hk child hchild)
        | inr heq => simp [heq.1, hw] at hchild
    | some child =>
      rw [trail_cons_of_wildcard hs hw]
      constructor
      . intro h
        simp only [Option.map_eq_some_iff, List.cons.injEq] at h
        obtain ⟨found, htrail, rfl, rfl⟩ := h
        exact ⟨child, hw, .inr ⟨rfl, rfl⟩, htrail⟩
      . rintro ⟨found, hfound, hor, htrail⟩
        cases hor with
        | inl heq => exact absurd heq (hk found hfound)
        | inr heq =>
          rw [heq.1, hw, Option.some.injEq] at hfound
          simp [hfound, htrail, heq.1]

/-- The trail is the one key in the tree to which the segments lead. -/
theorem trail_eq_some_iff {node : Node α} :
    node.trail wildcard path = some key ↔
      node.begins key = true ∧ Leads node.begins wildcard path key := by
  induction path generalizing node key with
  | nil =>
    rw [leads_nil, trail, Option.some.injEq]
    constructor
    . intro h
      subst h
      exact ⟨rfl, rfl⟩
    . intro h
      exact h.2.symm
  | cons s rest ih =>
    cases key with
    | nil =>
      constructor
      . intro h
        exact absurd h (trail_cons_ne_nil node)
      . intro h
        exact absurd h.2.1 (by simp)
    | cons k key =>
      rw [trail_cons_eq_some_iff, leads_cons, begins_singleton]
      simp only [begins_cons]
      cases hk : node.child? k with
      | none => simp
      | some child =>
        simp only [Option.any_some, Option.some.injEq, exists_eq_left', ih, Option.isSome_eq_false_iff,
          Option.isNone_iff_eq_none]
        constructor
        . rintro ⟨hor, hbegins, hleads⟩
          exact ⟨hbegins, hor, hleads⟩
        . rintro ⟨hbegins, hor, hleads⟩
          exact ⟨hor, hbegins, hleads⟩

theorem trail_of_find? {node : Node α} (h : node.find? key = some v) (wildcard : String) :
    node.trail wildcard key = some key :=
  trail_eq_some_iff.2 ⟨begins_of_find? h, leads_self ..⟩

/-- The trail of a path goes on where that of its front ends. -/
theorem trail_append (wildcard : String) (front rest : List String) (node : Node α) :
    node.trail wildcard (front ++ rest)
      =
    (node.trail wildcard front).bind fun key =>
      (node.at? key).bind fun found => (found.trail wildcard rest).map (key ++ ·) := by
  induction front generalizing node with
  | nil => simp [trail, at?]
  | cons s front ih =>
    rw [List.cons_append, trail, trail]
    cases hchild : node.child? (node.turn wildcard s) with
    | none => rfl
    | some child =>
      simp only [Option.bind_some, Option.bind_map, ih, Option.map_bind]
      cases child.trail wildcard front with
      | none => rfl
      | some key => simp [at?, hchild, Function.comp_def]

/-- The walk goes to the end of its trail. -/
theorem isSome_walk (wildcard : String) (path : List String) (node : Node α) :
    (node.walk wildcard path).isSome = (node.trail wildcard path).isSome := by
  rw [walk_eq]
  cases htrail : node.trail wildcard path with
  | none => rfl
  | some key =>
    obtain ⟨found, hfound⟩ := Option.isSome_iff_exists.1 (trail_eq_some_iff.1 htrail).1
    rw [Option.bind_some, hfound]
    rfl

/-- Put a child under a name, or take the name out if no key is left below it. -/
def prune (name : String) (node child : Node α) : Node α :=
  .mk node.value
    (if child.isBare then Named.drop name node.children else Named.put name child node.children)

/-- Take out the value under exactly these segments, and the nodes that lead to no key any more. -/
def erase : List String → Node α → Node α
  | [], node => .mk none node.children
  | s :: rest, node =>
    match node.child? s with
    | some child => node.prune s (erase rest child)
    | none => node

theorem erase_cons_of_child? {node child : Node α} (h : node.child? s = some child) (key : List String) :
    node.erase (s :: key) = node.prune s (child.erase key) := by
  rw [erase, h]

theorem find?_cons_of_child? {node child : Node α} (h : node.child? s = some child) (key : List String) :
    node.find? (s :: key) = child.find? key := by
  rw [find?, h]
  rfl

/-- A removal takes out what stands at the end of the trail. -/
theorem remove_eq (wildcard : String) (path : List String) (node : Node α) :
    node.remove wildcard path
      =
    (node.trail wildcard path).bind fun key =>
      (node.find? key).map fun value => (value, node.erase key) := by
  induction path generalizing node with
  | nil => rfl
  | cons s rest ih =>
    have hremove : node.remove wildcard (s :: rest)
        = (node.child? (node.turn wildcard s)).bind fun child =>
            (child.remove wildcard rest).map fun removed =>
              (removed.1, node.prune (node.turn wildcard s) removed.2) := by
      rw [remove]
      rfl
    rw [hremove, trail]
    cases hchild : node.child? (node.turn wildcard s) with
    | none => rfl
    | some child =>
      simp only [Option.bind_some, Option.bind_map, ih, Option.map_bind]
      congr
      funext key
      dsimp only [Function.comp_apply]
      rw [find?_cons_of_child? hchild, erase_cons_of_child? hchild, Option.map_map]
      rfl

end Node

end Signpost.Route
